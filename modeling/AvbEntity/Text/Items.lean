namespace AvbEntity.Text

variable {α : Type}

def itemsBy? (separator : Char) (item? : List Char → Option (α × List Char)) (cs : List Char) :
    Option (List α × List Char) :=
  match item? cs with
  | none => none
  | some (a, []) => some ([a], [])
  | some (a, c :: rest) =>
    if c = separator then
      if rest.length < cs.length then
        (itemsBy? separator item? rest).map fun (as, rest) => (a :: as, rest)
      else none
    else some ([a], c :: rest)
termination_by cs.length

/-- Items up to a closing character, with a separator after each but the last, where it may stand
too. `skip` passes over what may stand around the items. -/
def itemsUntil? (close separator : Char) (skip : List Char → List Char)
    (item? : List Char → Option (α × List Char)) (cs : List Char) : Option (List α × List Char) :=
  match skip cs with
  | [] => none
  | c :: rest =>
    if c = close then some ([], rest)
    else match item? (c :: rest) with
      | none => none
      | some (a, rest) =>
        match skip rest with
        | [] => none
        | d :: rest =>
          if d = close then some ([a], rest)
          else if d = separator ∧ rest.length < cs.length then
            (itemsUntil? close separator skip item? rest).map fun (as, rest) => (a :: as, rest)
          else none
termination_by cs.length

end AvbEntity.Text
