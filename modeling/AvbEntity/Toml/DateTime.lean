import AvbEntity.Time.Date

namespace AvbEntity.Toml

def isBelow (bound : Nat) (ds : List Char) : Bool :=
  ds.all Char.isDigit && Nat.ofDigitChars 10 ds 0 < bound

def isDate (year month day : List Char) : Bool :=
  (year ++ month ++ day).all Char.isDigit &&
    (Date.ofParts? (Nat.ofDigitChars 10 year 0) (Nat.ofDigitChars 10 month 0)
      (Nat.ofDigitChars 10 day 0)).isSome

def afterDate? : List Char → Option (List Char)
  | a :: b :: c :: d :: '-' :: e :: f :: '-' :: g :: h :: rest =>
    if isDate [a, b, c, d] [e, f] [g, h] then some rest else none
  | _ => none

def afterMinutes? : List Char → Option (List Char)
  | a :: b :: ':' :: c :: d :: rest =>
    if isBelow 24 [a, b] && isBelow 60 [c, d] then some rest else none
  | _ => none

def afterFraction? : List Char → Option (List Char)
  | '.' :: c :: rest => if c.isDigit then some (rest.dropWhile Char.isDigit) else none
  | ['.'] => none
  | rest => some rest

def afterTime? (cs : List Char) : Option (List Char) :=
  (afterMinutes? cs).bind fun
    | ':' :: a :: b :: rest => if isBelow 61 [a, b] then afterFraction? rest else none
    | _ => none

def afterOffset? : List Char → Option (List Char)
  | 'Z' :: rest | 'z' :: rest => some rest
  | '+' :: rest | '-' :: rest => afterMinutes? rest
  | rest => some rest

def isTimeMark (c : Char) : Bool := c == 'T' || c == 't' || c == ' '

/-- What follows a date-time. A blank after a day belongs to it only if a time follows. -/
def afterDateTime? (cs : List Char) : Option (List Char) :=
  match afterDate? cs with
  | none => afterTime? cs
  | some [] => some []
  | some (c :: rest) =>
    match if isTimeMark c then afterTime? rest else none with
    | some rest => afterOffset? rest
    | none => some (c :: rest)

end AvbEntity.Toml
