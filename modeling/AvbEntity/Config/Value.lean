namespace AvbEntity

def alterEntry {α : Type} (name : String) (f : Option α → α) :
    List (String × α) → List (String × α)
  | [] => [(name, f none)]
  | (n, a) :: rest => if n = name then (n, f (some a)) :: rest else (n, a) :: alterEntry name f rest

def entryOf? {α : Type} (name : String) : List (String × α) → Option α
  | [] => none
  | (n, a) :: rest => if n = name then some a else entryOf? name rest

@[simp] theorem entryOf?_alterEntry_self {α : Type} (name : String) (f : Option α → α)
    (l : List (String × α)) :
    entryOf? name (alterEntry name f l) = some (f (entryOf? name l)) := by
  induction l with
  | nil => simp [alterEntry, entryOf?]
  | cons e rest ih =>
    obtain ⟨n, a⟩ := e
    by_cases h : n = name <;> simp [alterEntry, entryOf?, h, ih]

theorem entryOf?_alterEntry_ne {α : Type} {name other : String} (h : other ≠ name)
    (f : Option α → α) (l : List (String × α)) :
    entryOf? other (alterEntry name f l) = entryOf? other l := by
  induction l with
  | nil => simp [alterEntry, entryOf?, Ne.symm h]
  | cons e rest ih =>
    obtain ⟨n, a⟩ := e
    by_cases hn : n = name
    · simp [alterEntry, entryOf?, hn, Ne.symm h]
    · simp [alterEntry, entryOf?, hn, ih]

inductive ConfigValue where
  | bool (value : Bool)
  | integer (value : Int)
  | float (literal : List Char)
  | text (value : String)
  | character (value : Char)
  | list (items : List ConfigValue)
  | table (entries : List (String × ConfigValue))

namespace ConfigValue

instance : Inhabited ConfigValue := ⟨.table []⟩

def get? (name : String) : ConfigValue → Option ConfigValue
  | table entries => entryOf? name entries
  | _ => none

def at? : List String → ConfigValue → Option ConfigValue
  | [], v => some v
  | name :: path, v => (v.get? name).bind (at? path)

def nest : List String → ConfigValue → ConfigValue
  | [], v => v
  | name :: path, v => .table [(name, nest path v)]

@[simp] theorem at?_nest (path : List String) (v : ConfigValue) : (nest path v).at? path = some v := by
  induction path with
  | nil => rfl
  | cons name path ih => simpa [nest, at?, get?, entryOf?] using ih

mutual

def overlay : ConfigValue → ConfigValue → ConfigValue
  | .table upper, base =>
    match base with
    | .table lower => .table (overlayEntries upper lower)
    | _ => .table upper
  | v, _ => v

def overlayEntries : List (String × ConfigValue) → List (String × ConfigValue) →
    List (String × ConfigValue)
  | [], lower => lower
  | (name, v) :: upper, lower =>
    overlayEntries upper (alterEntry name
      (fun base => match base with
        | some base => overlay v base
        | none => v) lower)

end

def layered (layers : List ConfigValue) : ConfigValue :=
  layers.foldl (fun base v => overlay v base) (.table [])

def bool? : ConfigValue → Option Bool
  | bool b => some b
  | _ => none

def natBelow? (bound : Nat) : ConfigValue → Option Nat
  | integer n => if 0 ≤ n ∧ n.toNat < bound then some n.toNat else none
  | _ => none

def text? : ConfigValue → Option String
  | text s => some s
  | _ => none

/-- Whether a value can stand for a record: a table of its fields by name, or a list of its fields
in order. -/
def isRecord : ConfigValue → Bool
  | table _ | list _ => true
  | _ => false

def field? (position : Nat) (name : String) : ConfigValue → Option ConfigValue
  | table entries => entryOf? name entries
  | list items => items[position]?
  | _ => none

def fieldOr? {α : Type} (v : ConfigValue) (position : Nat) (name : String) (fallback : α)
    (read? : ConfigValue → Option α) : Option α :=
  match v.field? position name with
  | some f => read? f
  | none => some fallback

end ConfigValue

end AvbEntity
