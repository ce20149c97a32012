import AvbEntity.Json.Printer
import AvbEntity.Ordered.Set

namespace AvbEntity.Json

class Encode (α : Type) where
  encode : α → Json

class Decode (α : Type) where
  decode? : Json → Option α
  absent? : Option α := none

export Encode (encode)
export Decode (decode?)

class KeyForm (κ : Type) where
  write : κ → List Char
  read? : List Char → Option κ

instance : Encode Unit := ⟨fun _ => .null⟩

instance : Decode Unit where
  decode?
    | .null => some ()
    | _ => none

instance : Encode Bool := ⟨.bool⟩

instance : Decode Bool where
  decode?
    | .bool b => some b
    | _ => none

instance : Encode String := ⟨ofString⟩

instance : Decode String := ⟨text?, none⟩

def natBelow? (bound : Nat) (j : Json) : Option Nat :=
  j.nat?.bind fun n => if n < bound then some n else none

instance : Encode Nat := ⟨ofNat⟩

instance : Encode UInt8 := ⟨fun n => ofNat n.toNat⟩
instance : Decode UInt8 := ⟨fun j => (natBelow? UInt8.size j).map UInt8.ofNat, none⟩

instance : Encode UInt16 := ⟨fun n => ofNat n.toNat⟩
instance : Decode UInt16 := ⟨fun j => (natBelow? UInt16.size j).map UInt16.ofNat, none⟩

instance : Encode UInt32 := ⟨fun n => ofNat n.toNat⟩
instance : Decode UInt32 := ⟨fun j => (natBelow? UInt32.size j).map UInt32.ofNat, none⟩

instance : Encode UInt64 := ⟨fun n => ofNat n.toNat⟩
instance : Decode UInt64 := ⟨fun j => (natBelow? UInt64.size j).map UInt64.ofNat, none⟩

instance {α : Type} [Encode α] : Encode (Option α) where
  encode
    | none => .null
    | some a => encode a

instance {α : Type} [Decode α] : Decode (Option α) where
  decode?
    | .null => some none
    | j => (decode? j).map some
  absent? := some none

instance {α : Type} [Encode α] : Encode (List α) := ⟨fun l => .array (l.map encode)⟩

instance {α : Type} [Decode α] : Decode (List α) where
  decode?
    | .array items => items.mapM decode?
    | _ => none

instance {κ : Type} [OrderedKey κ] [Encode κ] : Encode (SortedSet κ) := ⟨fun s => encode s.toList⟩

instance {κ : Type} [OrderedKey κ] [Decode κ] : Decode (SortedSet κ) where
  decode? j := (decode? j : Option (List κ)).map SortedSet.ofList

instance {α : Type} {n : Nat} [Encode α] : Encode (Vector α n) := ⟨fun v => encode v.toList⟩

instance {α : Type} {n : Nat} [Decode α] : Decode (Vector α n) where
  decode? j := (decode? j : Option (List α)).bind fun l =>
    if h : l.length = n then some ⟨l.toArray, by simpa using h⟩ else none

instance : KeyForm UInt16 where
  write n := Text.decimal n.toNat
  read? cs := (natBelow? UInt16.size (.number cs)).map UInt16.ofNat

instance : KeyForm UInt32 where
  write n := Text.decimal n.toNat
  read? cs := (natBelow? UInt32.size (.number cs)).map UInt32.ofNat

instance {κ α : Type} [OrderedKey κ] [KeyForm κ] [Encode α] : Encode (SortedMap κ α) where
  encode m := .object (m.toList.map fun e => (KeyForm.write e.1, encode e.2))

def binding? {κ α : Type} [KeyForm κ] [Decode α] (m : List Char × Json) : Option (κ × α) := do
  return (← KeyForm.read? m.1, ← decode? m.2)

instance {κ α : Type} [OrderedKey κ] [KeyForm κ] [Decode α] : Decode (SortedMap κ α) where
  decode?
    | .object members => (members.mapM binding?).map SortedMap.ofList
    | _ => none

def ofName? {α : Type} (all : List α) (name : α → String) (raw : List Char) : Option α :=
  (unescape? raw).bind fun cs => all.find? fun a => (name a).toList = cs

class Named (α : Type) where
  all : List α
  name : α → String

instance (priority := low) {α : Type} [Named α] : Encode α := ⟨fun a => ofString (Named.name a)⟩

instance (priority := low) {α : Type} [Named α] : Decode α where
  decode?
    | .string raw => ofName? Named.all Named.name raw
    | .object [(raw, .null)] => ofName? Named.all Named.name raw
    | _ => none

inductive Slot where
  | present (value : Json)
  | absent
  | ended

/-- A member of a record: how it is written, if at all, and how it is read from its place. -/
class MemberForm (α : Type) where
  write : α → Option Json
  read? : Slot → Option α

instance {α : Type} [Encode α] [Decode α] : MemberForm α where
  write a := some (encode a)
  read?
    | .present j => decode? j
    | .absent => Decode.absent? (α := α)
    | .ended => none

/-- A member that may be left out, in an object or at the end of a list, and then has the default
value of its type. -/
structure Lenient (α : Type) where
  value : α

instance {α : Type} [Encode α] [Decode α] [Inhabited α] : MemberForm (Lenient α) where
  write a := some (encode a.value)
  read?
    | .present j => (decode? j).map Lenient.mk
    | _ => some ⟨default⟩

structure Sparse (κ α : Type) [OrderedKey κ] where
  value : SortedMap κ α

instance {κ α : Type} [OrderedKey κ] [KeyForm κ] [Encode α] [Decode α] :
    MemberForm (Sparse κ α) where
  write m := if m.value.isEmpty then none else some (encode m.value)
  read?
    | .present j => (decode? j).map Sparse.mk
    | _ => some ⟨∅⟩

class Members (τ : Type) where
  write : τ → List (Option Json)
  read? : List Slot → Option τ

instance : Members Unit where
  write _ := []
  read?
    | [] => some ()
    | _ => none

instance {α τ : Type} [MemberForm α] [Members τ] : Members (α × τ) where
  write p := MemberForm.write p.1 :: Members.write p.2
  read?
    | s :: ss => do return (← MemberForm.read? s, ← Members.read? ss)
    | [] => none

/-- Records with named members in a fixed order. The names are different, and there is one for each
member. -/
class Record (α : Type) (Parts : outParam Type) where
  names : List String
  [members : Members Parts]
  split : α → Parts
  join : Parts → α
  join_split : ∀ a, join (split a) = a
  nodup_names : names.Nodup := by decide
  length_write : ∀ p : Parts, (Members.write p).length = names.length := by
    intro p
    rfl

attribute [reducible, instance] Record.members

def writtenMembers : List String → List (Option Json) → List (String × Json)
  | name :: names, some j :: js => (name, j) :: writtenMembers names js
  | _ :: names, none :: js => writtenMembers names js
  | _, _ => []

def knownMembers? (names : List String) :
    List (List Char × Json) → Option (List (String × Json))
  | [] => some []
  | (raw, j) :: rest => do
    let cs ← unescape? raw
    let known ← knownMembers? names rest
    match names.find? fun name => name.toList = cs with
    | some name => return (name, j) :: known
    | none => return known

def slot? (members : List (String × Json)) (name : String) : Option Slot :=
  match members.filter fun m => m.1 = name with
  | [] => some .absent
  | [m] => some (.present m.2)
  | _ => none

def listSlots? : List String → List Json → Option (List Slot)
  | [], [] => some []
  | [], _ :: _ => none
  | _ :: names, j :: js => (listSlots? names js).map (.present j :: ·)
  | _ :: names, [] => (listSlots? names []).map (.ended :: ·)

/-- The places of the members of a record, which may be an object or a list of the members in
order. Members of an object that the record does not have are passed over. -/
def slots? (names : List String) : Json → Option (List Slot)
  | .object members => do
    let known ← knownMembers? names members
    names.mapM (slot? known)
  | .array items => listSlots? names items
  | _ => none

instance (priority := low) {α Parts : Type} [Record α Parts] : Encode α where
  encode a := ofMembers (writtenMembers (Record.names α) (Members.write (Record.split a)))

instance (priority := low) {α Parts : Type} [Record α Parts] : Decode α where
  decode? j := (slots? (Record.names α) j).bind fun slots =>
    (Members.read? slots).map Record.join

end AvbEntity.Json
