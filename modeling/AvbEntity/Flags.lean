import AvbEntity.Json.Form
import AvbEntity.Text.Blank

namespace AvbEntity

structure FlagFamily where
  width : Nat
  names : List String

structure FlagSet (family : FlagFamily) where
  bits : BitVec family.width
deriving DecidableEq

namespace FlagSet

variable {family : FlagFamily}

def none : FlagSet family := ⟨0⟩

instance : Inhabited (FlagSet family) := ⟨none⟩

def single (position : Nat) : FlagSet family := ⟨BitVec.twoPow family.width position⟩

def includes (s t : FlagSet family) : Bool := s.bits &&& t.bits == t.bits

def union (s t : FlagSet family) : FlagSet family := ⟨s.bits ||| t.bits⟩

def diff (s t : FlagSet family) : FlagSet family := ⟨s.bits &&& ~~~t.bits⟩

def isEmpty (s : FlagSet family) : Bool := s.bits == 0

def namedBits (family : FlagFamily) : BitVec family.width :=
  (BitVec.allOnes family.names.length).setWidth family.width

def allNamed (s : FlagSet family) : Bool := s.bits &&& ~~~namedBits family == 0

def setNames (s : FlagSet family) : List String → Nat → List String
  | [], _ => []
  | name :: names, position =>
    if s.bits.getLsbD position then name :: setNames s names (position + 1)
    else setNames s names (position + 1)

def write (s : FlagSet family) : List Char :=
  let unnamed := s.bits &&& ~~~namedBits family
  Text.joinWith [' ', '|', ' '] <| (s.setNames family.names 0).map String.toList ++
    if unnamed = 0 then [] else ['0' :: 'x' :: Text.hex unnamed.toNat]

/-- One part of the written form: a name, or a hexadecimal number that fits the word. A plus sign
may stand before the number's digits. -/
def readPart? (cs : List Char) : Option (FlagSet family) :=
  match cs with
  | '0' :: 'x' :: digits =>
    let digits := match digits with
      | '+' :: rest => rest
      | _ => digits
    (Text.hex? digits).bind fun n =>
      let bits := BitVec.ofNat family.width n
      if bits.toNat = n then some ⟨bits⟩ else Option.none
  | _ => (family.names.findIdx? fun name => name.toList = cs).map single

def read? (cs : List Char) : Option (FlagSet family) :=
  if (Text.trim cs).isEmpty then some none
  else ((Text.splitAt '|' cs).mapM fun part => readPart? (Text.trim part)).map fun parts =>
    parts.foldl union none

instance : Json.Encode (FlagSet family) := ⟨fun s => .ofString (String.ofList s.write)⟩

instance : Json.Decode (FlagSet family) := ⟨fun j => j.text?.bind fun s => read? s.toList, Option.none⟩

end FlagSet

end AvbEntity
