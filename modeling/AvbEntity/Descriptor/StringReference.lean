import AvbEntity.Json.Form

namespace AvbEntity

/-- A reference to a localized string: the upper thirteen bits are the offset of the descriptor,
the lower three the number of the string. -/
structure StringReference where
  raw : UInt16 := 0xFFFF
deriving DecidableEq

namespace StringReference

def null : StringReference := ⟨0xFFFF⟩

instance : Inhabited StringReference := ⟨null⟩

def maxOffset : UInt16 := 0x1FFF

def ofParts (offset : UInt16) (index : UInt8) : StringReference :=
  ⟨(offset <<< 3) ||| (index.toUInt16 &&& 7)⟩

def isNull (r : StringReference) : Bool := r == null

def offset (r : StringReference) : UInt16 := r.raw >>> 3

def index (r : StringReference) : UInt16 := r.raw &&& 7

def globalOffset (r : StringReference) : UInt16 := (r.offset <<< 3) + r.index

instance : Json.Encode StringReference := ⟨fun r => Json.encode r.raw⟩

instance : Json.Decode StringReference := ⟨fun j => (Json.decode? j).map StringReference.mk, none⟩

end StringReference

end AvbEntity
