import AvbEntity.Json.Form

namespace AvbEntity

structure Eui64 where
  value : UInt64 := 0
deriving DecidableEq

namespace Eui64

def null : Eui64 := ⟨0⟩

def uninitialized : Eui64 := ⟨0xFFFFFFFFFFFFFFFF⟩

instance : Inhabited Eui64 := ⟨null⟩

def isValid (id : Eui64) : Bool := id != null && id != uninitialized

def display (id : Eui64) : String :=
  "0x" ++ String.ofList ((Text.padded 16 (Text.hex id.value.toNat)).map Char.toUpper)

instance : OrderedKey Eui64 where
  rank id := id.value.toNat
  rank_injective a b h := by
    cases a; cases b
    simpa [UInt64.toNat_inj] using h

instance : Json.Encode Eui64 := ⟨fun id => Json.encode id.value⟩

instance : Json.Decode Eui64 := ⟨fun j => (Json.decode? j).map Eui64.mk, none⟩

end Eui64

end AvbEntity
