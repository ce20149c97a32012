import AvbEntity.Descriptor.Type
import AvbEntity.Query.Kind

namespace AvbEntity

structure DescriptorKey where
  packed : UInt32
deriving DecidableEq

namespace DescriptorKey

def of (type : DescriptorType) (index : UInt16) : DescriptorKey :=
  ⟨(type.code.toUInt32 <<< 16) ||| index.toUInt32⟩

def type? (k : DescriptorKey) : Option DescriptorType :=
  DescriptorType.ofCode? (k.packed >>> 16).toUInt16

def index (k : DescriptorKey) : UInt16 := k.packed.toUInt16

def display (k : DescriptorKey) : String :=
  match k.type? with
  | some t => t.name ++ "." ++ toString k.index.toNat
  | none => "0x" ++
    String.ofList ((Text.padded 8 (Text.hex k.packed.toNat)).map Char.toUpper)

end DescriptorKey

structure DynamicQueryKey where
  packed : UInt64
deriving DecidableEq

namespace DynamicQueryKey

def of (query : DynamicQuery) (index sub : UInt16) : DynamicQueryKey :=
  ⟨(query.code.toUInt64 <<< 32) ||| (index.toUInt64 <<< 16) ||| sub.toUInt64⟩

def index (k : DynamicQueryKey) : UInt16 := (k.packed >>> 16).toUInt16

def sub (k : DynamicQueryKey) : UInt16 := k.packed.toUInt16

end DynamicQueryKey

structure DescriptorQueryKey where
  packed : UInt64
deriving DecidableEq

namespace DescriptorQueryKey

def of (query : DescriptorQuery) (index : UInt16) : DescriptorQueryKey :=
  ⟨(query.code.toUInt64 <<< 16) ||| index.toUInt64⟩

def index (k : DescriptorQueryKey) : UInt16 := k.packed.toUInt16

end DescriptorQueryKey

end AvbEntity
