import AvbEntity.Json.Form

namespace AvbEntity

inductive DescriptorType where
  | entity
  | configuration
  | audioUnit
  | streamInput
  | streamOutput
  | avbInterface
  | clockSource
  | memoryObject
  | locale
  | strings
  | streamPortInput
  | streamPortOutput
  | audioCluster
  | audioMap
  | control
  | clockDomain
  | invalid
deriving DecidableEq

namespace DescriptorType

instance : Inhabited DescriptorType := ⟨invalid⟩

def all : List DescriptorType :=
  [entity, configuration, audioUnit, streamInput, streamOutput, avbInterface, clockSource,
    memoryObject, locale, strings, streamPortInput, streamPortOutput, audioCluster, audioMap,
    control, clockDomain, invalid]

def code : DescriptorType → UInt16
  | entity => 0x0000
  | configuration => 0x0001
  | audioUnit => 0x0002
  | streamInput => 0x0005
  | streamOutput => 0x0006
  | avbInterface => 0x0009
  | clockSource => 0x000a
  | memoryObject => 0x000b
  | locale => 0x000c
  | strings => 0x000d
  | streamPortInput => 0x000e
  | streamPortOutput => 0x000f
  | audioCluster => 0x0014
  | audioMap => 0x0017
  | control => 0x001a
  | clockDomain => 0x0024
  | invalid => 0xffff

def ofCode? (code : UInt16) : Option DescriptorType := all.find? fun t => t.code == code

def name : DescriptorType → String
  | entity => "ENTITY"
  | configuration => "CONFIGURATION"
  | audioUnit => "AUDIO_UNIT"
  | streamInput => "STREAM_INPUT"
  | streamOutput => "STREAM_OUTPUT"
  | avbInterface => "AVB_INTERFACE"
  | clockSource => "CLOCK_SOURCE"
  | memoryObject => "MEMORY_OBJECT"
  | locale => "LOCALE"
  | strings => "STRINGS"
  | streamPortInput => "STREAM_PORT_INPUT"
  | streamPortOutput => "STREAM_PORT_OUTPUT"
  | audioCluster => "AUDIO_CLUSTER"
  | audioMap => "AUDIO_MAP"
  | control => "CONTROL"
  | clockDomain => "CLOCK_DOMAIN"
  | invalid => "INVALID"

@[simp] theorem ofCode?_code (t : DescriptorType) : ofCode? t.code = some t := by
  cases t <;> rfl

theorem code_injective {s t : DescriptorType} (h : s.code = t.code) : s = t :=
  Option.some.inj (by rw [← ofCode?_code s, h, ofCode?_code])

instance : OrderedKey DescriptorType where
  rank t := t.code.toNat
  rank_injective _ _ h := code_injective (UInt16.toNat_inj.mp h)

instance : Json.Named DescriptorType := ⟨all, name⟩

instance : Json.KeyForm DescriptorType where
  write t := Json.escape t.name.toList
  read? := Json.ofName? all name

end DescriptorType

end AvbEntity
