import AvbEntity.Descriptor.Models

namespace AvbEntity

structure DescriptorModel (σ δ : Type) where
  static : σ
  dynamic : δ
deriving DecidableEq

namespace DescriptorModel

variable {σ δ : Type}

instance [Inhabited σ] [Inhabited δ] : Inhabited (DescriptorModel σ δ) := ⟨default, default⟩

instance [Json.Encode σ] [Json.Decode σ] [Json.Encode δ] [Json.Decode δ] :
    Json.Record (DescriptorModel σ δ) (σ × δ × Unit) where
  names := ["static_model", "dynamic_model"]
  split m := (m.static, m.dynamic, ())
  join := fun (s, d, ()) => ⟨s, d⟩
  join_split _ := rfl

end DescriptorModel

inductive Category where
  | audioUnit
  | streamInput
  | streamOutput
  | avbInterface
  | clockSource
  | memoryObject
  | locale
  | strings
  | streamPortInput
  | streamPortOutput
  | audioCluster
  | audioMap
  | control
  | clockDomain
deriving DecidableEq

namespace Category

def all : List Category :=
  [audioUnit, streamInput, streamOutput, avbInterface, clockSource, memoryObject, locale, strings,
    streamPortInput, streamPortOutput, audioCluster, audioMap, control, clockDomain]

theorem mem_all (c : Category) : c ∈ all := by
  cases c <;> decide

def descriptorType : Category → DescriptorType
  | audioUnit => .audioUnit
  | streamInput => .streamInput
  | streamOutput => .streamOutput
  | avbInterface => .avbInterface
  | clockSource => .clockSource
  | memoryObject => .memoryObject
  | locale => .locale
  | strings => .strings
  | streamPortInput => .streamPortInput
  | streamPortOutput => .streamPortOutput
  | audioCluster => .audioCluster
  | audioMap => .audioMap
  | control => .control
  | clockDomain => .clockDomain

def ofType? (t : DescriptorType) : Option Category := all.find? fun c => c.descriptorType == t

abbrev Static : Category → Type
  | audioUnit => AudioUnitStatic
  | streamInput => StreamStatic
  | streamOutput => StreamStatic
  | avbInterface => AvbInterfaceStatic
  | clockSource => ClockSourceStatic
  | memoryObject => MemoryObjectStatic
  | locale => LocaleStatic
  | strings => StringsStatic
  | streamPortInput => StreamPortStatic
  | streamPortOutput => StreamPortStatic
  | audioCluster => AudioClusterStatic
  | audioMap => AudioMapStatic
  | control => ControlStatic
  | clockDomain => ClockDomainStatic

abbrev Dynamic : Category → Type
  | audioUnit => AudioUnitDynamic
  | streamInput => StreamInputDynamic
  | streamOutput => StreamOutputDynamic
  | avbInterface => AvbInterfaceDynamic
  | clockSource => ClockSourceDynamic
  | memoryObject => MemoryObjectDynamic
  | locale => Unit
  | strings => Unit
  | streamPortInput => StreamPortDynamic
  | streamPortOutput => StreamPortDynamic
  | audioCluster => AudioClusterDynamic
  | audioMap => Unit
  | control => ControlDynamic
  | clockDomain => ClockDomainDynamic

abbrev Descriptor : Category → Type
  | audioUnit => AudioUnitDescriptor
  | streamInput => StreamDescriptor
  | streamOutput => StreamDescriptor
  | avbInterface => AvbInterfaceDescriptor
  | clockSource => ClockSourceDescriptor
  | memoryObject => MemoryObjectDescriptor
  | locale => LocaleStatic
  | strings => StringsStatic
  | streamPortInput => StreamPortStatic
  | streamPortOutput => StreamPortStatic
  | audioCluster => AudioClusterDescriptor
  | audioMap => AudioMapStatic
  | control => ControlDescriptor
  | clockDomain => ClockDomainDescriptor

instance (c : Category) : DecidableEq c.Static := by cases c <;> exact inferInstance

instance (c : Category) : Inhabited c.Static := by cases c <;> exact inferInstance

instance (c : Category) : Json.Encode c.Static := by cases c <;> exact inferInstance

instance (c : Category) : Json.Decode c.Static := by cases c <;> exact inferInstance

instance (c : Category) : DecidableEq c.Dynamic := by cases c <;> exact inferInstance

instance (c : Category) : Inhabited c.Dynamic := by cases c <;> exact inferInstance

instance (c : Category) : Json.Encode c.Dynamic := by cases c <;> exact inferInstance

instance (c : Category) : Json.Decode c.Dynamic := by cases c <;> exact inferInstance

instance (c : Category) : DecidableEq c.Descriptor := by cases c <;> exact inferInstance

instance (c : Category) : Inhabited c.Descriptor := by cases c <;> exact inferInstance

instance (c : Category) : Json.Encode c.Descriptor := by cases c <;> exact inferInstance

instance (c : Category) : Json.Decode c.Descriptor := by cases c <;> exact inferInstance

abbrev Model (c : Category) : Type := DescriptorModel c.Static c.Dynamic

abbrev ModelMap (c : Category) : Type := SortedMap UInt16 c.Model

/-- The static half that a descriptor carries. A stream port has a dynamic map exactly if it
declares no AUDIO_MAP descriptor. -/
def staticOf : (c : Category) → c.Descriptor → c.Static
  | audioUnit, d => d.static
  | streamInput, d => d.static
  | streamOutput, d => d.static
  | avbInterface, d => d.static
  | clockSource, d => d.static
  | memoryObject, d => d.static
  | locale, d => d
  | strings, d => d
  | streamPortInput, d => { d with hasDynamicMap := d.mapCount == 0 }
  | streamPortOutput, d => { d with hasDynamicMap := d.mapCount == 0 }
  | audioCluster, d => d.static
  | audioMap, d => d
  | control, d => d.static
  | clockDomain, d => d.static

def refresh : (c : Category) → c.Descriptor → c.Dynamic → c.Dynamic
  | audioUnit, d, m => { m with objectName := d.objectName, samplingRate := d.samplingRate }
  | streamInput, d, m => { m with objectName := d.objectName, format := d.format }
  | streamOutput, d, m => { m with objectName := d.objectName, format := d.format }
  | avbInterface, d, m => { m with objectName := d.objectName }
  | clockSource, d, m =>
    { m with objectName := d.objectName, flags := d.flags, identifier := d.identifier }
  | memoryObject, d, m => { m with objectName := d.objectName, length := d.length }
  | locale, _, m => m
  | strings, _, m => m
  | streamPortInput, _, m => m
  | streamPortOutput, _, m => m
  | audioCluster, d, m => { m with objectName := d.objectName }
  | audioMap, _, m => m
  | control, d, m => { m with objectName := d.objectName, values := d.currentValues }
  | clockDomain, d, m => { m with objectName := d.objectName, clockSource := d.clockSource }

def learn (c : Category) (d : c.Descriptor) (m : c.Model) : c.Model :=
  ⟨c.staticOf d, c.refresh d m.dynamic⟩

def objectName? : (c : Category) → c.Dynamic → Option String
  | audioUnit, m => some m.objectName
  | streamInput, m => some m.objectName
  | streamOutput, m => some m.objectName
  | avbInterface, m => some m.objectName
  | clockSource, m => some m.objectName
  | memoryObject, m => some m.objectName
  | locale, _ => none
  | strings, _ => none
  | streamPortInput, _ => none
  | streamPortOutput, _ => none
  | audioCluster, m => some m.objectName
  | audioMap, _ => none
  | control, m => some m.objectName
  | clockDomain, m => some m.objectName

def isNamed : Category → Bool
  | locale | strings | streamPortInput | streamPortOutput | audioMap => false
  | _ => true

def rename : (c : Category) → String → c.Dynamic → c.Dynamic
  | audioUnit, name, m => { m with objectName := name }
  | streamInput, name, m => { m with objectName := name }
  | streamOutput, name, m => { m with objectName := name }
  | avbInterface, name, m => { m with objectName := name }
  | clockSource, name, m => { m with objectName := name }
  | memoryObject, name, m => { m with objectName := name }
  | locale, _, m => m
  | strings, _, m => m
  | streamPortInput, _, m => m
  | streamPortOutput, _, m => m
  | audioCluster, name, m => { m with objectName := name }
  | audioMap, _, m => m
  | control, name, m => { m with objectName := name }
  | clockDomain, name, m => { m with objectName := name }

end Category

end AvbEntity
