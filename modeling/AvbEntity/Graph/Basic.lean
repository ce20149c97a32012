import AvbEntity.Graph.Redundancy
import AvbEntity.Model.Basic

namespace AvbEntity

structure Graph.Stream where
  index : UInt16
  isRedundant : Bool
deriving DecidableEq

structure Graph.StreamPort where
  index : UInt16
  audioClusters : SortedSet UInt16
  audioMaps : SortedSet UInt16
deriving DecidableEq

structure Graph.AudioUnit where
  index : UInt16
  inputPorts : SortedMap UInt16 Graph.StreamPort
  outputPorts : SortedMap UInt16 Graph.StreamPort
deriving DecidableEq

structure Graph.Locale where
  index : UInt16
  strings : SortedSet UInt16
deriving DecidableEq

structure Graph.ClockDomain where
  index : UInt16
  clockSources : List UInt16
deriving DecidableEq

structure Graph.Configuration where
  index : UInt16
  audioUnits : SortedMap UInt16 Graph.AudioUnit
  streamInputs : SortedMap UInt16 Graph.Stream
  streamOutputs : SortedMap UInt16 Graph.Stream
  avbInterfaces : SortedSet UInt16
  clockSources : SortedSet UInt16
  memoryObjects : SortedSet UInt16
  locales : SortedMap UInt16 Graph.Locale
  controls : SortedSet UInt16
  clockDomains : SortedMap UInt16 Graph.ClockDomain
  redundantInputs : Redundancy
  redundantOutputs : Redundancy
deriving DecidableEq

structure Graph where
  entityId : Eui64
  configurations : SortedMap UInt16 Graph.Configuration
deriving DecidableEq

instance : Json.Encode Graph.Stream where
  encode n := .ofMembers [("descriptor_index", Json.encode n.index),
    ("is_redundant", Json.encode n.isRedundant)]

instance : Json.Encode Graph.StreamPort where
  encode n := .ofMembers [("descriptor_index", Json.encode n.index),
    ("audio_clusters", Json.encode n.audioClusters), ("audio_maps", Json.encode n.audioMaps)]

instance : Json.Encode Graph.AudioUnit where
  encode n := .ofMembers [("descriptor_index", Json.encode n.index),
    ("stream_port_inputs", Json.encode n.inputPorts),
    ("stream_port_outputs", Json.encode n.outputPorts)]

instance : Json.Encode Graph.Locale where
  encode n := .ofMembers [("descriptor_index", Json.encode n.index),
    ("strings", Json.encode n.strings)]

instance : Json.Encode Graph.ClockDomain where
  encode n := .ofMembers [("descriptor_index", Json.encode n.index),
    ("clock_sources", Json.encode n.clockSources)]

instance : Json.Encode Graph.Configuration where
  encode n := .ofMembers [("descriptor_index", Json.encode n.index),
    ("audio_units", Json.encode n.audioUnits), ("stream_inputs", Json.encode n.streamInputs),
    ("stream_outputs", Json.encode n.streamOutputs),
    ("avb_interfaces", Json.encode n.avbInterfaces),
    ("clock_sources", Json.encode n.clockSources),
    ("memory_objects", Json.encode n.memoryObjects), ("locales", Json.encode n.locales),
    ("controls", Json.encode n.controls), ("clock_domains", Json.encode n.clockDomains),
    ("redundant_stream_inputs", Json.encode n.redundantInputs),
    ("redundant_stream_outputs", Json.encode n.redundantOutputs)]

instance : Json.Encode Graph where
  encode g := .ofMembers [("entity_id", Json.encode g.entityId),
    ("configurations", Json.encode g.configurations)]

/-- As many indices as are counted, from a base on. The count ends at the greatest index. -/
def indicesFrom (base : UInt16) : Nat → List UInt16
  | 0 => []
  | count + 1 => base :: if base = 0xFFFF then [] else indicesFrom (base + 1) count

theorem mem_indicesFrom {base index : UInt16} {count : Nat} :
    index ∈ indicesFrom base count ↔
      base.toNat ≤ index.toNat ∧ index.toNat < base.toNat + count := by
  have bounded : index.toNat < 65536 := index.toNat_lt_size
  induction count generalizing base with
  | zero =>
    simp only [indicesFrom, List.not_mem_nil, false_iff]
    omega
  | succ count ih =>
    have equal : index = base ↔ index.toNat = base.toNat := UInt16.toNat_inj.symm
    have last : base = 0xFFFF ↔ base.toNat = 65535 := UInt16.toNat_inj.symm
    rw [indicesFrom, List.mem_cons, equal]
    split
    next ends =>
      have atEnd := last.mp ends
      simp only [List.not_mem_nil, or_false]
      omega
    next goesOn =>
      have below : base.toNat ≠ 65535 := fun ends => goesOn (last.mpr ends)
      have room : base.toNat < 65536 := base.toNat_lt_size
      have next : (base + 1).toNat = base.toNat + 1 := by
        rw [UInt16.toNat_add]
        exact Nat.mod_eq_of_lt (by simp only [UInt16.toNat_one]; omega)
      simp only [ih, next]
      omega

example : indicesFrom 65534 5 = [65534, 65535] := by decide

def boundFrom {α : Type} (m : SortedMap UInt16 α) (base count : UInt16) : SortedSet UInt16 :=
  .ofList ((indicesFrom base count.toNat).filter m.contains)

theorem mem_boundFrom {α : Type} {m : SortedMap UInt16 α} {base count index : UInt16} :
    index ∈ boundFrom m base count ↔ m.contains index = true ∧
      base.toNat ≤ index.toNat ∧ index.toNat < base.toNat + count.toNat := by
  rw [boundFrom, SortedSet.mem_ofList, List.mem_filter, mem_indicesFrom, and_comm]

namespace ConfigurationModel

def portNodes (t : ConfigurationModel)
    (ports : SortedMap UInt16 (DescriptorModel StreamPortStatic StreamPortDynamic))
    (base count : UInt16) : SortedMap UInt16 Graph.StreamPort :=
  (ports.restrict (indicesFrom base count.toNat)).mapEntries fun index port => {
    index
    audioClusters := boundFrom t.audioClusters port.static.clusterBase port.static.clusterCount
    audioMaps := boundFrom t.audioMaps port.static.mapBase port.static.mapCount }

def audioUnitNodes (t : ConfigurationModel) : SortedMap UInt16 Graph.AudioUnit :=
  t.audioUnits.mapEntries fun index unit => {
    index
    inputPorts := t.portNodes t.streamPortInputs unit.static.inputPortBase
      unit.static.inputPortCount
    outputPorts := t.portNodes t.streamPortOutputs unit.static.outputPortBase
      unit.static.outputPortCount }

def localeNodes (t : ConfigurationModel) : SortedMap UInt16 Graph.Locale :=
  t.locales.mapEntries fun index locale => {
    index
    strings := boundFrom t.strings locale.static.stringsBase locale.static.stringsCount }

def clockDomainNodes (t : ConfigurationModel) : SortedMap UInt16 Graph.ClockDomain :=
  t.clockDomains.mapEntries fun index domain => {
    index
    clockSources := domain.static.clockSources.filter t.clockSources.contains }

def inputRedundancy (t : ConfigurationModel) : Redundancy :=
  Redundancy.classify (t.streamInputs.mapEntries fun _ m => m.static)

def outputRedundancy (t : ConfigurationModel) : Redundancy :=
  Redundancy.classify (t.streamOutputs.mapEntries fun _ m => m.static)

def toNode (t : ConfigurationModel) (index : UInt16) : Graph.Configuration :=
  let inputs := t.inputRedundancy
  let outputs := t.outputRedundancy
  { index
    audioUnits := t.audioUnitNodes
    streamInputs := t.streamInputs.mapEntries fun i _ => ⟨i, inputs.isRedundant i⟩
    streamOutputs := t.streamOutputs.mapEntries fun i _ => ⟨i, outputs.isRedundant i⟩
    avbInterfaces := .ofKeys t.avbInterfaces
    clockSources := .ofKeys t.clockSources
    memoryObjects := .ofKeys t.memoryObjects
    locales := t.localeNodes
    controls := .ofKeys t.controls
    clockDomains := t.clockDomainNodes
    redundantInputs := inputs
    redundantOutputs := outputs }

end ConfigurationModel

def EntityModel.toGraph (t : EntityModel) (entityId : Eui64) : Graph where
  entityId
  configurations := t.configurations.mapEntries fun index c => c.toNode index

end AvbEntity
