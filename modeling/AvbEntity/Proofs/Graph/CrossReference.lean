import AvbEntity.Graph.Visit
import AvbEntity.Proofs.Redundancy.Grouping

namespace AvbEntity

def AudioUnitStatic.portBase (unit : AudioUnitStatic) : Direction → UInt16
  | .input => unit.inputPortBase
  | .output => unit.outputPortBase

def AudioUnitStatic.portCount (unit : AudioUnitStatic) : Direction → UInt16
  | .input => unit.inputPortCount
  | .output => unit.outputPortCount

namespace ConfigurationModel

def ports (m : ConfigurationModel) :
    Direction → SortedMap UInt16 (DescriptorModel StreamPortStatic StreamPortDynamic)
  | .input => m.streamPortInputs
  | .output => m.streamPortOutputs

def streamStatics (m : ConfigurationModel) : Direction → Redundancy.Streams
  | .input => m.streamInputs.mapEntries fun _ stream => stream.static
  | .output => m.streamOutputs.mapEntries fun _ stream => stream.static

end ConfigurationModel

namespace Graph

def AudioUnit.ports (unit : AudioUnit) : Direction → SortedMap UInt16 StreamPort
  | .input => unit.inputPorts
  | .output => unit.outputPorts

def Configuration.streams (c : Configuration) : Direction → SortedMap UInt16 Stream
  | .input => c.streamInputs
  | .output => c.streamOutputs

def Configuration.redundancy (c : Configuration) : Direction → Redundancy
  | .input => c.redundantInputs
  | .output => c.redundantOutputs

def Counted (base count index : UInt16) : Prop :=
  base.toNat ≤ index.toNat ∧ index.toNat < base.toNat + count.toNat

variable (m : ConfigurationModel)

structure StreamPort.Resolves (node : StreamPort) (port : StreamPortStatic) : Prop where
  clusters : ∀ i, i ∈ node.audioClusters ↔
    m.audioClusters.contains i = true ∧ Counted port.clusterBase port.clusterCount i
  maps : ∀ i, i ∈ node.audioMaps ↔
    m.audioMaps.contains i = true ∧ Counted port.mapBase port.mapCount i

structure AudioUnit.Resolves (node : AudioUnit) (unit : AudioUnitStatic) : Prop where
  ports : ∀ d i, (node.ports d).contains i = true ↔
    (m.ports d).contains i = true ∧ Counted (unit.portBase d) (unit.portCount d) i
  port : ∀ d i child, (node.ports d).get? i = some child → child.index = i ∧
    ∃ port, (m.ports d).get? i = some port ∧ child.Resolves m port.static

/-- Whether the node of a configuration has just the descriptors of the configuration, each under its own
index and with those that it declares and that exist. -/
structure Configuration.Resolves (node : Configuration) : Prop where
  audioUnits : node.audioUnits.keys = m.audioUnits.keys
  audioUnit : ∀ i child, node.audioUnits.get? i = some child → child.index = i ∧
    ∃ unit, m.audioUnits.get? i = some unit ∧ child.Resolves m unit.static
  streams : ∀ d, (node.streams d).keys = (m.streamStatics d).keys
  stream : ∀ d i child, (node.streams d).get? i = some child → child.index = i ∧
    (child.isRedundant = true ↔
      ∃ k group, (node.redundancy d).groups.get? k = some group ∧ i ∈ group.members)
  redundancy : ∀ d, node.redundancy d = Redundancy.classify (m.streamStatics d)
  avbInterfaces : node.avbInterfaces.toList = m.avbInterfaces.keys
  clockSources : node.clockSources.toList = m.clockSources.keys
  memoryObjects : node.memoryObjects.toList = m.memoryObjects.keys
  locales : node.locales.keys = m.locales.keys
  locale : ∀ i child, node.locales.get? i = some child → child.index = i ∧
    ∃ locale, m.locales.get? i = some locale ∧ ∀ k, k ∈ child.strings ↔
      m.strings.contains k = true ∧ Counted locale.static.stringsBase locale.static.stringsCount k
  controls : node.controls.toList = m.controls.keys
  clockDomains : node.clockDomains.keys = m.clockDomains.keys
  clockDomain : ∀ i child, node.clockDomains.get? i = some child → child.index = i ∧
    ∃ domain, m.clockDomains.get? i = some domain ∧
      child.clockSources = domain.static.clockSources.filter m.clockSources.contains

structure Resolves (g : Graph) (t : EntityModel) (id : Eui64) : Prop where
  entityId : g.entityId = id
  configurations : g.configurations.keys = t.configurations.keys
  configuration : ∀ i node, g.configurations.get? i = some node → node.index = i ∧
    ∃ m, t.configurations.get? i = some m ∧ node.Resolves m

/-- Nodes that stand under the same indices, each as the model of its index calls for, are the same
nodes. -/
theorem nodes_unique {α β : Type} {models : SortedMap UInt16 α} {left right : SortedMap UInt16 β}
    (index : β → UInt16) {Fits : β → α → Prop}
    (same : ∀ i, left.contains i = true ↔ right.contains i = true)
    (fitsLeft : ∀ i node, left.get? i = some node → index node = i ∧
      ∃ model, models.get? i = some model ∧ Fits node model)
    (fitsRight : ∀ i node, right.get? i = some node → index node = i ∧
      ∃ model, models.get? i = some model ∧ Fits node model)
    (unique : ∀ {a b model}, Fits a model → Fits b model → index a = index b → a = b) :
    left = right := by
  refine SortedMap.eq_of_contains same fun i a b atLeft atRight => ?_
  obtain ⟨indexA, model, found, fitsA⟩ := fitsLeft i a atLeft
  obtain ⟨indexB, other, foundToo, fitsB⟩ := fitsRight i b atRight
  rw [found] at foundToo
  cases foundToo
  exact unique fitsA fitsB (indexA.trans indexB.symm)

theorem StreamPort.Resolves.unique {m : ConfigurationModel} {a b : StreamPort} {port : StreamPortStatic}
    (left : a.Resolves m port) (right : b.Resolves m port) (index : a.index = b.index) : a = b := by
  have clusters : a.audioClusters = b.audioClusters :=
    SortedSet.ext_mem fun i => (left.clusters i).trans (right.clusters i).symm
  have maps : a.audioMaps = b.audioMaps :=
    SortedSet.ext_mem fun i => (left.maps i).trans (right.maps i).symm
  cases a; cases b
  simp_all only

theorem AudioUnit.Resolves.unique {m : ConfigurationModel} {a b : AudioUnit} {unit : AudioUnitStatic}
    (left : a.Resolves m unit) (right : b.Resolves m unit) (index : a.index = b.index) : a = b := by
  have ports : ∀ d, a.ports d = b.ports d := fun d =>
    nodes_unique StreamPort.index (fun i => (left.ports d i).trans (right.ports d i).symm) (left.port d)
      (right.port d) StreamPort.Resolves.unique
  have inputs := ports .input
  have outputs := ports .output
  cases a; cases b
  simp_all only [AudioUnit.ports]

theorem Configuration.Resolves.unique {m : ConfigurationModel} {a b : Configuration}
    (left : a.Resolves m) (right : b.Resolves m) (index : a.index = b.index) : a = b := by
  have audioUnits : a.audioUnits = b.audioUnits :=
    nodes_unique AudioUnit.index
      (SortedMap.contains_iff_of_keys (left.audioUnits.trans right.audioUnits.symm))
      left.audioUnit right.audioUnit AudioUnit.Resolves.unique
  have redundancy : ∀ d, a.redundancy d = b.redundancy d := fun d =>
    (left.redundancy d).trans (right.redundancy d).symm
  have streams : ∀ d, a.streams d = b.streams d := by
    intro d
    refine SortedMap.eq_of_contains
      (SortedMap.contains_iff_of_keys ((left.streams d).trans (right.streams d).symm))
      fun i x y atLeft atRight => ?_
    obtain ⟨indexX, redundantX⟩ := left.stream d i x atLeft
    obtain ⟨indexY, redundantY⟩ := right.stream d i y atRight
    rw [← redundancy d] at redundantY
    have marks : x.isRedundant = y.isRedundant :=
      Bool.eq_iff_iff.mpr (redundantX.trans redundantY.symm)
    cases x; cases y
    simp_all only
  have locales : a.locales = b.locales := by
    refine nodes_unique Locale.index
      (SortedMap.contains_iff_of_keys (left.locales.trans right.locales.symm))
      left.locale right.locale fun {x y _} atX atY same => ?_
    have strings : x.strings = y.strings := SortedSet.ext_mem fun k => (atX k).trans (atY k).symm
    cases x; cases y
    simp_all only
  have clockDomains : a.clockDomains = b.clockDomains := by
    refine nodes_unique ClockDomain.index
      (SortedMap.contains_iff_of_keys (left.clockDomains.trans right.clockDomains.symm))
      left.clockDomain right.clockDomain fun {x y _} atX atY same => ?_
    have sources : x.clockSources = y.clockSources := atX.trans atY.symm
    cases x; cases y
    simp_all only
  have avbInterfaces := SortedSet.ext (left.avbInterfaces.trans right.avbInterfaces.symm)
  have clockSources := SortedSet.ext (left.clockSources.trans right.clockSources.symm)
  have memoryObjects := SortedSet.ext (left.memoryObjects.trans right.memoryObjects.symm)
  have controls := SortedSet.ext (left.controls.trans right.controls.symm)
  have inputs := streams .input
  have outputs := streams .output
  have redundantInputs := redundancy .input
  have redundantOutputs := redundancy .output
  cases a; cases b
  simp_all only [Configuration.streams, Configuration.redundancy]

theorem Resolves.unique {t : EntityModel} {id : Eui64} {a b : Graph} (left : a.Resolves t id)
    (right : b.Resolves t id) : a = b := by
  have configurations : a.configurations = b.configurations :=
    nodes_unique Configuration.index
      (SortedMap.contains_iff_of_keys (left.configurations.trans right.configurations.symm))
      left.configuration right.configuration Configuration.Resolves.unique
  have entityId : a.entityId = b.entityId := left.entityId.trans right.entityId.symm
  cases a; cases b
  simp_all only

end Graph

theorem Graph.nodes_mapEntries {α β : Type} {models : SortedMap UInt16 α} {make : UInt16 → α → β}
    {index : β → UInt16} {Fits : β → α → Prop} (named : ∀ i model, index (make i model) = i)
    (fits : ∀ i model, Fits (make i model) model) (i : UInt16) (node : β)
    (found : (models.mapEntries make).get? i = some node) :
    index node = i ∧ ∃ model, models.get? i = some model ∧ Fits node model := by
  rw [SortedMap.get?_mapEntries, Option.map_eq_some_iff] at found
  obtain ⟨model, known, rfl⟩ := found
  exact ⟨named i model, model, known, fits i model⟩

namespace ConfigurationModel

open AvbEntity.Graph (Counted nodes_mapEntries)

variable (m : ConfigurationModel)

theorem resolves_portNodes (d : Direction) (base count : UInt16) :
    (∀ i, (m.portNodes (m.ports d) base count).contains i = true ↔
      (m.ports d).contains i = true ∧ Counted base count i) ∧
    ∀ i child, (m.portNodes (m.ports d) base count).get? i = some child → child.index = i ∧
      ∃ port, (m.ports d).get? i = some port ∧ child.Resolves m port.static := by
  have found : ∀ i child, (m.portNodes (m.ports d) base count).get? i = some child ↔
      ∃ port, ((m.ports d).get? i = some port ∧ Counted base count i) ∧ child = {
        index := i
        audioClusters := boundFrom m.audioClusters port.static.clusterBase port.static.clusterCount
        audioMaps := boundFrom m.audioMaps port.static.mapBase port.static.mapCount } := by
    intro i child
    simp only [portNodes, SortedMap.get?_mapEntries, Option.map_eq_some_iff,
      SortedMap.get?_restrict_eq_some_iff, mem_indicesFrom, Counted, eq_comm (a := child)]
  constructor
  · intro i
    simp only [SortedMap.contains, Option.isSome_iff_exists, found]
    constructor
    · rintro ⟨_, port, ⟨known, counted⟩, -⟩
      exact ⟨⟨port, known⟩, counted⟩
    · rintro ⟨⟨port, known⟩, counted⟩
      exact ⟨_, port, ⟨known, counted⟩, rfl⟩
  · intro i child bound
    obtain ⟨port, ⟨known, -⟩, rfl⟩ := (found i child).mp bound
    exact ⟨rfl, port, known, fun _ => mem_boundFrom, fun _ => mem_boundFrom⟩

theorem resolves_audioUnit (index : UInt16) (unit : AudioUnitStatic) :
    Graph.AudioUnit.Resolves m {
      index
      inputPorts := m.portNodes m.streamPortInputs unit.inputPortBase unit.inputPortCount
      outputPorts := m.portNodes m.streamPortOutputs unit.outputPortBase unit.outputPortCount } unit where
  ports d := by
    cases d with
    | input => exact (m.resolves_portNodes .input _ _).1
    | output => exact (m.resolves_portNodes .output _ _).1
  port d := by
    cases d with
    | input => exact (m.resolves_portNodes .input _ _).2
    | output => exact (m.resolves_portNodes .output _ _).2

theorem marks_streams {α : Type} {models : SortedMap UInt16 α} {streams : Redundancy.Streams} {i : UInt16}
    {node : Graph.Stream}
    (found : (models.mapEntries fun i _ =>
      (⟨i, (Redundancy.classify streams).isRedundant i⟩ : Graph.Stream)).get? i = some node) :
    node.index = i ∧ (node.isRedundant = true ↔
      ∃ k group, (Redundancy.classify streams).groups.get? k = some group ∧ i ∈ group.members) := by
  rw [SortedMap.get?_mapEntries, Option.map_eq_some_iff] at found
  obtain ⟨_, -, rfl⟩ := found
  refine ⟨rfl, ?_⟩
  rw [(Redundancy.wellFormed_classify streams).isRedundant_iff, Redundancy.isGrouped_iff]

theorem resolves_toNode (index : UInt16) : (m.toNode index).Resolves m where
  audioUnits := SortedMap.keys_mapEntries ..
  audioUnit := nodes_mapEntries (fun _ _ => rfl) fun i unit => m.resolves_audioUnit i unit.static
  streams d := by cases d <;> exact (SortedMap.keys_mapEntries ..).trans (SortedMap.keys_mapEntries ..).symm
  stream d i child found := by
    cases d with
    | input => exact marks_streams found
    | output => exact marks_streams found
  redundancy d := by cases d <;> rfl
  avbInterfaces := rfl
  clockSources := rfl
  memoryObjects := rfl
  locales := SortedMap.keys_mapEntries ..
  locale := nodes_mapEntries (fun _ _ => rfl) fun _ _ _ => mem_boundFrom
  controls := rfl
  clockDomains := SortedMap.keys_mapEntries ..
  clockDomain := nodes_mapEntries (fun _ _ => rfl) fun _ _ => rfl

end ConfigurationModel

namespace EntityModel

theorem resolves_toGraph (t : EntityModel) (id : Eui64) : (t.toGraph id).Resolves t id where
  entityId := rfl
  configurations := SortedMap.keys_mapEntries ..
  configuration := Graph.nodes_mapEntries (fun _ _ => rfl) fun i m => m.resolves_toNode i

/-- The graph of a model names what it has to, and no other graph does. -/
theorem eq_toGraph_iff (t : EntityModel) (id : Eui64) (g : Graph) : g = t.toGraph id ↔ g.Resolves t id := by
  constructor
  · rintro rfl
    exact t.resolves_toGraph id
  · intro resolves
    exact resolves.unique (t.resolves_toGraph id)

end EntityModel

end AvbEntity
