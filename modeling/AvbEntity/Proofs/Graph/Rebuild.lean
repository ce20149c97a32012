import AvbEntity.Proofs.Graph.Grounding

namespace AvbEntity

namespace ConfigurationModel

def statics (m : ConfigurationModel) (c : Category) : SortedMap UInt16 c.Static :=
  (m.models c).mapEntries fun _ model => model.static

theorem get?_statics (m : ConfigurationModel) (c : Category) (index : UInt16) :
    (m.statics c).get? index = ((m.models c).get? index).map (·.static) :=
  SortedMap.get?_mapEntries ..

section SameStatics

variable {m n : ConfigurationModel}

theorem ofKeys_congr (same : m.statics = n.statics) (c : Category) :
    SortedSet.ofKeys (m.models c) = SortedSet.ofKeys (n.models c) := by
  have keys : (m.statics c).keys = (n.statics c).keys := by rw [same]
  unfold statics at keys
  rw [SortedMap.keys_mapEntries, SortedMap.keys_mapEntries] at keys
  exact SortedSet.ext keys

theorem contains_congr (same : m.statics = n.statics) (c : Category) :
    (m.models c).contains = (n.models c).contains := by
  funext index
  have found : (m.statics c).get? index = (n.statics c).get? index := by rw [same]
  rw [get?_statics, get?_statics] at found
  rw [SortedMap.contains, ← Option.isSome_map, found, Option.isSome_map, ← SortedMap.contains]

theorem mapEntries_congr (same : m.statics = n.statics) (c : Category) {β : Type}
    (f : UInt16 → c.Static → β) :
    ((m.models c).mapEntries fun i model => f i model.static) =
      (n.models c).mapEntries fun i model => f i model.static :=
  SortedMap.mapEntries_congr (congrFun same c) f

theorem boundFrom_congr (same : m.statics = n.statics) (c : Category) :
    boundFrom (m.models c) = boundFrom (n.models c) := by
  funext base count
  rw [boundFrom, contains_congr same c, ← boundFrom]

theorem portNodes_congr (same : m.statics = n.statics)
    {ports others : SortedMap UInt16 (DescriptorModel StreamPortStatic StreamPortDynamic)}
    (samePorts : (ports.mapEntries fun _ port => port.static) =
      others.mapEntries fun _ port => port.static) (base count : UInt16) :
    m.portNodes ports base count = n.portNodes others base count := by
  have clusters : boundFrom m.audioClusters = boundFrom n.audioClusters :=
    boundFrom_congr same .audioCluster
  have maps : boundFrom m.audioMaps = boundFrom n.audioMaps := boundFrom_congr same .audioMap
  have declared : (ports.mapEntries fun _ port => port.static).restrict (indicesFrom base count.toNat) =
      (others.mapEntries fun _ port => port.static).restrict (indicesFrom base count.toNat) := by
    rw [samePorts]
  rw [SortedMap.restrict_mapEntries, SortedMap.restrict_mapEntries] at declared
  rw [portNodes, clusters, maps]
  exact SortedMap.mapEntries_congr declared fun index port => ({
    index
    audioClusters := boundFrom n.audioClusters port.clusterBase port.clusterCount
    audioMaps := boundFrom n.audioMaps port.mapBase port.mapCount } : Graph.StreamPort)

theorem audioUnitNodes_congr (same : m.statics = n.statics) : m.audioUnitNodes = n.audioUnitNodes := by
  have inputs : m.portNodes m.streamPortInputs = n.portNodes n.streamPortInputs := by
    funext base count
    exact portNodes_congr same (congrFun same .streamPortInput) base count
  have outputs : m.portNodes m.streamPortOutputs = n.portNodes n.streamPortOutputs := by
    funext base count
    exact portNodes_congr same (congrFun same .streamPortOutput) base count
  rw [audioUnitNodes, inputs, outputs]
  exact mapEntries_congr same .audioUnit fun index unit => ({
    index
    inputPorts := n.portNodes n.streamPortInputs unit.inputPortBase unit.inputPortCount
    outputPorts := n.portNodes n.streamPortOutputs unit.outputPortBase unit.outputPortCount } :
      Graph.AudioUnit)

theorem localeNodes_congr (same : m.statics = n.statics) : m.localeNodes = n.localeNodes := by
  have strings : boundFrom m.strings = boundFrom n.strings := boundFrom_congr same .strings
  rw [localeNodes, strings]
  exact mapEntries_congr same .locale fun index locale => ({
    index
    strings := boundFrom n.strings locale.stringsBase locale.stringsCount } : Graph.Locale)

theorem clockDomainNodes_congr (same : m.statics = n.statics) :
    m.clockDomainNodes = n.clockDomainNodes := by
  have sources : m.clockSources.contains = n.clockSources.contains := contains_congr same .clockSource
  rw [clockDomainNodes, sources]
  exact mapEntries_congr same .clockDomain fun index domain => ({
    index
    clockSources := domain.clockSources.filter n.clockSources.contains } : Graph.ClockDomain)

/-- The graph of a configuration reads nothing but static halves. -/
theorem toNode_congr (same : m.statics = n.statics) (index : UInt16) : m.toNode index = n.toNode index := by
  have inputs : m.inputRedundancy = n.inputRedundancy :=
    congrArg Redundancy.classify (congrFun same .streamInput)
  have outputs : m.outputRedundancy = n.outputRedundancy :=
    congrArg Redundancy.classify (congrFun same .streamOutput)
  have streamInputs := mapEntries_congr same .streamInput fun i _ =>
    (⟨i, n.inputRedundancy.isRedundant i⟩ : Graph.Stream)
  have streamOutputs := mapEntries_congr same .streamOutput fun i _ =>
    (⟨i, n.outputRedundancy.isRedundant i⟩ : Graph.Stream)
  simp only [toNode, inputs, outputs, audioUnitNodes_congr same, localeNodes_congr same,
    clockDomainNodes_congr same, Graph.Configuration.mk.injEq, true_and, and_true]
  exact ⟨streamInputs, streamOutputs, ofKeys_congr same .avbInterface, ofKeys_congr same .clockSource,
    ofKeys_congr same .memoryObject, ofKeys_congr same .control⟩

end SameStatics

end ConfigurationModel

namespace EntityModel

structure SameShape (t u : EntityModel) : Prop where
  configurations : ∀ i, t.configurations.contains i = u.configurations.contains i
  descriptors : ∀ p, (t.find? p).map (·.static) = (u.find? p).map (·.static)

namespace SameShape

variable {t u v : EntityModel}

theorem refl (t : EntityModel) : SameShape t t := ⟨fun _ => rfl, fun _ => rfl⟩

theorem trans (first : SameShape t u) (second : SameShape u v) : SameShape t v where
  configurations i := (first.configurations i).trans (second.configurations i)
  descriptors p := (first.descriptors p).trans (second.descriptors p)

theorem statics_eq (same : SameShape t u) {i : UInt16} {m n : ConfigurationModel}
    (found : t.configurations.get? i = some m) (partner : u.configurations.get? i = some n) :
    m.statics = n.statics := by
  funext c
  apply SortedMap.ext_get?
  intro index
  have descriptor := same.descriptors ⟨c, i, index⟩
  simp only [find?, found, partner, Option.bind_some] at descriptor
  rw [ConfigurationModel.get?_statics, ConfigurationModel.get?_statics, descriptor]

theorem toGraph_eq (same : SameShape t u) (id : Eui64) : t.toGraph id = u.toGraph id := by
  have configurations : (t.configurations.mapEntries fun index m => m.toNode index) =
      u.configurations.mapEntries fun index m => m.toNode index := by
    apply SortedMap.ext_get?
    intro i
    rw [SortedMap.get?_mapEntries, SortedMap.get?_mapEntries]
    have contained := same.configurations i
    unfold SortedMap.contains at contained
    cases found : t.configurations.get? i with
    | none =>
      rw [found, Option.isSome_none, eq_comm, Option.isSome_eq_false_iff, Option.isNone_iff_eq_none]
        at contained
      rw [contained]
    | some m =>
      rw [found, Option.isSome_some, eq_comm, Option.isSome_iff_exists] at contained
      obtain ⟨n, partner⟩ := contained
      have node := ConfigurationModel.toNode_congr (same.statics_eq found partner) i
      rw [partner, Option.map_some, Option.map_some, node]
  rw [toGraph, toGraph, configurations]

end SameShape

theorem contains_modifyConfiguration_eq (t : EntityModel) {configuration : UInt16}
    (known : t.configurations.contains configuration = true)
    (f : ConfigurationModel → ConfigurationModel) (i : UInt16) :
    (t.modifyConfiguration configuration f).configurations.contains i =
      t.configurations.contains i := by
  rw [contains_modifyConfiguration, Bool.or_eq_left_iff_imp, beq_iff_eq]
  rintro rfl
  exact known

theorem contains_of_find? {t : EntityModel} {p : Place} (known : (t.find? p).isSome = true) :
    t.configurations.contains p.configuration = true := by
  obtain ⟨model, found⟩ := Option.isSome_iff_exists.mp known
  obtain ⟨m, configured, -⟩ := Option.bind_eq_some_iff.mp found
  exact SortedMap.contains_of_get? configured

end EntityModel

namespace ModelEdit

def hasTarget (t : EntityModel) : ModelEdit → Bool
  | .describe configuration .. | .adjust configuration _ => t.configurations.contains configuration
  | .learn p _ | .rewrite p _ | .update p _ => (t.find? p).isSome
  | .replace _ | .own .. | .activate _ => true

variable {t : EntityModel} {edit : ModelEdit}

theorem contains_apply_eq (quiet : edit.isQuiet = true) (known : edit.hasTarget t = true) (i : UInt16) :
    t.configurations.contains i = (edit.apply t).configurations.contains i := by
  cases edit with
  | replace | describe | learn | rewrite => cases quiet
  | own static dynamic => rfl
  | activate configuration => simp [apply, SortedMap.contains]
  | adjust configuration f => exact (t.contains_modifyConfiguration_eq known _ i).symm
  | update p f =>
    have configured := EntityModel.contains_of_find? known
    exact (t.contains_modifyConfiguration_eq configured _ i).symm

theorem map_static_apply_eq (quiet : edit.isQuiet = true) (known : edit.hasTarget t = true) (p : Place) :
    (t.find? p).map (·.static) = ((edit.apply t).find? p).map (·.static) := by
  rcases find?_apply_cases t edit p with same | ⟨u, rfl⟩ | ⟨d, rfl, -⟩ | ⟨f, rfl, -⟩ | ⟨f, rfl, after⟩
  · rw [same]
  · cases quiet
  · cases quiet
  · cases quiet
  · obtain ⟨model, found⟩ := Option.isSome_iff_exists.mp known
    rw [after, found]
    rfl

theorem sameShape_apply (quiet : edit.isQuiet = true) (known : edit.hasTarget t = true) :
    t.SameShape (edit.apply t) :=
  ⟨contains_apply_eq quiet known, map_static_apply_eq quiet known⟩

theorem hasTarget_congr {u : EntityModel} (same : t.SameShape u) (edit : ModelEdit) :
    edit.hasTarget t = edit.hasTarget u := by
  have descriptor : ∀ p, (t.find? p).isSome = (u.find? p).isSome := by
    intro p
    rw [← Option.isSome_map, same.descriptors p, Option.isSome_map]
  cases edit with
  | describe configuration | adjust configuration => exact same.configurations configuration
  | learn p | rewrite p | update p => exact descriptor p
  | replace | own | activate => rfl

theorem sameShape_foldl {edits : List ModelEdit} (quiet : ∀ edit ∈ edits, edit.isQuiet = true)
    (known : ∀ edit ∈ edits, edit.hasTarget t = true) : t.SameShape (edits.foldl apply t) := by
  induction edits generalizing t with
  | nil => exact .refl t
  | cons edit edits ih =>
    have first := sameShape_apply (quiet edit List.mem_cons_self) (known edit List.mem_cons_self)
    have quietRest : ∀ other ∈ edits, other.isQuiet = true :=
      fun other member => quiet other (List.mem_cons_of_mem _ member)
    have knownRest : ∀ other ∈ edits, other.hasTarget (edit.apply t) = true := by
      intro other member
      rw [← hasTarget_congr first]
      exact known other (List.mem_cons_of_mem _ member)
    exact first.trans (ih quietRest knownRest)

end ModelEdit

/-- Whether an operation tells of the present state of the entity, and not of what the entity is and
what descriptors it has. -/
def Operation.isLive : Operation → Bool
  | .setIdentity _ | .setModel _ | .adopt .. | .setEntityDescriptor _ | .setConfigurationDescriptor ..
  | .setDescriptor .. | .setStrings .. | .modifyStatic .. => false
  | _ => true

namespace RemoteEntity

def hasTargets (e : RemoteEntity) : List Operation → Bool
  | [] => true
  | op :: ops => (e.edits op).all (ModelEdit.hasTarget e.model) && (e.apply op).hasTargets ops

theorem isQuiet_edits (e : RemoteEntity) {op : Operation} (live : op.isLive = true) :
    ∀ edit ∈ e.edits op, edit.isQuiet = true := by
  by_cases update : op.isUpdate = true
  · exact e.isQuiet_edits_update update
  cases op with
  | setModel | adopt | setEntityDescriptor | setConfigurationDescriptor | setDescriptor | setStrings
    | modifyStatic => cases live
  | _ => first | exact absurd rfl update | simp [edits, ModelEdit.isQuiet]

theorem id_apply (e : RemoteEntity) {op : Operation} (live : op.isLive = true) :
    (e.apply op).id = e.id := by
  by_cases update : op.isUpdate = true
  · rw [apply_update e update]
    rfl
  cases op with
  | setIdentity | setModel | adopt | setEntityDescriptor => cases live
  | take k question =>
    simp only [RemoteEntity.apply, take]
    split <;> rfl
  | finish now =>
    simp only [RemoteEntity.apply, finish]
    split <;> rfl
  | _ => first | exact absurd rfl update | rfl

def IsCurrent (e : RemoteEntity) : Prop := e.graph = some (e.model.toGraph e.id)

theorem isCurrent_apply {e : RemoteEntity} (current : e.IsCurrent) {op : Operation}
    (live : op.isLive = true) (known : ∀ edit ∈ e.edits op, edit.hasTarget e.model = true) :
    (e.apply op).IsCurrent := by
  have quiet := e.isQuiet_edits live
  rcases graph_apply_cases e op with ⟨-, u, replaced⟩ | built | ⟨kept, -⟩
  · cases quiet _ replaced
  · exact built
  · have same : e.model.SameShape (e.apply op).model := by
      rw [model_apply]
      exact ModelEdit.sameShape_foldl quiet known
    calc (e.apply op).graph
        = some (e.model.toGraph e.id) := kept.trans current
      _ = some ((e.apply op).model.toGraph (e.apply op).id) := by
        rw [same.toGraph_eq, id_apply e live]

theorem isCurrent_run {e : RemoteEntity} (current : e.IsCurrent) {ops : List Operation}
    (live : ∀ op ∈ ops, op.isLive = true) (known : e.hasTargets ops = true) :
    (e.run ops).IsCurrent := by
  induction ops generalizing e with
  | nil => exact current
  | cons op ops ih =>
    rw [hasTargets, Bool.and_eq_true, List.all_eq_true] at known
    have first := isCurrent_apply current (live op List.mem_cons_self) known.1
    exact ih first (fun other later => live other (List.mem_cons_of_mem _ later)) known.2

theorem IsCurrent.buildGraph_eq {e : RemoteEntity} (current : e.IsCurrent) : e.buildGraph = e := by
  rw [buildGraph, ← current]

/-- After any number of live updates of what is known, the graph is the one that would be built, and so
are the answers that are read off it. -/
theorem live_updates_keep_graph (e : RemoteEntity) (ops : List Operation)
    (current : e.graph = some (e.model.toGraph e.id)) (live : ∀ op ∈ ops, op.isLive = true)
    (known : e.hasTargets ops = true) :
    let after := e.run ops
    after.graph = some (after.model.toGraph after.id) ∧
      (∀ d, after.redundancy d = after.buildGraph.redundancy d) ∧
      (∀ d index, after.nonRedundantMappings d index =
        after.buildGraph.nonRedundantMappings d index) ∧
      ∀ all, after.visits all = after.buildGraph.visits all := by
  intro after
  have stays : after.IsCurrent := isCurrent_run current live known
  rw [stays.buildGraph_eq]
  exact ⟨stays, fun _ => rfl, fun _ _ => rfl, fun _ => rfl⟩

example : ((new {} {} .zero).buildGraph.setConfigurationName 0 "Main").graph ≠
    ((new {} {} .zero).setConfigurationName 0 "Main").buildGraph.graph := by decide

def mappedPair : RemoteEntity := (new { capabilities := .aemSupported } {} .zero).run [
  .setDescriptor .streamInput 0 0 { static := { redundantStreams := .ofList [1] } },
  .setDescriptor .streamInput 0 1 { static := { avbInterface := 1, redundantStreams := .ofList [0] } },
  .setDescriptor .streamPortInput 0 0 {}, .buildGraph]

def mappedPairUpdates : List Operation :=
  [.addMappings .input 0 [⟨0, 0, 0, 0⟩, ⟨1, 0, 0, 0⟩], .setFormat .input 1 7, .setName "Box",
    .setCurrentConfiguration 0]

theorem updated_pair_answers_as_rebuilt :
    mappedPair.graph = some (mappedPair.model.toGraph mappedPair.id) ∧
      (∀ op ∈ mappedPairUpdates, op.isLive = true) ∧ mappedPair.hasTargets mappedPairUpdates = true ∧
      (mappedPair.run mappedPairUpdates).nonRedundantMappings .input 0 = .ok [⟨0, 0, 0, 0⟩] ∧
      (mappedPair.run mappedPairUpdates).buildGraph.nonRedundantMappings .input 0 =
        .ok [⟨0, 0, 0, 0⟩] := by
  have current : mappedPair.graph = some (mappedPair.model.toGraph mappedPair.id) := by rfl
  have live : ∀ op ∈ mappedPairUpdates, op.isLive = true := by decide
  have known : mappedPair.hasTargets mappedPairUpdates = true := by decide
  have filtered : (mappedPair.run mappedPairUpdates).nonRedundantMappings .input 0 =
      .ok [⟨0, 0, 0, 0⟩] := by decide
  obtain ⟨-, -, mappings, -⟩ :=
    live_updates_keep_graph mappedPair mappedPairUpdates current live known
  exact ⟨current, live, known, filtered, (mappings .input 0).symm.trans filtered⟩

end RemoteEntity

end AvbEntity
