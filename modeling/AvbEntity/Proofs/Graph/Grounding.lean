import AvbEntity.Proofs.Model.Edit
import AvbEntity.Proofs.Redundancy.Grouping

namespace AvbEntity

def Redundancy.streams (r : Redundancy) : List UInt16 :=
  r.primary.toList ++ r.secondary.toList ++
    r.groups.values.flatMap fun g => g.primary :: g.members.toList

def RemoteEntity.streamCategory : Direction → Category
  | .input => .streamInput
  | .output => .streamOutput

open RemoteEntity (portCategory streamCategory)

namespace Graph

def StreamPort.places (port : StreamPort) (configuration : UInt16) (d : Direction) : List Place :=
  ⟨portCategory d, configuration, port.index⟩ ::
    (port.audioClusters.toList.map (⟨.audioCluster, configuration, ·⟩) ++
      port.audioMaps.toList.map (⟨.audioMap, configuration, ·⟩))

def AudioUnit.places (unit : AudioUnit) (configuration : UInt16) : List Place :=
  ⟨.audioUnit, configuration, unit.index⟩ ::
    (unit.inputPorts.keys.map (⟨.streamPortInput, configuration, ·⟩) ++
      unit.inputPorts.values.flatMap (·.places configuration .input) ++
      unit.outputPorts.keys.map (⟨.streamPortOutput, configuration, ·⟩) ++
      unit.outputPorts.values.flatMap (·.places configuration .output))

def Locale.places (locale : Locale) (configuration : UInt16) : List Place :=
  ⟨.locale, configuration, locale.index⟩ ::
    locale.strings.toList.map (⟨.strings, configuration, ·⟩)

def ClockDomain.places (domain : ClockDomain) (configuration : UInt16) : List Place :=
  ⟨.clockDomain, configuration, domain.index⟩ ::
    domain.clockSources.map (⟨.clockSource, configuration, ·⟩)

/-- Every descriptor that the graph of a configuration names, be it as a key, in a node or in a list. -/
def Configuration.places (c : Configuration) : List Place :=
  c.audioUnits.keys.map (⟨.audioUnit, c.index, ·⟩) ++
  c.audioUnits.values.flatMap (·.places c.index) ++
  c.streamInputs.keys.map (⟨.streamInput, c.index, ·⟩) ++
  c.streamInputs.values.map (⟨.streamInput, c.index, ·.index⟩) ++
  c.streamOutputs.keys.map (⟨.streamOutput, c.index, ·⟩) ++
  c.streamOutputs.values.map (⟨.streamOutput, c.index, ·.index⟩) ++
  c.avbInterfaces.toList.map (⟨.avbInterface, c.index, ·⟩) ++
  c.clockSources.toList.map (⟨.clockSource, c.index, ·⟩) ++
  c.memoryObjects.toList.map (⟨.memoryObject, c.index, ·⟩) ++
  c.locales.keys.map (⟨.locale, c.index, ·⟩) ++
  c.locales.values.flatMap (·.places c.index) ++
  c.controls.toList.map (⟨.control, c.index, ·⟩) ++
  c.clockDomains.keys.map (⟨.clockDomain, c.index, ·⟩) ++
  c.clockDomains.values.flatMap (·.places c.index) ++
  c.redundantInputs.streams.map (⟨.streamInput, c.index, ·⟩) ++
  c.redundantOutputs.streams.map (⟨.streamOutput, c.index, ·⟩)

end Graph

namespace Visit

def configuration? : Visit → Option Graph.Configuration
  | .entity _ => none
  | .configuration c | .audioUnit c _ | .streamPort _ c _ _ | .audioCluster _ c _ _
  | .audioMap _ c _ _ | .stream _ c _ | .avbInterface c _ | .clockSource c _ | .memoryObject c _
  | .locale c _ | .strings c _ _ | .control c _ | .clockDomain c _ | .clockDomainSource c _ _
  | .redundantGroup _ c _ => some c

def places : Visit → List Place
  | .entity _ | .configuration _ => []
  | .audioUnit c unit => [⟨.audioUnit, c.index, unit.index⟩]
  | .streamPort d c unit port =>
    [⟨.audioUnit, c.index, unit.index⟩, ⟨portCategory d, c.index, port.index⟩]
  | .audioCluster d c port index =>
    [⟨portCategory d, c.index, port.index⟩, ⟨.audioCluster, c.index, index⟩]
  | .audioMap d c port index =>
    [⟨portCategory d, c.index, port.index⟩, ⟨.audioMap, c.index, index⟩]
  | .stream d c node => [⟨streamCategory d, c.index, node.index⟩]
  | .avbInterface c index => [⟨.avbInterface, c.index, index⟩]
  | .clockSource c index => [⟨.clockSource, c.index, index⟩]
  | .memoryObject c index => [⟨.memoryObject, c.index, index⟩]
  | .locale c node => [⟨.locale, c.index, node.index⟩]
  | .strings c node index => [⟨.locale, c.index, node.index⟩, ⟨.strings, c.index, index⟩]
  | .control c index => [⟨.control, c.index, index⟩]
  | .clockDomain c domain => [⟨.clockDomain, c.index, domain.index⟩]
  | .clockDomainSource c domain index =>
    [⟨.clockDomain, c.index, domain.index⟩, ⟨.clockSource, c.index, index⟩]
  | .redundantGroup d c group =>
    (group.primary :: group.members.toList).map (⟨streamCategory d, c.index, ·⟩)

end Visit

namespace ConfigurationModel

def HoldsAll (m : ConfigurationModel) (configuration : UInt16) (places : List Place) : Prop :=
  ∀ p ∈ places, p.configuration = configuration ∧ (m.models p.category).contains p.index = true

variable {m : ConfigurationModel} {configuration : UInt16}

theorem HoldsAll.append {l r : List Place} (left : m.HoldsAll configuration l)
    (right : m.HoldsAll configuration r) : m.HoldsAll configuration (l ++ r) := by
  intro p member
  rcases List.mem_append.mp member with member | member
  · exact left p member
  · exact right p member

theorem HoldsAll.cons {c : Category} {index : UInt16} {l : List Place}
    (head : (m.models c).contains index = true) (tail : m.HoldsAll configuration l) :
    m.HoldsAll configuration (⟨c, configuration, index⟩ :: l) := by
  intro q member
  rcases List.mem_cons.mp member with rfl | member
  · exact ⟨rfl, head⟩
  · exact tail q member

theorem holdsAll_map {c : Category} {l : List UInt16}
    (held : ∀ index ∈ l, (m.models c).contains index = true) :
    m.HoldsAll configuration (l.map (⟨c, configuration, ·⟩)) := by
  intro p member
  obtain ⟨index, inside, rfl⟩ := List.mem_map.mp member
  exact ⟨rfl, held index inside⟩

theorem holdsAll_flatMap {α : Type} {l : List α} {places : α → List Place}
    (held : ∀ a ∈ l, m.HoldsAll configuration (places a)) :
    m.HoldsAll configuration (l.flatMap places) := by
  intro p member
  obtain ⟨a, inside, member⟩ := List.mem_flatMap.mp member
  exact held a inside p member

theorem contains_of_mem_boundFrom {α : Type} {models : SortedMap UInt16 α} {base count index : UInt16}
    (member : index ∈ (boundFrom models base count).toList) : models.contains index = true :=
  (mem_boundFrom.mp member).1

section Ports

variable {ports : SortedMap UInt16 (DescriptorModel StreamPortStatic StreamPortDynamic)}
  {d : Direction} {base count : UInt16}

theorem exists_of_mem_portNodes {node : Graph.StreamPort}
    (member : node ∈ (m.portNodes ports base count).values) :
    ∃ index port, ports.get? index = some port ∧ node = {
      index
      audioClusters := boundFrom m.audioClusters port.static.clusterBase port.static.clusterCount
      audioMaps := boundFrom m.audioMaps port.static.mapBase port.static.mapCount } := by
  obtain ⟨index, port, found, rfl⟩ := SortedMap.mem_values_mapEntries.mp member
  exact ⟨index, port, (SortedMap.get?_restrict_eq_some_iff.mp found).1, rfl⟩

theorem holdsAll_portKeys (own : ∀ i, ports.contains i = true →
      (m.models (portCategory d)).contains i = true) :
    m.HoldsAll configuration
      ((m.portNodes ports base count).keys.map (⟨portCategory d, configuration, ·⟩)) := by
  apply holdsAll_map
  intro index member
  rw [portNodes, SortedMap.keys_mapEntries, ← SortedMap.contains_iff_mem_keys, SortedMap.contains,
    Option.isSome_iff_exists] at member
  obtain ⟨port, found⟩ := member
  exact own index (SortedMap.contains_of_get? (SortedMap.get?_restrict_eq_some_iff.mp found).1)

theorem holdsAll_portNodes (own : ∀ i, ports.contains i = true →
      (m.models (portCategory d)).contains i = true) :
    m.HoldsAll configuration
      ((m.portNodes ports base count).values.flatMap (·.places configuration d)) := by
  apply holdsAll_flatMap
  intro node member
  obtain ⟨index, port, found, rfl⟩ := exists_of_mem_portNodes member
  refine .cons (own index (SortedMap.contains_of_get? found)) (.append ?_ ?_)
  · exact holdsAll_map fun _ inside => contains_of_mem_boundFrom inside
  · exact holdsAll_map fun _ inside => contains_of_mem_boundFrom inside

end Ports

theorem holdsAll_audioUnitNodes :
    m.HoldsAll configuration (m.audioUnitNodes.values.flatMap (·.places configuration)) := by
  apply holdsAll_flatMap
  intro node member
  obtain ⟨index, unit, found, rfl⟩ := SortedMap.mem_values_mapEntries.mp member
  have known : m.audioUnits.contains index = true := SortedMap.contains_of_get? found
  refine .cons known (.append (.append (.append ?_ ?_) ?_) ?_)
  · exact holdsAll_portKeys (d := .input) fun _ held => held
  · exact holdsAll_portNodes fun _ held => held
  · exact holdsAll_portKeys (d := .output) fun _ held => held
  · exact holdsAll_portNodes fun _ held => held

theorem holdsAll_localeNodes :
    m.HoldsAll configuration (m.localeNodes.values.flatMap (·.places configuration)) := by
  apply holdsAll_flatMap
  intro node member
  obtain ⟨index, locale, found, rfl⟩ := SortedMap.mem_values_mapEntries.mp member
  have known : m.locales.contains index = true := SortedMap.contains_of_get? found
  exact .cons known (holdsAll_map fun _ inside => contains_of_mem_boundFrom inside)

theorem holdsAll_clockDomainNodes :
    m.HoldsAll configuration (m.clockDomainNodes.values.flatMap (·.places configuration)) := by
  apply holdsAll_flatMap
  intro node member
  obtain ⟨index, domain, found, rfl⟩ := SortedMap.mem_values_mapEntries.mp member
  have known : m.clockDomains.contains index = true := SortedMap.contains_of_get? found
  exact .cons known (holdsAll_map fun _ inside => (List.mem_filter.mp inside).2)

theorem contains_of_mem_streams {α : Type} {models : SortedMap UInt16 α} {f : UInt16 → α → StreamStatic}
    {stream : UInt16} (member : stream ∈ (Redundancy.classify (models.mapEntries f)).streams) :
    models.contains stream = true := by
  have well := Redundancy.wellFormed_classify (models.mapEntries f)
  have grouped : ∃ i g, (Redundancy.classify (models.mapEntries f)).groups.get? i = some g ∧
      stream ∈ g.members := by
    simp only [Redundancy.streams, List.mem_append, List.mem_flatMap, List.mem_cons,
      SortedMap.mem_values] at member
    rcases member with single | ⟨g, ⟨i, found⟩, rfl | inside⟩
    · exact (well.union stream).mp single
    · exact ⟨i, g, found, (well.sound i g found).primary_mem⟩
    · exact ⟨i, g, found, inside⟩
  obtain ⟨i, g, found, inside⟩ := grouped
  simpa [SortedMap.contains] using (well.sound i g found).present stream inside

theorem holdsAll_streamNodes {c : Category} {f : UInt16 → c.Model → Graph.Stream}
    (index : ∀ i model, (f i model).index = i) :
    m.HoldsAll configuration
      (((m.models c).mapEntries f).values.map (⟨c, configuration, ·.index⟩)) := by
  intro p member
  obtain ⟨node, inside, rfl⟩ := List.mem_map.mp member
  obtain ⟨i, model, found, rfl⟩ := SortedMap.mem_values_mapEntries.mp inside
  exact ⟨rfl, by simp [index, SortedMap.contains, found]⟩

theorem holdsAll_toNode : m.HoldsAll configuration (m.toNode configuration).places := by
  have keys : ∀ (c : Category), ∀ i ∈ (m.models c).keys, (m.models c).contains i = true :=
    fun _ _ member => SortedMap.contains_iff_mem_keys.mpr member
  have mapped : ∀ (c : Category) {β : Type} (f : UInt16 → c.Model → β),
      m.HoldsAll configuration (((m.models c).mapEntries f).keys.map (⟨c, configuration, ·⟩)) := by
    intro c β f
    rw [SortedMap.keys_mapEntries]
    exact holdsAll_map (keys c)
  -- the parts of the list from the last one to the first
  refine .append ?_ (holdsAll_map fun _ => contains_of_mem_streams)
  refine .append ?_ (holdsAll_map fun _ => contains_of_mem_streams)
  refine .append ?_ holdsAll_clockDomainNodes
  refine .append ?_ (mapped .clockDomain _)
  refine .append ?_ (holdsAll_map (keys .control))
  refine .append ?_ holdsAll_localeNodes
  refine .append ?_ (mapped .locale _)
  refine .append ?_ (holdsAll_map (keys .memoryObject))
  refine .append ?_ (holdsAll_map (keys .clockSource))
  refine .append ?_ (holdsAll_map (keys .avbInterface))
  refine .append ?_ (holdsAll_streamNodes (c := .streamOutput) fun _ _ => rfl)
  refine .append ?_ (mapped .streamOutput _)
  refine .append ?_ (holdsAll_streamNodes (c := .streamInput) fun _ _ => rfl)
  refine .append ?_ (mapped .streamInput _)
  exact .append (mapped .audioUnit _) holdsAll_audioUnitNodes

end ConfigurationModel

namespace EntityModel

structure Extends (u t : EntityModel) : Prop where
  configurations : ∀ i, t.configurations.contains i = true → u.configurations.contains i = true
  descriptors : ∀ p, (t.find? p).isSome = true → (u.find? p).isSome = true

namespace Extends

theorem refl (t : EntityModel) : t.Extends t := ⟨fun _ held => held, fun _ held => held⟩

theorem trans {t u v : EntityModel} (later : v.Extends u) (earlier : u.Extends t) : v.Extends t where
  configurations i held := later.configurations i (earlier.configurations i held)
  descriptors p held := later.descriptors p (earlier.descriptors p held)

end Extends

end EntityModel

namespace ModelEdit

theorem contains_apply (t : EntityModel) {edit : ModelEdit} (keeps : ∀ u, edit ≠ .replace u)
    {i : UInt16} (held : t.configurations.contains i = true) :
    (edit.apply t).configurations.contains i = true := by
  cases edit with
  | replace u => exact absurd rfl (keeps u)
  | own static dynamic => exact held
  | activate configuration => simpa [ModelEdit.apply, SortedMap.contains] using held
  | describe | adjust | learn | rewrite | update =>
    exact (t.contains_modifyConfiguration _ _ i).trans (by rw [held, Bool.true_or])

theorem extends_apply (t : EntityModel) {edit : ModelEdit} (keeps : ∀ u, edit ≠ .replace u) :
    (edit.apply t).Extends t where
  configurations _ held := contains_apply t keeps held
  descriptors p held := by
    rcases find?_apply_cases t edit p with same | ⟨u, replaced⟩ | ⟨d, -, found⟩ | ⟨f, -, found⟩
      | ⟨f, -, found⟩
    · rwa [same]
    · exact absurd replaced (keeps u)
    all_goals rw [found]; rfl

theorem extends_foldl {edits : List ModelEdit} (keeps : ∀ edit ∈ edits, ∀ u, edit ≠ .replace u)
    (t : EntityModel) : (edits.foldl ModelEdit.apply t).Extends t := by
  induction edits generalizing t with
  | nil => exact .refl t
  | cons edit edits ih =>
    have later := ih (fun other member => keeps other (List.mem_cons_of_mem _ member)) (edit.apply t)
    exact later.trans (extends_apply t (keeps edit List.mem_cons_self))

end ModelEdit

namespace RemoteEntity

/-- All that an operation does to the graph: it drops it together with the model, builds it of the model
there is then, or keeps it together with all that the model has. -/
theorem graph_apply_cases (e : RemoteEntity) (op : Operation) :
    ((e.apply op).graph = none ∧ ∃ u, .replace u ∈ e.edits op) ∨
      (e.apply op).graph = some ((e.apply op).model.toGraph (e.apply op).id) ∨
      (e.apply op).graph = e.graph ∧ ∀ edit ∈ e.edits op, ∀ u, edit ≠ .replace u := by
  -- a descriptor that replaces the model drops the graph as well
  have described : ∀ (r : RemoteEntity) (d : EntityDescriptor),
      ((r.setEntityDescriptor d).graph = none ∧ r.isAdvertised = true) ∨
        (r.setEntityDescriptor d).graph = r.graph ∧ r.isAdvertised = false := by
    intro r d
    unfold setEntityDescriptor
    split
    next advertised => exact .inl ⟨rfl, advertised⟩
    next fresh => exact .inr ⟨rfl, Bool.not_eq_true _ ▸ fresh⟩
  by_cases update : op.isUpdate = true
  · have quiet := e.isQuiet_edits_update update
    rw [apply_update e update]
    refine .inr (.inr ⟨rfl, fun edit member u replaces => ?_⟩)
    rw [replaces] at member
    cases quiet _ member
  cases op with
  | setModel model => exact .inl ⟨rfl, model, List.mem_cons_self⟩
  | setEntityDescriptor d =>
    rcases described e d with ⟨dropped, advertised⟩ | ⟨kept, fresh⟩
    · exact .inl ⟨dropped, {}, by simp [edits, entityEdits, advertised]⟩
    · refine .inr (.inr ⟨kept, ?_⟩)
      simp [edits, entityEdits, fresh]
  | adopt kept d all =>
    simp only [RemoteEntity.apply, adopt, edits]
    split
    · refine .inl ⟨?_, kept, List.mem_cons_self⟩
      rcases described (e.setModel kept) d with ⟨dropped, -⟩ | ⟨same, -⟩
      · exact dropped
      -- the graph is kept, but taking the model over has dropped it before
      · exact same
    · exact .inr (.inr ⟨rfl, by simp⟩)
  | buildGraph => exact .inr (.inl rfl)
  | finish now =>
    simp only [RemoteEntity.apply, finish]
    split
    · exact .inr (.inl rfl)
    · exact .inr (.inr ⟨rfl, by simp [edits]⟩)
  | take k question =>
    simp only [RemoteEntity.apply, take, edits]
    split <;> exact .inr (.inr ⟨rfl, by simp⟩)
  | _ => first | exact absurd rfl update | exact .inr (.inr ⟨rfl, by simp [edits]⟩)

/-- The graph that is held, if any, is of a model that has only grown since. -/
def Grounded (e : RemoteEntity) : Prop :=
  ∀ g, e.graph = some g → ∃ t id, g = EntityModel.toGraph t id ∧ e.model.Extends t

theorem grounded_new (identity : EntityIdentity) (settings : Settings) (now : Duration) :
    (new identity settings now).Grounded := by
  intro g held
  cases held

theorem grounded_apply {e : RemoteEntity} (grounded : e.Grounded) (op : Operation) :
    (e.apply op).Grounded := by
  intro g held
  rcases graph_apply_cases e op with ⟨dropped, -⟩ | built | ⟨kept, keeps⟩
  · rw [dropped] at held
    cases held
  · rw [built] at held
    cases held
    exact ⟨_, _, rfl, .refl _⟩
  · obtain ⟨t, id, rfl, earlier⟩ := grounded g (kept ▸ held)
    refine ⟨t, id, rfl, .trans ?_ earlier⟩
    rw [model_apply]
    exact ModelEdit.extends_foldl keeps e.model

theorem grounded_run {e : RemoteEntity} (grounded : e.Grounded) (ops : List Operation) :
    (e.run ops).Grounded := by
  induction ops generalizing e with
  | nil => exact grounded
  | cons op ops ih => exact ih (grounded_apply grounded op)

theorem Grounded.find? {e : RemoteEntity} (grounded : e.Grounded) {g : Graph} (held : e.graph = some g)
    {i : UInt16} {c : Graph.Configuration} (inside : g.configurations.get? i = some c) :
    c.index = i ∧ e.model.configurations.contains i = true ∧
      ∀ p ∈ c.places, p.configuration = i ∧ (e.model.find? p).isSome = true := by
  obtain ⟨t, id, rfl, grown⟩ := grounded g held
  simp only [EntityModel.toGraph, SortedMap.get?_mapEntries, Option.map_eq_some_iff] at inside
  obtain ⟨m, found, rfl⟩ := inside
  refine ⟨rfl, grown.configurations i (SortedMap.contains_of_get? found), ?_⟩
  intro p member
  obtain ⟨here, present⟩ := m.holdsAll_toNode p member
  refine ⟨here, grown.descriptors p ?_⟩
  rw [EntityModel.find?, here, found, Option.bind_some]
  exact present

end RemoteEntity

namespace Graph.Configuration

def Bounds (c : Graph.Configuration) (places : List Place) (visits : List Visit) : Prop :=
  ∀ v ∈ visits, v.configuration? = some c ∧ v.places ⊆ places

variable {c : Graph.Configuration} {places : List Place}

theorem Bounds.append {l r : List Visit} (left : c.Bounds places l) (right : c.Bounds places r) :
    c.Bounds places (l ++ r) := by
  intro v member
  rcases List.mem_append.mp member with member | member
  · exact left v member
  · exact right v member

theorem Bounds.cons {v : Visit} {l : List Visit} (here : v.configuration? = some c)
    (head : v.places ⊆ places) (tail : c.Bounds places l) : c.Bounds places (v :: l) := by
  intro w member
  rcases List.mem_cons.mp member with rfl | member
  · exact ⟨here, head⟩
  · exact tail w member

theorem bounds_map {α : Type} {l : List α} {visit : α → Visit}
    (here : ∀ a, (visit a).configuration? = some c)
    (bounded : ∀ a ∈ l, (visit a).places ⊆ places) : c.Bounds places (l.map visit) := by
  intro v member
  obtain ⟨a, inside, rfl⟩ := List.mem_map.mp member
  exact ⟨here a, bounded a inside⟩

theorem bounds_map_single {α : Type} {l : List α} {visit : α → Visit} {place : α → Place}
    (here : ∀ a, (visit a).configuration? = some c) (only : ∀ a, (visit a).places = [place a])
    (inner : l.map place ⊆ places) : c.Bounds places (l.map visit) := by
  refine bounds_map here fun a member p handed => ?_
  rw [only, List.mem_singleton] at handed
  exact inner (handed ▸ List.mem_map_of_mem member)

theorem bounds_flatMap {α : Type} {l : List α} {visits : α → List Visit} {named : α → List Place}
    (bounded : ∀ a, named a ⊆ places → c.Bounds places (visits a))
    (inner : l.flatMap named ⊆ places) : c.Bounds places (l.flatMap visits) := by
  intro v member
  obtain ⟨a, inside, member⟩ := List.mem_flatMap.mp member
  exact bounded a (fun p own => inner (List.mem_flatMap.mpr ⟨a, inside, own⟩)) v member

theorem bounds_portVisits {d : Direction} {unit : Graph.AudioUnit} {port : Graph.StreamPort}
    (above : ⟨.audioUnit, c.index, unit.index⟩ ∈ places) (inner : port.places c.index d ⊆ places) :
    c.Bounds places (c.portVisits d unit port) := by
  have own : ⟨portCategory d, c.index, port.index⟩ ∈ places := inner List.mem_cons_self
  refine .cons rfl ?_ (.append ?_ ?_)
  · simpa [Visit.places] using ⟨above, own⟩
  · refine bounds_map (fun _ => rfl) fun index member => ?_
    have cluster : ⟨.audioCluster, c.index, index⟩ ∈ places :=
      inner (by simp [StreamPort.places, member])
    simpa [Visit.places] using ⟨own, cluster⟩
  · refine bounds_map (fun _ => rfl) fun index member => ?_
    have map : ⟨.audioMap, c.index, index⟩ ∈ places := inner (by simp [StreamPort.places, member])
    simpa [Visit.places] using ⟨own, map⟩

theorem bounds_audioUnitVisits {unit : Graph.AudioUnit} (inner : unit.places c.index ⊆ places) :
    c.Bounds places (c.audioUnitVisits unit) := by
  have own : ⟨.audioUnit, c.index, unit.index⟩ ∈ places := inner List.mem_cons_self
  refine .cons rfl (by simpa [Visit.places] using own) (.append ?_ ?_)
  all_goals
    refine bounds_flatMap (fun port => bounds_portVisits own) fun p named => inner ?_
    simp only [AudioUnit.places, List.mem_cons, List.mem_append, named, true_or, or_true]

theorem bounds_localeVisits {node : Graph.Locale} (inner : node.places c.index ⊆ places) :
    c.Bounds places (c.localeVisits node) := by
  have own : ⟨.locale, c.index, node.index⟩ ∈ places := inner List.mem_cons_self
  refine .cons rfl (by simpa [Visit.places] using own) ?_
  refine bounds_map (fun _ => rfl) fun index member => ?_
  have strings : ⟨.strings, c.index, index⟩ ∈ places := inner (by simp [Locale.places, member])
  simpa [Visit.places] using ⟨own, strings⟩

theorem bounds_clockDomainVisits {node : Graph.ClockDomain} (inner : node.places c.index ⊆ places) :
    c.Bounds places (c.clockDomainVisits node) := by
  have own : ⟨.clockDomain, c.index, node.index⟩ ∈ places := inner List.mem_cons_self
  refine .cons rfl (by simpa [Visit.places] using own) ?_
  refine bounds_map (fun _ => rfl) fun index member => ?_
  have source : ⟨.clockSource, c.index, index⟩ ∈ places := inner (by simp [ClockDomain.places, member])
  simpa [Visit.places] using ⟨own, source⟩

theorem mem_streams {r : Redundancy} {group : RedundantGroup} {stream : UInt16}
    (known : group ∈ r.groups.values) (named : stream ∈ group.primary :: group.members.toList) :
    stream ∈ r.streams := by
  simp only [Redundancy.streams, List.mem_append, List.mem_flatMap]
  exact .inr ⟨group, known, named⟩

theorem bounds_groupVisits {d : Direction} {r : Redundancy}
    (inner : r.streams.map (⟨streamCategory d, c.index, ·⟩) ⊆ places) :
    c.Bounds places (r.groups.values.map (.redundantGroup d c)) := by
  refine bounds_map (fun _ => rfl) fun group known p member => ?_
  obtain ⟨stream, named, rfl⟩ := List.mem_map.mp member
  exact inner (List.mem_map_of_mem (mem_streams known named))

theorem bounds_innerVisits (c : Graph.Configuration) : c.Bounds c.places c.innerVisits := by
  refine .append (.append (.append (.append (.append (.append (.append (.append (.append (.append
    (bounds_flatMap (fun _ => bounds_audioUnitVisits) ?_)
    (bounds_map_single (fun _ => rfl) (fun _ => rfl) ?_))
    (bounds_map_single (fun _ => rfl) (fun _ => rfl) ?_))
    (bounds_map_single (fun _ => rfl) (fun _ => rfl) ?_))
    (bounds_map_single (fun _ => rfl) (fun _ => rfl) ?_))
    (bounds_map_single (fun _ => rfl) (fun _ => rfl) ?_))
    (bounds_flatMap (fun _ => bounds_localeVisits) ?_))
    (bounds_map_single (fun _ => rfl) (fun _ => rfl) ?_))
    (bounds_flatMap (fun _ => bounds_clockDomainVisits) ?_))
    (bounds_groupVisits ?_)) (bounds_groupVisits ?_)
  all_goals
    intro p named
  case refine_2 | refine_3 | refine_10 | refine_11 =>
    simp only [streamCategory] at named
    simp only [Configuration.places, List.mem_append, named, true_or, or_true]
  all_goals simp only [Configuration.places, List.mem_append, named, true_or, or_true]

end Graph.Configuration

theorem Graph.bounds_visits (g : Graph) (current : UInt16) (all : Bool) :
    ∀ v ∈ g.visits current all, v = .entity g ∨
      ∃ i c, g.configurations.get? i = some c ∧ v.configuration? = some c ∧ v.places ⊆ c.places := by
  intro v member
  rcases List.mem_cons.mp member with rfl | member
  · exact .inl rfl
  · obtain ⟨⟨i, c⟩, inside, member⟩ := List.mem_flatMap.mp member
    refine .inr ⟨i, c, SortedMap.get?_eq_some_iff.mpr inside, ?_⟩
    rcases List.mem_cons.mp member with rfl | member
    · exact ⟨rfl, List.nil_subset _⟩
    · split at member
      · exact c.bounds_innerVisits v member
      · cases member

namespace RemoteEntity

theorem eq_model_of_readModel {e : RemoteEntity} {t : EntityModel} (readable : e.readModel = .ok t) :
    t = e.model := by
  unfold readModel at readable
  split at readable
  · cases readable
  · split at readable
    · cases readable
    · exact (Except.ok.inj readable).symm

theorem readConfiguration_isOk {e : RemoteEntity} {t : EntityModel} {configuration : UInt16}
    (readable : e.readModel = .ok t) (held : e.model.configurations.contains configuration = true) :
    (e.readConfiguration configuration).isOk = true := by
  obtain ⟨m, found⟩ := Option.isSome_iff_exists.mp held
  obtain rfl := eq_model_of_readModel readable
  simp only [readConfiguration, readable, bind, Except.bind, found]
  rfl

theorem hasDescriptor_of_find? {e : RemoteEntity} {t : EntityModel} {p : Place}
    (readable : e.readModel = .ok t) (held : (e.model.find? p).isSome = true) :
    e.hasDescriptor p.category p.configuration p.index = true := by
  obtain ⟨model, found⟩ := Option.isSome_iff_exists.mp held
  obtain ⟨m, configured, inside⟩ := Option.bind_eq_some_iff.mp found
  obtain rfl := eq_model_of_readModel readable
  simp only [hasDescriptor, readDescriptor, readConfiguration, readable, bind, Except.bind, configured,
    inside]
  rfl

/-- Whatever a graph names is in the model of the entity, however much of the model has been learned
since the graph was built; and whatever a walk hands out can be read. -/
theorem graph_never_dangles (identity : EntityIdentity) (settings : Settings) (now : Duration)
    (ops : List Operation) :
    let e := (new identity settings now).run ops
    (∀ g i c, e.graph = some g → g.configurations.get? i = some c →
      c.index = i ∧ e.model.configurations.contains i = true ∧
        ∀ p ∈ c.places, p.configuration = i ∧ (e.model.find? p).isSome = true) ∧
    ∀ all, ∀ v ∈ e.visits all,
      (∀ c, v.configuration? = some c → (e.readConfiguration c.index).isOk = true) ∧
        ∀ p ∈ v.places, e.hasDescriptor p.category p.configuration p.index = true := by
  intro e
  have grounded : e.Grounded := grounded_run (grounded_new identity settings now) ops
  refine ⟨fun g i c held inside => grounded.find? held inside, fun all v member => ?_⟩
  unfold visits readGraph at member
  cases readable : e.readModel with
  | error problem =>
    rw [readable] at member
    cases member
  | ok t =>
    cases held : e.graph with
    | none =>
      simp only [readable, held, bind, Except.bind] at member
      cases member
    | some g =>
      simp only [readable, held, bind, Except.bind] at member
      rcases g.bounds_visits _ _ v member with rfl | ⟨i, c, inside, here, named⟩
      · exact ⟨fun c none => (nomatch none), fun p none => (nomatch none)⟩
      · obtain ⟨rfl, configured, found⟩ := grounded.find? held inside
        refine ⟨fun d same => ?_, fun p handed => ?_⟩
        · cases here.symm.trans same
          exact readConfiguration_isOk readable configured
        · exact hasDescriptor_of_find? readable (found p (named handed)).2

end RemoteEntity

end AvbEntity
