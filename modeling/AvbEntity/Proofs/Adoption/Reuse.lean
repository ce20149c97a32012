import AvbEntity.Proofs.Adoption.Acceptance
import AvbEntity.Proofs.Cache.Availability
import AvbEntity.Proofs.Entity.Fatal

namespace AvbEntity

/-- Whether an ENTITY descriptor is one of a device with a model: it has the names of the model, and
declares as many configurations as there are and one of them as current. -/
structure EntityDescriptor.Fits (d : EntityDescriptor) (t : EntityModel) : Prop where
  vendorName : t.static.vendorName = d.vendorName
  modelName : t.static.modelName = d.modelName
  count : t.configurations.size = d.configurationsCount.toNat
  current : t.configurations.contains d.currentConfiguration = true

namespace RemoteEntity

def showing (a : RemoteEntity) (configuration : UInt16) : RemoteEntity :=
  (a.modifyModel fun m =>
    { m with dynamic := { m.dynamic with currentConfiguration := configuration } }).buildGraph

/-- Whether two entities give the same answers about their models, in each configuration and in the
current one. -/
structure SameReads (e a : RemoteEntity) : Prop where
  configuration : ∀ i, e.readConfiguration i = a.readConfiguration i
  knows : ∀ i, e.knowsConfiguration i = a.knowsConfiguration i
  models : ∀ c i, e.models c i = a.models c i
  descriptor : ∀ c i index, e.readDescriptor c i index = a.readDescriptor c i index
  static : ∀ c i index, e.readStatic c i index = a.readStatic c i index
  dynamic : ∀ c i index, e.readDynamic c i index = a.readDynamic c i index
  objectName : ∀ c i index, e.readObjectName c i index = a.readObjectName c i index
  hasDescriptor : ∀ c i index, e.hasDescriptor c i index = a.hasDescriptor c i index
  localizedString : ∀ i r, e.localizedString i r = a.localizedString i r
  locale : ∀ i name, e.findLocale i name = a.findLocale i name
  current : ∀ c index, e.readCurrent c index = a.readCurrent c index
  inputConnection : ∀ index, e.inputConnection index = a.inputConnection index
  outputConnections : ∀ index, e.outputConnections index = a.outputConnections index
  inputRunning : ∀ index, e.isInputRunning index = a.isInputRunning index
  outputRunning : ∀ index, e.isOutputRunning index = a.isOutputRunning index
  identifying : e.identity.identifyControl = a.identity.identifyControl →
    e.isIdentifying = a.isIdentifying
  configurationGraph : ∀ i, e.readConfigurationGraph i = a.readConfigurationGraph i
  isPrimary : ∀ d stream, (e.redundancy d).isPrimary stream = (a.redundancy d).isPrimary stream
  isSecondary : ∀ d stream, (e.redundancy d).isSecondary stream = (a.redundancy d).isSecondary stream
  mappings : ∀ d index, e.mappings d index = a.mappings d index
  nonRedundantMappings : ∀ d index, e.nonRedundantMappings d index = a.nonRedundantMappings d index

section Agreement

variable {e a : RemoteEntity} (configuration : ∀ i, e.readConfiguration i = a.readConfiguration i)

include configuration

theorem readDescriptor_congr (c : Category) (i index : UInt16) :
    e.readDescriptor c i index = a.readDescriptor c i index := by
  rw [readDescriptor, configuration, readDescriptor]

theorem readDynamic_congr (c : Category) (i index : UInt16) :
    e.readDynamic c i index = a.readDynamic c i index := by
  rw [readDynamic, readDescriptor_congr configuration, readDynamic]

theorem readCurrent_congr (current : e.currentConfiguration = a.currentConfiguration) (c : Category)
    (index : UInt16) : e.readCurrent c index = a.readCurrent c index := by
  rw [readCurrent, readDynamic_congr configuration, current, readCurrent]

theorem mappings_congr (current : e.currentConfiguration = a.currentConfiguration) (d : Direction)
    (index : UInt16) : e.mappings d index = a.mappings d index := by
  have port : e.readPort d index = a.readPort d index := by
    cases d <;> simp only [readPort, readDescriptor_congr configuration, current]
  rw [mappings, port, mappings]

end Agreement

theorem redundancy_congr {e a : RemoteEntity}
    (graph : ∀ i, e.readConfigurationGraph i = a.readConfigurationGraph i)
    (current : e.currentConfiguration = a.currentConfiguration) (d : Direction) :
    e.redundancy d = a.redundancy d := by
  have same : e.readCurrentGraph = a.readCurrentGraph := by
    rw [readCurrentGraph, graph, current, readCurrentGraph]
  unfold redundancy
  rw [same]

theorem sameReads_of_configurations {e a : RemoteEntity}
    (configurations : e.model.configurations = a.model.configurations)
    (configuration : ∀ i, e.readConfiguration i = a.readConfiguration i)
    (current : e.currentConfiguration = a.currentConfiguration)
    (graph : ∀ i, e.readConfigurationGraph i = a.readConfigurationGraph i) : e.SameReads a where
  configuration := configuration
  knows i := by rw [knowsConfiguration, configurations, knowsConfiguration]
  models c i := by rw [models, configurations, models]
  descriptor := readDescriptor_congr configuration
  static c i index := by rw [readStatic, readDescriptor_congr configuration, readStatic]
  dynamic := readDynamic_congr configuration
  objectName c i index := by rw [readObjectName, readDynamic_congr configuration, readObjectName]
  hasDescriptor c i index := by
    rw [hasDescriptor, readDescriptor_congr configuration, hasDescriptor]
  localizedString i r := by rw [localizedString, configuration, localizedString]
  locale i name := by rw [findLocale, configuration, findLocale]
  current := readCurrent_congr configuration current
  inputConnection index := by
    rw [inputConnection, readCurrent_congr configuration current, inputConnection]
  outputConnections index := by
    rw [outputConnections, readCurrent_congr configuration current, outputConnections]
  inputRunning index := by
    rw [isInputRunning, readCurrent_congr configuration current, isInputRunning]
  outputRunning index := by
    rw [isOutputRunning, readCurrent_congr configuration current, isOutputRunning]
  identifying control := by
    unfold isIdentifying
    simp only [control, readCurrent_congr configuration current]
  configurationGraph := graph
  isPrimary d stream := by rw [redundancy_congr graph current]
  isSecondary d stream := by rw [redundancy_congr graph current]
  mappings := mappings_congr configuration current
  nonRedundantMappings d index := by
    rw [nonRedundantMappings, mappings_congr configuration current, redundancy_congr graph current,
      nonRedundantMappings]

section Cacheable

variable {a : RemoteEntity} (cacheable : a.isCacheable = true)

include cacheable

theorem exists_configuration_of_isCacheable :
    ∃ i m, a.model.configurations.get? i = some m ∧ m.isComplete = true := by
  obtain ⟨-, some, complete⟩ := isCacheable_iff.mp cacheable
  have entries : a.model.configurations.toList ≠ [] := by
    simpa [EntityModel.isEmpty, SortedMap.isEmpty] using some
  obtain ⟨⟨i, m⟩, member⟩ := List.exists_mem_of_ne_nil _ entries
  have found := SortedMap.get?_eq_some_iff.mpr member
  exact ⟨i, m, found, complete i m found⟩

theorem admits_of_isCacheable {c : ModelCache} {id : Eui64} (enabled : c.isEnabled = true)
    (valid : id.isValid = true) (absent : c.models.get? id = none) : c.Admits id a.model where
  enabled := enabled
  valid := valid
  complete := EntityModel.completeCount_pos_iff.mpr (exists_configuration_of_isCacheable cacheable)
  no_loss kept held := by
    rw [absent] at held
    cases held

theorem isUsable_of_isCacheable {i : UInt16} {all : Bool}
    (present : all = false → a.model.configurations.contains i = true) :
    ModelCache.isUsable a.model i all = true := by
  have complete := (isCacheable_iff.mp cacheable).2.2
  rw [ModelCache.isUsable_iff]
  cases all with
  | true => exact complete
  | false =>
    obtain ⟨m, found⟩ := Option.isSome_iff_exists.mp (present rfl)
    exact ⟨m, found, complete i m found⟩

theorem accepts_of_isCacheable {d : EntityDescriptor} (fits : d.Fits a.model) (identity : EntityIdentity)
    (settings : Settings) (now : Duration) (all : Bool) :
    (new identity settings now).accepts a.model d all = true := by
  have complete := (isCacheable_iff.mp cacheable).2.2
  refine accepts_iff.mpr ⟨fits.vendorName, fits.modelName, ?_, ?_⟩
  · cases all with
    | true => exact hasExpectedConfigurations_all_iff.mpr ⟨fits.count, complete⟩
    | false =>
      obtain ⟨m, found⟩ := Option.isSome_iff_exists.mp fits.current
      exact hasExpectedConfigurations_current_iff.mpr ⟨m, found, complete _ m found⟩
  · -- an entity that has just been found has declared nothing
    intro i own held
    cases held

end Cacheable

def reusing (e : RemoteEntity) (kept : EntityModel) (d : EntityDescriptor) (all : Bool)
    (later : Duration) : RemoteEntity :=
  (e.adopt kept d all).2.finish later

section Reusing

variable {e : RemoteEntity} {kept : EntityModel} {d : EntityDescriptor} {all : Bool}
  (fresh : e.isAdvertised = false) (sound : e.isFatal = false) (aem : e.identity.supportsAem = true)
  (taken : (e.adopt kept d all).1 = true) (later : Duration)

include fresh aem taken in
theorem reusing_eq : e.reusing kept d all later =
    { e with
      model := describeEntity d kept
      statistics := e.statistics.endEnumeration later
      graph := some ((describeEntity d kept).toGraph e.id) } := by
  rw [reusing, adopt_snd_of_fresh fresh taken, finish]
  exact if_pos aem

include fresh sound aem taken

theorem readConfiguration_reusing (i : UInt16) :
    (e.reusing kept d all later).readConfiguration i = match kept.configurations.get? i with
      | some m => .ok m
      | none => .error (.unknownConfiguration i) := by
  rw [reusing_eq fresh aem taken later]
  apply readConfiguration_of_readable
  · exact sound
  · exact aem

theorem readGraph_reusing : (e.reusing kept d all later).readGraph = .ok
    { entityId := e.id
      configurations := kept.configurations.mapEntries fun i m => m.toNode i } := by
  rw [reusing_eq fresh aem taken later]
  apply readGraph_of_readable
  · exact sound
  · exact aem
  · rfl

theorem readConfigurationGraph_reusing (i : UInt16) :
    (e.reusing kept d all later).readConfigurationGraph i = match kept.configurations.get? i with
      | some m => .ok (m.toNode i)
      | none => .error (.unknownConfiguration i) := by
  rw [readConfigurationGraph, readGraph_reusing fresh sound aem taken later]
  simp only [bind, Except.bind, SortedMap.get?_mapEntries]
  cases kept.configurations.get? i <;> rfl

theorem redundancy_reusing {m : ConfigurationModel}
    (found : kept.configurations.get? d.currentConfiguration = some m) (direction : Direction) :
    (e.reusing kept d all later).redundancy direction = match direction with
      | .input => m.inputRedundancy
      | .output => m.outputRedundancy := by
  have current : (e.reusing kept d all later).currentConfiguration = d.currentConfiguration := by
    rw [reusing_eq fresh aem taken later]
    rfl
  have here : (e.reusing kept d all later).readCurrentGraph =
      .ok (m.toNode d.currentConfiguration) := by
    rw [readCurrentGraph, current, readConfigurationGraph_reusing fresh sound aem taken later, found]
  unfold redundancy
  rw [here]
  cases direction <;> rfl

theorem sameReads_reusing {a : RemoteEntity} (own : a.model = kept) (unfailed : a.isFatal = false)
    (taught : a.identity.supportsAem = true) :
    (e.reusing kept d all later).SameReads (a.showing d.currentConfiguration) := by
  subst own
  have unfailedShown : (a.showing d.currentConfiguration).isFatal = false := unfailed
  have taughtShown : (a.showing d.currentConfiguration).identity.supportsAem = true := taught
  apply sameReads_of_configurations
  · rw [reusing_eq fresh aem taken later]
    rfl
  · intro i
    rw [readConfiguration_reusing fresh sound aem taken later]
    exact (readConfiguration_of_readable unfailedShown taughtShown i).symm
  · rw [reusing_eq fresh aem taken later]
    rfl
  · intro i
    have shown : (a.showing d.currentConfiguration).readGraph = .ok (a.model.toGraph a.id) :=
      readGraph_of_readable unfailedShown taughtShown rfl
    rw [readConfigurationGraph_reusing fresh sound aem taken later, readConfigurationGraph, shown]
    simp only [bind, Except.bind, EntityModel.toGraph, SortedMap.get?_mapEntries]
    cases a.model.configurations.get? i <;> rfl

end Reusing

/-- A model that is fit for the cache is taken by a cache that has none of its kind, can be had from it
for each of its configurations and for all of them, and is taken over by an entity of the same names that
has just been found. When that entity is done, its graph is the graph of the model, and it gives the answers
that the entity the model was learned of would give with the same current configuration. -/
theorem reuse_reproduces (a : RemoteEntity) (c : ModelCache) (id : Eui64) (d : EntityDescriptor)
    (identity : EntityIdentity) (settings : Settings) (now later : Duration)
    (cacheable : a.isCacheable = true) (taught : a.identity.supportsAem = true)
    (enabled : c.isEnabled = true) (valid : id.isValid = true) (absent : c.models.get? id = none)
    (aem : identity.supportsAem = true) (fits : d.Fits a.model) :
    (∀ i all, (all = false → a.model.configurations.contains i = true) →
      (c.offer id a.model).find? id i all = some a.model) ∧
    ∀ all, ((new identity settings now).adopt a.model d all).1 = true ∧
      let e := (new identity settings now).reusing a.model d all later
      e.readGraph = .ok
        { entityId := identity.entityId
          configurations := a.model.configurations.mapEntries fun i m => m.toNode i } ∧
      (∀ i m, a.model.configurations.get? i = some m →
        e.readConfiguration i = .ok m ∧ e.readConfigurationGraph i = .ok (m.toNode i)) ∧
      (∀ m, a.model.configurations.get? d.currentConfiguration = some m →
        e.redundancy .input = m.inputRedundancy ∧ e.redundancy .output = m.outputRedundancy) ∧
      e.SameReads (a.showing d.currentConfiguration) := by
  have unfailed := (isCacheable_iff.mp cacheable).1
  refine ⟨?_, ?_⟩
  · intro i all present
    rw [ModelCache.find?_offer_self (admits_of_isCacheable cacheable enabled valid absent)]
    exact Option.filter_some_pos (isUsable_of_isCacheable cacheable present)
  · intro all
    have accepted := accepts_of_isCacheable cacheable fits identity settings now all
    have taken : ((new identity settings now).adopt a.model d all).1 = true :=
      (adopt_fst ..).trans accepted
    refine ⟨taken, readGraph_reusing rfl rfl aem taken later, ?_, ?_,
      sameReads_reusing rfl rfl aem taken later rfl unfailed taught⟩
    · intro i m found
      rw [readConfiguration_reusing rfl rfl aem taken later,
        readConfigurationGraph_reusing rfl rfl aem taken later, found]
      exact ⟨rfl, rfl⟩
    · intro m found
      exact ⟨redundancy_reusing rfl rfl aem taken later found .input,
        redundancy_reusing rfl rfl aem taken later found .output⟩

def paired : RemoteEntity := (new { capabilities := .aemSupported } {} .zero).run [
  .setConfigurationDescriptor 0 { static := { descriptorCounts := .ofList [(.streamInput, 2)] } },
  .setDescriptor .streamInput 0 1 { static := { avbInterface := 1, redundantStreams := .ofList [0] } },
  .setDescriptor .streamInput 0 0 { static := { avbInterface := 0, redundantStreams := .ofList [1] } },
  .setConfigurationDescriptor 1 {}]

theorem redundant_pair_is_reused :
    let d : EntityDescriptor := { entityName := "Box", configurationsCount := 2 }
    let e := (new { capabilities := .aemSupported } {} .zero).reusing paired.model d false .zero
    paired.isCacheable = true ∧ paired.identity.supportsAem = true ∧ (⟨1⟩ : Eui64).isValid = true ∧
      d.Fits paired.model ∧
      (({} : ModelCache).offer ⟨1⟩ paired.model).find? ⟨1⟩ 1 false = some paired.model ∧
      e.SameReads (paired.showing 0) ∧
      (e.redundancy .input).isPrimary 0 = true ∧ (e.redundancy .input).isSecondary 1 = true := by
  intro d e
  have cacheable : paired.isCacheable = true := by decide
  have fits : d.Fits paired.model := ⟨by decide, by decide, by decide, by decide⟩
  obtain ⟨kept, taken⟩ := reuse_reproduces paired {} ⟨1⟩ d { capabilities := .aemSupported } {} .zero
    .zero cacheable (by decide) rfl (by decide) rfl (by decide) fits
  obtain ⟨-, -, -, redundancy, same⟩ := taken false
  have pair : ∃ m, paired.model.configurations.get? 0 = some m ∧
      m.inputRedundancy.isPrimary 0 = true ∧ m.inputRedundancy.isSecondary 1 = true :=
    ⟨_, rfl, by decide, by decide⟩
  obtain ⟨m, found, primary, secondary⟩ := pair
  have input : e.redundancy .input = m.inputRedundancy := (redundancy m found).1
  refine ⟨cacheable, by decide, by decide, fits, kept 1 false (by decide), same, ?_, ?_⟩
  · rw [input, primary]
  · rw [input, secondary]

end RemoteEntity

end AvbEntity
