import AvbEntity.Entity.Operation
import AvbEntity.Proofs.Model.Place

namespace AvbEntity

inductive ModelEdit where
  | replace (t : EntityModel)
  | own (static : EntityStatic → EntityStatic) (dynamic : EntityDynamic → EntityDynamic)
  | activate (configuration : UInt16)
  | describe (configuration : UInt16) (d : ConfigurationDescriptor) (active : Bool)
  | adjust (configuration : UInt16) (f : ConfigurationDynamic → ConfigurationDynamic)
  | learn (p : Place) (d : p.category.Descriptor)
  | rewrite (p : Place) (f : p.category.Static → p.category.Static)
  | update (p : Place) (f : p.category.Dynamic → p.category.Dynamic)

def ModelEdit.apply (t : EntityModel) : ModelEdit → EntityModel
  | .replace u => u
  | .own static dynamic => { t with static := static t.static, dynamic := dynamic t.dynamic }
  | .activate configuration =>
    { t with configurations := t.configurations.mapEntries fun index m =>
        { m with dynamic := { m.dynamic with isActive := index == configuration } } }
  | .describe configuration d active =>
    t.modifyConfiguration configuration fun m =>
      { m with
        static := d.static
        dynamic := { m.dynamic with isActive := active, objectName := d.objectName } }
  | .adjust configuration f =>
    t.modifyConfiguration configuration fun m => { m with dynamic := f m.dynamic }
  | .learn p d => t.modifyPlace p (p.category.learn d)
  | .rewrite p f => t.modifyPlace p fun m => { m with static := f m.static }
  | .update p f => t.modifyPlace p fun m => { m with dynamic := f m.dynamic }

namespace ModelEdit

def isQuiet : ModelEdit → Bool
  | .own .. | .activate _ | .adjust .. | .update .. => true
  | _ => false

/-- All that an edit does at a place. -/
theorem find?_apply_cases (t : EntityModel) (edit : ModelEdit) (p : Place) :
    (edit.apply t).find? p = t.find? p ∨
      (∃ u, edit = .replace u) ∨
      (∃ d, edit = .learn p d ∧
        (edit.apply t).find? p = some (p.category.learn d ((t.find? p).getD default))) ∨
      (∃ f, edit = .rewrite p f ∧ (edit.apply t).find? p =
        some { (t.find? p).getD default with static := f ((t.find? p).getD default).static }) ∨
      ∃ f, edit = .update p f ∧ (edit.apply t).find? p =
        some { (t.find? p).getD default with dynamic := f ((t.find? p).getD default).dynamic } := by
  cases edit with
  | replace u => exact .inr (.inl ⟨u, rfl⟩)
  | own static dynamic => exact .inl rfl
  | activate configuration =>
    left
    simp only [EntityModel.find?, apply, SortedMap.get?_mapEntries]
    cases t.configurations.get? p.configuration with
    | none => rfl
    | some m => simp
  | describe configuration d active =>
    left
    apply EntityModel.find?_modifyConfiguration
    intro m c
    exact m.models_withHalves _ _ c
  | adjust configuration f =>
    left
    apply EntityModel.find?_modifyConfiguration
    intro m c
    exact m.models_withHalves _ _ c
  | learn q d =>
    by_cases same : p = q
    · subst same
      exact .inr (.inr (.inl ⟨d, rfl, EntityModel.find?_modifyPlace_self ..⟩))
    · exact .inl (EntityModel.find?_modifyPlace_ne t same _)
  | rewrite q f =>
    by_cases same : p = q
    · subst same
      exact .inr (.inr (.inr (.inl ⟨f, rfl, EntityModel.find?_modifyPlace_self ..⟩)))
    · exact .inl (EntityModel.find?_modifyPlace_ne t same _)
  | update q f =>
    by_cases same : p = q
    · subst same
      exact .inr (.inr (.inr (.inr ⟨f, rfl, EntityModel.find?_modifyPlace_self ..⟩)))
    · exact .inl (EntityModel.find?_modifyPlace_ne t same _)

end ModelEdit

def Operation.isUpdate : Operation → Bool
  | .setName _ | .setGroupName _ | .setCurrentConfiguration _ | .setConfigurationName ..
  | .setObjectName .. | .selectLocale .. | .setSamplingRate .. | .setFormat .. | .setStreamInfo ..
  | .setRunning .. | .setConnection .. | .clearListeners _ | .addListener .. | .removeListener ..
  | .setAvbInfo .. | .setAsPath .. | .setClockSource .. | .setControlValues .. | .setMemoryLength ..
  | .setClockSourceIdentifier .. | .clearMappings .. | .addMappings .. | .removeMappings ..
  | .setCounters .. => true
  | _ => false

namespace RemoteEntity

open ModelEdit

def entityEdits (e : RemoteEntity) (d : EntityDescriptor) : List ModelEdit :=
  if e.isAdvertised then [.replace {}]
  else [.own (fun _ => { vendorName := d.vendorName, modelName := d.modelName }) fun m =>
    { m with
      firmwareVersion := d.firmwareVersion
      serialNumber := d.serialNumber
      entityName := d.entityName
      groupName := d.groupName
      currentConfiguration := d.currentConfiguration }]

def localizeEdit (index : UInt16) (d : StringsStatic) (m : ConfigurationDynamic) :
    ConfigurationDynamic :=
  if m.localeCount = 0 ∨ index < m.localeBase ∨ m.localeCount ≤ index - m.localeBase ∨
      StringReference.maxOffset < index - m.localeBase then m
  else { m with
    localizedStrings := localize (index - m.localeBase) d.strings m.localizedStrings }

def currentEdit (e : RemoteEntity) (c : Category) (index : UInt16) (f : c.Dynamic → c.Dynamic) :
    List ModelEdit :=
  [.update ⟨c, e.currentConfiguration, index⟩ f]

def edits (e : RemoteEntity) : Operation → List ModelEdit
  | .setModel t => [.replace t]
  | .adopt kept d all => if e.accepts kept d all then .replace kept :: e.entityEdits d else []
  | .setEntityDescriptor d => e.entityEdits d
  | .setConfigurationDescriptor configuration d =>
    [.describe configuration d (configuration == e.currentConfiguration)]
  | .setDescriptor c configuration index d => [.learn ⟨c, configuration, index⟩ d]
  | .setStrings configuration index d =>
    [.learn ⟨.strings, configuration, index⟩ d, .adjust configuration (localizeEdit index d)]
  | .modifyStatic c configuration index f => [.rewrite ⟨c, configuration, index⟩ f]
  | .modifyDynamic c configuration index f => [.update ⟨c, configuration, index⟩ f]
  | .setName name => [.own (fun m => m) fun m => { m with entityName := name }]
  | .setGroupName name => [.own (fun m => m) fun m => { m with groupName := name }]
  | .setCurrentConfiguration configuration =>
    [.own (fun m => m) fun m => { m with currentConfiguration := configuration }, .activate configuration]
  | .setConfigurationName configuration name =>
    [.adjust configuration fun m => { m with objectName := name }]
  | .setObjectName c configuration index name =>
    [.update ⟨c.1, configuration, index⟩ (c.1.rename name)]
  | .selectLocale configuration base count =>
    [.adjust configuration fun m => { m with localeBase := base, localeCount := count }]
  | .setSamplingRate index rate => e.currentEdit .audioUnit index fun m => { m with samplingRate := rate }
  | .setFormat .input index format => e.currentEdit .streamInput index fun m => { m with format }
  | .setFormat .output index format => e.currentEdit .streamOutput index fun m => { m with format }
  | .setStreamInfo .input index info =>
    e.currentEdit .streamInput index fun m => { m with format := info.format, info := some info }
  | .setStreamInfo .output index info =>
    e.currentEdit .streamOutput index fun m => { m with format := info.format, info := some info }
  | .setRunning .input index running =>
    e.currentEdit .streamInput index fun m => { m with isRunning := some running }
  | .setRunning .output index running =>
    e.currentEdit .streamOutput index fun m => { m with isRunning := some running }
  | .setConnection index connection => e.currentEdit .streamInput index fun m => { m with connection }
  | .clearListeners index => e.currentEdit .streamOutput index fun m => { m with connections := ∅ }
  | .addListener index listener => e.currentEdit .streamOutput index fun m =>
    { m with connections := m.connections.insert listener }
  | .removeListener index listener => e.currentEdit .streamOutput index fun m =>
    { m with connections := m.connections.erase listener }
  | .setAvbInfo index info => e.currentEdit .avbInterface index fun m => { m with info := some info }
  | .setAsPath index path => e.currentEdit .avbInterface index fun m => { m with asPath := some path }
  | .setClockSource index source =>
    e.currentEdit .clockDomain index fun m => { m with clockSource := source }
  | .setControlValues index values => e.currentEdit .control index fun m => { m with values }
  | .setMemoryLength configuration index length =>
    [.update ⟨.memoryObject, configuration, index⟩ fun m => { m with length }]
  | .setClockSourceIdentifier index identifier =>
    e.currentEdit .clockSource index fun m => { m with identifier }
  | .clearMappings .input index => e.currentEdit .streamPortInput index fun m => { m with mappings := [] }
  | .clearMappings .output index =>
    e.currentEdit .streamPortOutput index fun m => { m with mappings := [] }
  | .addMappings .input index ms => e.currentEdit .streamPortInput index fun m =>
    { m with mappings := AudioMapping.addInputs m.mappings ms }
  | .addMappings .output index ms => e.currentEdit .streamPortOutput index fun m =>
    { m with mappings := AudioMapping.addOutputs m.mappings ms }
  | .removeMappings .input index ms => e.currentEdit .streamPortInput index fun m =>
    { m with mappings := AudioMapping.removeAll m.mappings ms }
  | .removeMappings .output index ms => e.currentEdit .streamPortOutput index fun m =>
    { m with mappings := AudioMapping.removeAll m.mappings ms }
  | .setCounters .entity told =>
    [.own (fun m => m) fun m => { m with counters := mergeCounters m.counters told }]
  | .setCounters (.avbInterface index) told => e.currentEdit .avbInterface index fun m =>
    { m with counters := mergeCounters m.counters told }
  | .setCounters (.clockDomain index) told => e.currentEdit .clockDomain index fun m =>
    { m with counters := mergeCounters m.counters told }
  | .setCounters (.stream .input index) told => e.currentEdit .streamInput index fun m =>
    { m with counters := mergeCounters m.counters told }
  | .setCounters (.stream .output index) told => e.currentEdit .streamOutput index fun m =>
    { m with counters := mergeCounters m.counters told }
  | _ => []

theorem setStrings_eq (e : RemoteEntity) (configuration index : UInt16) (d : StringsStatic) :
    e.setStrings configuration index d = e.modifyConfiguration configuration fun m =>
      { m.upsert .strings index (Category.learn .strings d) with
        dynamic := localizeEdit index d m.dynamic } := by
  have same : (fun m : ConfigurationModel => { m with dynamic := localizeEdit index d m.dynamic }) =
      fun m : ConfigurationModel =>
        let base := m.dynamic.localeBase
        let count := m.dynamic.localeCount
        if count = 0 ∨ index < base ∨ count ≤ index - base ∨
            StringReference.maxOffset < index - base then m
        else { m with dynamic := { m.dynamic with
          localizedStrings := localize (index - base) d.strings m.dynamic.localizedStrings } } := by
    funext m
    simp only [localizeEdit]
    split <;> rfl
  have once := e.model.configurations.upsert_upsert_self configuration
    (fun m => m.upsert .strings index (Category.learn .strings d))
    (fun m => { m with dynamic := localizeEdit index d m.dynamic })
  rw [setStrings, ← same]
  exact congrArg (fun configurations => e.modifyModel fun t => { t with configurations }) once

theorem model_entityEdits (e : RemoteEntity) (d : EntityDescriptor) :
    (e.setEntityDescriptor d).model = (e.entityEdits d).foldl ModelEdit.apply e.model := by
  unfold setEntityDescriptor entityEdits
  split <;> rfl

theorem apply_update (e : RemoteEntity) {op : Operation} (update : op.isUpdate = true) :
    e.apply op = { e with model := (e.edits op).foldl ModelEdit.apply e.model } := by
  cases op with
  | setFormat d | setStreamInfo d | setRunning d | clearMappings d | addMappings d
    | removeMappings d => cases d <;> rfl
  | setCounters counted =>
    cases counted with
    | stream d => cases d <;> rfl
    | _ => rfl
  | _ => first | rfl | cases update

/-- All the edits that an update makes: one of the entity's own current values, one of a configuration, or
one of a descriptor; or it is a change of the current configuration. -/
theorem edits_update_cases (e : RemoteEntity) {op : Operation} (update : op.isUpdate = true) :
    (∃ f, (∀ m, (f m).currentConfiguration = m.currentConfiguration) ∧
        e.edits op = [.own (fun m => m) f]) ∨
      (∃ i, op = .setCurrentConfiguration i) ∨
      (∃ i name, op = .setConfigurationName i name) ∨
      (∃ i base count, op = .selectLocale i base count) ∨
      ∃ c i index f, c ≠ .strings ∧ e.edits op = [.update ⟨c, i, index⟩ f] := by
  have current : ∀ (c : Category) (index : UInt16) (f : c.Dynamic → c.Dynamic),
      e.edits op = e.currentEdit c index f → c ≠ .strings →
        ∃ c i index f, c ≠ .strings ∧ e.edits op = [.update ⟨c, i, index⟩ f] :=
    fun c index f same other => ⟨c, e.currentConfiguration, index, f, other, same⟩
  cases op with
  | setName name => exact .inl ⟨fun m => { m with entityName := name }, fun _ => rfl, rfl⟩
  | setGroupName name => exact .inl ⟨fun m => { m with groupName := name }, fun _ => rfl, rfl⟩
  | setCurrentConfiguration i => exact .inr (.inl ⟨i, rfl⟩)
  | setConfigurationName i name => exact .inr (.inr (.inl ⟨i, name, rfl⟩))
  | selectLocale i base count => exact .inr (.inr (.inr (.inl ⟨i, base, count, rfl⟩)))
  | setObjectName c i index name =>
    have other : c.1 ≠ .strings := by
      intro same
      have named := c.2
      rw [same] at named
      cases named
    exact .inr (.inr (.inr (.inr ⟨c.1, i, index, c.1.rename name, other, rfl⟩)))
  | setMemoryLength i index length =>
    exact .inr (.inr (.inr (.inr ⟨.memoryObject, i, index, fun m => { m with length }, by decide, rfl⟩)))
  | setFormat d | setStreamInfo d | setRunning d | clearMappings d | addMappings d
    | removeMappings d =>
    cases d <;> exact .inr (.inr (.inr (.inr (current _ _ _ rfl (by decide)))))
  | setCounters counted told =>
    rcases counted with _ | _ | _ | ⟨_ | _, _⟩
    · exact .inl ⟨fun m => { m with counters := mergeCounters m.counters told }, fun _ => rfl, rfl⟩
    all_goals exact .inr (.inr (.inr (.inr (current _ _ _ rfl (by decide)))))
  | _ => first | exact .inr (.inr (.inr (.inr (current _ _ _ rfl (by decide))))) | cases update

theorem isQuiet_edits_update (e : RemoteEntity) {op : Operation} (update : op.isUpdate = true) :
    ∀ edit ∈ e.edits op, edit.isQuiet = true := by
  rcases e.edits_update_cases update with
    ⟨f, -, made⟩ | ⟨i, rfl⟩ | ⟨i, name, rfl⟩ | ⟨i, base, count, rfl⟩ | ⟨c, i, index, f, -, made⟩
  · simp [made, isQuiet]
  · simp [edits, isQuiet]
  · simp [edits, isQuiet]
  · simp [edits, isQuiet]
  · simp [made, isQuiet]

theorem model_apply (e : RemoteEntity) (op : Operation) :
    (e.apply op).model = (e.edits op).foldl ModelEdit.apply e.model := by
  by_cases update : op.isUpdate = true
  · rw [apply_update e update]
  cases op with
  | setEntityDescriptor d => exact model_entityEdits e d
  | adopt kept d all =>
    simp only [RemoteEntity.apply, adopt, edits]
    split
    · exact model_entityEdits (e.setModel kept) d
    · rfl
  | setStrings configuration index d =>
    rw [RemoteEntity.apply, setStrings_eq]
    simp only [edits, List.foldl_cons, List.foldl_nil, ModelEdit.apply, EntityModel.modifyPlace,
      EntityModel.modifyConfiguration, SortedMap.upsert_upsert_self, ConfigurationModel.dynamic_upsert]
    rfl
  | take k question =>
    simp only [RemoteEntity.apply, take, edits]
    split <;> rfl
  | finish now =>
    simp only [RemoteEntity.apply, finish, edits]
    split <;> rfl
  | _ => first | exact absurd rfl update | rfl

def runEdits (e : RemoteEntity) : List Operation → List ModelEdit
  | [] => []
  | op :: ops => e.edits op ++ (e.apply op).runEdits ops

theorem model_run (e : RemoteEntity) (ops : List Operation) :
    (e.run ops).model = (e.runEdits ops).foldl ModelEdit.apply e.model := by
  induction ops generalizing e with
  | nil => rfl
  | cons op ops ih =>
    calc (e.run (op :: ops)).model
        = ((e.apply op).runEdits ops).foldl ModelEdit.apply (e.apply op).model := ih (e.apply op)
      _ = (e.runEdits (op :: ops)).foldl ModelEdit.apply e.model := by
        rw [model_apply, runEdits, List.foldl_append]

end RemoteEntity

end AvbEntity
