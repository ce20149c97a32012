import AvbEntity.Proofs.Model.Edit

namespace AvbEntity

/-- Whether an operation, performed on an entity, is one that learning the entity cannot recover from:
giving up, or an ENTITY descriptor after the entity has been advertised, be it with a kept model that is
taken over or without. -/
inductive Operation.Condemns (e : RemoteEntity) : Operation → Prop where
  | fail : Condemns e .fail
  | descriptor (d : EntityDescriptor) (advertised : e.isAdvertised = true) :
    Condemns e (.setEntityDescriptor d)
  | adopt (kept : EntityModel) (d : EntityDescriptor) (all : Bool)
    (advertised : e.isAdvertised = true) (taken : (e.adopt kept d all).1 = true) :
    Condemns e (.adopt kept d all)

namespace RemoteEntity

theorem isFatal_setEntityDescriptor (e : RemoteEntity) (d : EntityDescriptor) :
    (e.setEntityDescriptor d).isFatal = (e.isFatal || e.isAdvertised) := by
  unfold setEntityDescriptor
  by_cases advertised : e.isAdvertised = true
  · simp [advertised, fail]
  · simp [advertised, modifyModel]

theorem isFatal_adopt (e : RemoteEntity) (kept : EntityModel) (d : EntityDescriptor) (all : Bool) :
    (e.adopt kept d all).2.isFatal = (e.isFatal || (e.isAdvertised && (e.adopt kept d all).1)) := by
  unfold adopt
  by_cases accepted : e.accepts kept d all = true
  · simp [accepted, isFatal_setEntityDescriptor, setModel]
  · simp [accepted]

theorem isFatal_apply_eq {e : RemoteEntity} {op : Operation} (fails : op ≠ .fail)
    (descriptor : ∀ d, op ≠ .setEntityDescriptor d) (adopts : ∀ kept d all, op ≠ .adopt kept d all) :
    (e.apply op).isFatal = e.isFatal := by
  by_cases update : op.isUpdate = true
  · rw [apply_update e update]
  cases op with
  | fail => exact absurd rfl fails
  | setEntityDescriptor d => exact absurd rfl (descriptor d)
  | adopt kept d all => exact absurd rfl (adopts kept d all)
  | take k question =>
    simp only [apply, take]
    split <;> rfl
  | finish now =>
    simp only [apply, finish]
    split <;> rfl
  | _ => first | exact absurd rfl update | rfl

theorem isFatal_apply_iff (e : RemoteEntity) (op : Operation) :
    (e.apply op).isFatal = true ↔ e.isFatal = true ∨ op.Condemns e := by
  by_cases fails : op = .fail
  · subst fails
    exact iff_of_true rfl (.inr .fail)
  by_cases descriptor : ∃ d, op = .setEntityDescriptor d
  · obtain ⟨d, rfl⟩ := descriptor
    rw [apply, isFatal_setEntityDescriptor, Bool.or_eq_true]
    refine or_congr_right ⟨.descriptor d, ?_⟩
    rintro ⟨⟩
    assumption
  by_cases adopts : ∃ kept d all, op = .adopt kept d all
  · obtain ⟨kept, d, all, rfl⟩ := adopts
    rw [apply, isFatal_adopt, Bool.or_eq_true, Bool.and_eq_true]
    refine or_congr_right ⟨fun given => .adopt kept d all given.1 given.2, ?_⟩
    rintro ⟨⟩
    exact ⟨‹_›, ‹_›⟩
  · simp only [not_exists] at descriptor adopts
    rw [isFatal_apply_eq fails descriptor adopts]
    constructor
    · exact .inl
    · rintro (fatal | condemned)
      · exact fatal
      · cases condemned with
        | fail => exact absurd rfl fails
        | descriptor d => exact absurd rfl (descriptor d)
        | adopt kept d all => exact absurd rfl (adopts kept d all)

theorem isFatal_run_iff (e : RemoteEntity) (ops : List Operation) :
    (e.run ops).isFatal = true ↔ e.isFatal = true ∨
      ∃ before cause after, ops = before ++ cause :: after ∧ cause.Condemns (e.run before) := by
  induction ops generalizing e with
  | nil => simp [run]
  | cons op ops ih =>
    have step : (e.run (op :: ops)).isFatal = ((e.apply op).run ops).isFatal := rfl
    rw [step, ih, isFatal_apply_iff, or_assoc]
    refine or_congr_right ⟨?_, ?_⟩
    · rintro (condemned | ⟨before, cause, after, rfl, condemned⟩)
      · exact ⟨[], op, ops, rfl, condemned⟩
      · exact ⟨op :: before, cause, after, rfl, condemned⟩
    · rintro ⟨_ | ⟨first, before⟩, cause, after, split, condemned⟩
      · cases split
        exact .inl condemned
      · cases split
        exact .inr ⟨before, cause, after, rfl, condemned⟩

theorem isFatal_run {e : RemoteEntity} (fatal : e.isFatal = true) (ops : List Operation) :
    (e.run ops).isFatal = true :=
  (isFatal_run_iff e ops).mpr (.inl fatal)

/-- Whether an entity takes no answer and gives nothing of its model away: a read that can fail fails
with the fatal error of the entity under its present identifier, and any other tells of nothing. -/
structure Closed (e : RemoteEntity) : Prop where
  take : ∀ k key, e.take k key = (false, e)
  model : e.readModel = .error (.enumerationFailed e.id)
  configuration : ∀ configuration,
    e.readConfiguration configuration = .error (.enumerationFailed e.id)
  descriptor : ∀ c configuration index,
    e.readDescriptor c configuration index = .error (.enumerationFailed e.id)
  static : ∀ c configuration index,
    e.readStatic c configuration index = .error (.enumerationFailed e.id)
  dynamic : ∀ c configuration index,
    e.readDynamic c configuration index = .error (.enumerationFailed e.id)
  locale : ∀ configuration name,
    e.findLocale configuration name = .error (.enumerationFailed e.id)
  inputConnection : ∀ index, e.inputConnection index = .error (.enumerationFailed e.id)
  outputConnections : ∀ index, e.outputConnections index = .error (.enumerationFailed e.id)
  mappings : ∀ d index, e.mappings d index = .error (.enumerationFailed e.id)
  nonRedundantMappings : ∀ d index,
    e.nonRedundantMappings d index = .error (.enumerationFailed e.id)
  graph : e.readGraph = .error (.enumerationFailed e.id)
  configurationGraph : ∀ configuration,
    e.readConfigurationGraph configuration = .error (.enumerationFailed e.id)
  hasDescriptor : ∀ c configuration index, e.hasDescriptor c configuration index = false
  isPrimary : ∀ d stream, (e.redundancy d).isPrimary stream = false
  isSecondary : ∀ d stream, (e.redundancy d).isSecondary stream = false
  isIdentifying : e.isIdentifying = false
  localizedString : ∀ configuration r, e.localizedString configuration r = ""
  isCacheable : e.isCacheable = false
  visits : ∀ allConfigurations, e.visits allConfigurations = []

section Fatal

variable {e : RemoteEntity} (fatal : e.isFatal = true)

include fatal

theorem readModel_of_fatal : e.readModel = .error (.enumerationFailed e.id) := by
  rw [readModel, if_pos fatal]

theorem readConfiguration_of_fatal (configuration : UInt16) :
    e.readConfiguration configuration = .error (.enumerationFailed e.id) := by
  rw [readConfiguration, readModel_of_fatal fatal]
  rfl

theorem readDescriptor_of_fatal (c : Category) (configuration index : UInt16) :
    e.readDescriptor c configuration index = .error (.enumerationFailed e.id) := by
  rw [readDescriptor, readConfiguration_of_fatal fatal]
  rfl

theorem readDynamic_of_fatal (c : Category) (configuration index : UInt16) :
    e.readDynamic c configuration index = .error (.enumerationFailed e.id) := by
  rw [readDynamic, readDescriptor_of_fatal fatal]
  rfl

theorem readGraph_of_fatal : e.readGraph = .error (.enumerationFailed e.id) := by
  rw [readGraph, readModel_of_fatal fatal]
  rfl

theorem readConfigurationGraph_of_fatal (configuration : UInt16) :
    e.readConfigurationGraph configuration = .error (.enumerationFailed e.id) := by
  rw [readConfigurationGraph, readGraph_of_fatal fatal]
  rfl

theorem redundancy_of_fatal (d : Direction) : e.redundancy d = {} := by
  have graph : e.readCurrentGraph = .error (.enumerationFailed e.id) :=
    readConfigurationGraph_of_fatal fatal _
  unfold redundancy
  rw [graph]

theorem mappings_of_fatal (d : Direction) (index : UInt16) :
    e.mappings d index = .error (.enumerationFailed e.id) := by
  cases d <;>
  · rw [mappings, readPort, readDescriptor_of_fatal fatal]
    rfl

theorem closed_of_fatal : e.Closed where
  take k key := by rw [take, if_pos fatal]
  model := readModel_of_fatal fatal
  configuration := readConfiguration_of_fatal fatal
  descriptor := readDescriptor_of_fatal fatal
  static c configuration index := by
    rw [readStatic, readDescriptor_of_fatal fatal]
    rfl
  dynamic := readDynamic_of_fatal fatal
  locale configuration name := by
    rw [findLocale, readConfiguration_of_fatal fatal]
    rfl
  inputConnection index := by
    rw [inputConnection, readCurrent, readDynamic_of_fatal fatal]
    rfl
  outputConnections index := by
    rw [outputConnections, readCurrent, readDynamic_of_fatal fatal]
    rfl
  mappings := mappings_of_fatal fatal
  nonRedundantMappings d index := by
    rw [nonRedundantMappings, mappings_of_fatal fatal]
    rfl
  graph := readGraph_of_fatal fatal
  configurationGraph := readConfigurationGraph_of_fatal fatal
  hasDescriptor c configuration index := by
    rw [hasDescriptor, readDescriptor_of_fatal fatal]
    rfl
  isPrimary d stream := by
    rw [redundancy_of_fatal fatal]
    rfl
  isSecondary d stream := by
    rw [redundancy_of_fatal fatal]
    rfl
  isIdentifying := by
    unfold isIdentifying
    split
    · rfl
    · rw [readCurrent, readDynamic_of_fatal fatal]
  localizedString configuration r := by
    unfold localizedString
    split
    · rfl
    · rw [readConfiguration_of_fatal fatal]
  isCacheable := by
    rw [isCacheable, fatal]
    rfl
  visits allConfigurations := by
    rw [visits, readGraph_of_fatal fatal]

end Fatal

section Readable

variable {e : RemoteEntity} (sound : e.isFatal = false) (aem : e.identity.supportsAem = true)

include sound aem

theorem readModel_of_readable : e.readModel = .ok e.model := by
  simp [readModel, sound, aem]

theorem readConfiguration_of_readable (i : UInt16) :
    e.readConfiguration i = match e.model.configurations.get? i with
      | some m => .ok m
      | none => .error (.unknownConfiguration i) := by
  rw [readConfiguration, readModel_of_readable sound aem]
  rfl

theorem readGraph_of_readable {g : Graph} (built : e.graph = some g) : e.readGraph = .ok g := by
  rw [readGraph, readModel_of_readable sound aem, built]
  rfl

end Readable

theorem Closed.isFatal {e : RemoteEntity} (closed : e.Closed) : e.isFatal = true := by
  have model := closed.model
  unfold readModel at model
  split at model
  · assumption
  · split at model <;> cases model

/-- An entity is closed after a run exactly if some operation of the run condemned it, whatever came
after that operation. -/
theorem closed_iff_condemned (identity : EntityIdentity) (settings : Settings) (now : Duration)
    (ops : List Operation) :
    ((new identity settings now).run ops).Closed ↔
      ∃ before cause after, ops = before ++ cause :: after ∧
        cause.Condemns ((new identity settings now).run before) := by
  have never : (new identity settings now).isFatal ≠ true := Bool.false_ne_true
  have causes := isFatal_run_iff (new identity settings now) ops
  rw [or_iff_right never] at causes
  exact ⟨fun closed => causes.mp closed.isFatal, fun condemned => closed_of_fatal (causes.mpr condemned)⟩

end RemoteEntity

end AvbEntity
