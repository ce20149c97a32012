import AvbEntity.Proofs.LastEvent
import AvbEntity.Proofs.Model.Edit

namespace AvbEntity

namespace EntityModel

def isActive (t : EntityModel) (i : UInt16) : Bool := (t.configuration i).dynamic.isActive

def OnlyActive (t : EntityModel) (i : UInt16) : Prop :=
  ∀ j m, t.configurations.get? j = some m → m.dynamic.isActive = true → j = i

instance (t : EntityModel) (i : UInt16) : Decidable (t.OnlyActive i) :=
  decidable_of_iff (∀ c ∈ t.configurations.toList, c.2.dynamic.isActive = true → c.1 = i) <| by
    simp only [OnlyActive, SortedMap.get?_eq_some_iff, Prod.forall]

variable {t : EntityModel} {i j : UInt16}

theorem onlyActive_iff : t.OnlyActive i ↔ ∀ j, t.isActive j = true → j = i := by
  constructor
  · intro only j active
    unfold isActive configuration SortedMap.getD at active
    cases found : t.configurations.get? j with
    | none =>
      rw [found] at active
      cases active
    | some m =>
      rw [found] at active
      exact only j m found active
  · intro only j m found active
    apply only j
    rw [isActive, configuration, SortedMap.getD, found]
    exact active

theorem OnlyActive.iff_eq (only : t.OnlyActive i) (j : UInt16) :
    t.OnlyActive j ↔ (t.isActive i = true → j = i) := by
  rw [onlyActive_iff] at only ⊢
  constructor
  · intro other active
    exact (other i active).symm
  · intro same k active
    obtain rfl := only k active
    exact (same active).symm

theorem isActive_modifyConfiguration (t : EntityModel) (i j : UInt16)
    (f : ConfigurationModel → ConfigurationModel) :
    (t.modifyConfiguration i f).isActive j =
      if j = i then (f (t.configuration i)).dynamic.isActive else t.isActive j := by
  unfold isActive
  rw [configuration_modifyConfiguration]
  split <;> rfl

end EntityModel

namespace ModelEdit

def SparesActive : ModelEdit → Prop
  | .own _ f => ∀ m, (f m).currentConfiguration = m.currentConfiguration
  | .adjust _ f => ∀ m, (f m).isActive = m.isActive
  | .learn .. | .rewrite .. | .update .. => True
  | .replace _ | .activate _ | .describe .. => False

variable {t : EntityModel} {edit : ModelEdit}

theorem SparesActive.current_apply (spares : edit.SparesActive) :
    (edit.apply t).dynamic.currentConfiguration = t.dynamic.currentConfiguration := by
  cases edit with
  | own static f => exact spares t.dynamic
  | replace | activate | describe => cases spares
  | adjust | learn | rewrite | update => rfl

theorem SparesActive.isActive_apply (spares : edit.SparesActive) : (edit.apply t).isActive = t.isActive := by
  have kept : ∀ (i : UInt16) (f : ConfigurationModel → ConfigurationModel),
      (∀ m, (f m).dynamic.isActive = m.dynamic.isActive) →
        (t.modifyConfiguration i f).isActive = t.isActive := by
    intro i f same
    funext j
    rw [EntityModel.isActive_modifyConfiguration]
    split
    next here => rw [here, same, EntityModel.isActive]
    · rfl
  cases edit with
  | replace | activate | describe => cases spares
  | own => rfl
  | adjust i f => exact kept i _ fun m => spares m.dynamic
  | learn p | rewrite p | update p =>
    exact kept p.configuration _ fun m => congrArg (·.isActive) (m.dynamic_upsert ..)

theorem sparesActive_foldl {edits : List ModelEdit} (spare : ∀ edit ∈ edits, edit.SparesActive) :
    (edits.foldl apply t).dynamic.currentConfiguration = t.dynamic.currentConfiguration ∧
      (edits.foldl apply t).isActive = t.isActive := by
  induction edits generalizing t with
  | nil => exact ⟨rfl, rfl⟩
  | cons edit edits ih =>
    have first := spare edit List.mem_cons_self
    have rest := ih (t := edit.apply t) fun other later => spare other (List.mem_cons_of_mem _ later)
    exact ⟨rest.1.trans first.current_apply, rest.2.trans first.isActive_apply⟩

theorem isActive_describe (t : EntityModel) (i : UInt16) (d : ConfigurationDescriptor) (active : Bool)
    (j : UInt16) : ((describe i d active).apply t).isActive j = if j = i then active else t.isActive j :=
  t.isActive_modifyConfiguration i j _

end ModelEdit

/-- Whether an operation that finds no configuration but the current one marked as active leaves it so. Only
an ENTITY descriptor, and a model that is taken over or given, can fail to. -/
def Operation.KeepsActive (e : RemoteEntity) : Operation → Prop
  | .setModel t => t.OnlyActive t.dynamic.currentConfiguration
  | .adopt kept d all => e.isAdvertised = false → e.accepts kept d all = true →
    kept.OnlyActive d.currentConfiguration
  | .setEntityDescriptor d => e.isAdvertised = false →
    e.model.isActive e.currentConfiguration = true → d.currentConfiguration = e.currentConfiguration
  | _ => True

def Operation.setsActive : Operation → Bool
  | .setModel _ | .adopt .. | .setEntityDescriptor _ | .setConfigurationDescriptor ..
  | .setCurrentConfiguration _ => true
  | _ => false

namespace RemoteEntity

theorem sparesActive_edits (e : RemoteEntity) {op : Operation} (spares : op.setsActive = false) :
    ∀ edit ∈ e.edits op, edit.SparesActive := by
  by_cases update : op.isUpdate = true
  · rcases e.edits_update_cases update with
      ⟨f, keeps, made⟩ | ⟨i, rfl⟩ | ⟨i, name, rfl⟩ | ⟨i, base, count, rfl⟩ | ⟨c, i, index, f, -, made⟩
    · simpa [made, ModelEdit.SparesActive] using keeps
    · cases spares
    · simp [edits, ModelEdit.SparesActive]
    · simp [edits, ModelEdit.SparesActive]
    · simp [made, ModelEdit.SparesActive]
  cases op with
  | setModel | adopt | setEntityDescriptor | setConfigurationDescriptor | setCurrentConfiguration =>
    cases spares
  | setStrings configuration index d =>
    have localized : ∀ m, (localizeEdit index d m).isActive = m.isActive := by
      intro m
      unfold localizeEdit
      split <;> rfl
    simpa [edits, ModelEdit.SparesActive] using localized
  | _ => first | exact absurd rfl update | simp [edits, ModelEdit.SparesActive]

def CurrentAloneActive (e : RemoteEntity) : Prop := e.model.OnlyActive e.currentConfiguration

theorem currentAloneActive_setEntityDescriptor_iff (e : RemoteEntity) (d : EntityDescriptor) :
    (e.setEntityDescriptor d).CurrentAloneActive ↔
      (e.isAdvertised = false → e.model.OnlyActive d.currentConfiguration) := by
  unfold setEntityDescriptor
  split
  next advertised =>
    constructor
    · intro _ fresh
      cases advertised.symm.trans fresh
    · intro _ j m found
      cases found
  next advertised =>
    have fresh : e.isAdvertised = false := by simpa using advertised
    constructor
    · intro only _
      exact only
    · intro only
      exact only fresh

theorem currentAloneActive_setConfigurationDescriptor {e : RemoteEntity} (only : e.CurrentAloneActive)
    (configuration : UInt16) (d : ConfigurationDescriptor) :
    (e.setConfigurationDescriptor configuration d).CurrentAloneActive := by
  refine EntityModel.onlyActive_iff.mpr fun j active => ?_
  have marked : (if j = configuration then configuration == e.currentConfiguration
      else e.model.isActive j) = true :=
    (ModelEdit.isActive_describe e.model configuration d _ j).symm.trans active
  split at marked
  next here => exact here.trans (beq_iff_eq.mp marked)
  · exact EntityModel.onlyActive_iff.mp only j marked

theorem currentAloneActive_setCurrentConfiguration (e : RemoteEntity) (configuration : UInt16) :
    (e.setCurrentConfiguration configuration).CurrentAloneActive := by
  intro j m found active
  simp only [setCurrentConfiguration, modifyModel, SortedMap.get?_mapEntries, Option.map_eq_some_iff]
    at found
  obtain ⟨n, -, rfl⟩ := found
  exact beq_iff_eq.mp active

theorem currentAloneActive_of_spares {e : RemoteEntity} (only : e.CurrentAloneActive) {op : Operation}
    (spares : op.setsActive = false) : (e.apply op).CurrentAloneActive := by
  obtain ⟨current, marks⟩ := ModelEdit.sparesActive_foldl (e.sparesActive_edits spares) (t := e.model)
  rw [← model_apply] at current marks
  refine EntityModel.onlyActive_iff.mpr fun j active => ?_
  rw [marks] at active
  exact (EntityModel.onlyActive_iff.mp only j active).trans current.symm

theorem currentAloneActive_apply_iff {e : RemoteEntity} (only : e.CurrentAloneActive) (op : Operation) :
    (e.apply op).CurrentAloneActive ↔ op.KeepsActive e := by
  cases op with
  | setModel t => exact Iff.rfl
  | adopt kept d all =>
    simp only [apply, adopt, Operation.KeepsActive]
    split
    next accepted =>
      rw [currentAloneActive_setEntityDescriptor_iff]
      simp [setModel, accepted]
    next refused => simp [only, refused]
  | setEntityDescriptor d =>
    rw [apply, currentAloneActive_setEntityDescriptor_iff, EntityModel.OnlyActive.iff_eq only]
    rfl
  | setConfigurationDescriptor configuration d =>
    exact iff_of_true (currentAloneActive_setConfigurationDescriptor only configuration d) trivial
  | setCurrentConfiguration configuration =>
    exact iff_of_true (e.currentAloneActive_setCurrentConfiguration configuration) trivial
  | _ => exact iff_of_true (currentAloneActive_of_spares only rfl) trivial

/-- In every state of a run no configuration but the current one is marked as active exactly if each ENTITY
descriptor names the configuration that is marked, and each model that is taken over or given has no mark on
another configuration than is current then. -/
theorem current_alone_active_throughout_iff (identity : EntityIdentity) (settings : Settings)
    (now : Duration) (ops : List Operation) :
    let start := new identity settings now
    (∀ before after, ops = before ++ after → ∀ i m,
        (start.run before).model.configurations.get? i = some m → m.dynamic.isActive = true →
          i = (start.run before).currentConfiguration) ↔
      ∀ before op after, ops = before ++ op :: after → op.KeepsActive (start.run before) := by
  intro start
  have first : start.CurrentAloneActive := by
    intro i m found
    cases found
  exact throughout_foldl_iff (fun e op only => currentAloneActive_apply_iff (e := e) only op) first ops

def redescribed : List Operation :=
  [.setConfigurationDescriptor 0 {}, .setEntityDescriptor { currentConfiguration := 1 },
    .setConfigurationDescriptor 1 {}]

/-- A configuration stays marked as active when an ENTITY descriptor names another one as current, so that
two are marked as soon as that one is learned; and when a model is taken over from a device whose current
configuration is another one. -/
theorem marks_left_behind :
    let found := new { capabilities := .aemSupported } {} .zero
    let other := found.run [.setConfigurationDescriptor 0 {}, .setConfigurationDescriptor 1 {}]
    let adopted := found.run [.adopt other.model { configurationsCount := 2, currentConfiguration := 1 } true]
    ((found.run redescribed).currentConfiguration = 1 ∧
      (found.run redescribed).model.isActive 0 = true ∧
      (found.run redescribed).model.isActive 1 = true) ∧
    other.model.OnlyActive other.currentConfiguration ∧
      adopted.currentConfiguration = 1 ∧ adopted.model.isActive 0 = true ∧
      ¬ adopted.model.OnlyActive adopted.currentConfiguration := by
  decide

end RemoteEntity

end AvbEntity
