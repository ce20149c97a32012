import AvbEntity.Proofs.Entity.Fatal
import Mathlib.Data.List.Induction

namespace AvbEntity

def Operation.identity? : Operation → Option EntityIdentity
  | .setIdentity identity => some identity
  | _ => none

namespace RemoteEntity

def Readable (e : RemoteEntity) : Prop := e.isFatal = false ∧ e.identity.supportsAem = true

instance (e : RemoteEntity) : Decidable e.Readable := inferInstanceAs (Decidable (_ ∧ _))

theorem exists_readModel_error {e : RemoteEntity} (closed : ¬ e.Readable) :
    ∃ fault, e.readModel = .error fault := by
  unfold readModel
  by_cases fatal : e.isFatal = true
  · exact ⟨_, if_pos fatal⟩
  · rw [Bool.not_eq_true] at fatal
    have aem : e.identity.supportsAem = false := by
      rw [← Bool.not_eq_true]
      exact fun aem => closed ⟨fatal, aem⟩
    exact ⟨_, by rw [fatal, aem]; rfl⟩

theorem get?_models (e : RemoteEntity) (c : Category) (configuration index : UInt16) :
    (e.models c configuration).get? index = e.model.find? ⟨c, configuration, index⟩ := by
  unfold models EntityModel.find?
  cases e.model.configurations.get? configuration <;> rfl

theorem readDescriptor_eq_ok_iff {e : RemoteEntity} {c : Category} {configuration index : UInt16}
    {m : c.Model} :
    e.readDescriptor c configuration index = .ok m ↔
      e.Readable ∧ e.model.find? ⟨c, configuration, index⟩ = some m := by
  by_cases readable : e.Readable
  · simp only [readDescriptor, readConfiguration_of_readable readable.1 readable.2, EntityModel.find?,
      readable, true_and]
    cases e.model.configurations.get? configuration with
    | none => simp [bind, Except.bind]
    | some t =>
      simp only [bind, Except.bind, Option.bind_some]
      cases (t.models c).get? index <;> simp
  · obtain ⟨fault, closed⟩ := exists_readModel_error readable
    simp [readDescriptor, readConfiguration, closed, readable, bind, Except.bind]

theorem hasDescriptor_iff {e : RemoteEntity} {c : Category} {configuration index : UInt16} :
    e.hasDescriptor c configuration index = true ↔
      ∃ m, e.readDescriptor c configuration index = .ok m := by
  unfold hasDescriptor
  cases e.readDescriptor c configuration index <;> simp [Except.isOk, Except.toBool]

theorem forall_contains_iff_hasDescriptor (e : RemoteEntity) (c : Category) (configuration : UInt16) :
    (∀ index, (e.models c configuration).contains index = true ↔
        e.hasDescriptor c configuration index = true) ↔
      e.Readable ∨ e.models c configuration = ∅ := by
  have there : ∀ index, (e.models c configuration).contains index = true ↔
      ∃ m, e.model.find? ⟨c, configuration, index⟩ = some m := by
    intro index
    rw [SortedMap.contains, get?_models, Option.isSome_iff_exists]
  simp only [there, hasDescriptor_iff, readDescriptor_eq_ok_iff]
  constructor
  · intro agree
    by_cases readable : e.Readable
    · exact .inl readable
    · right
      apply SortedMap.ext_get?
      intro index
      rw [get?_models, SortedMap.get?_empty, Option.eq_none_iff_forall_ne_some]
      intro m found
      obtain ⟨n, opened, -⟩ := (agree index).mp ⟨m, found⟩
      exact readable opened
  · intro given index
    rcases given with readable | empty
    · simp [readable]
    · have none : e.model.find? ⟨c, configuration, index⟩ = none := by
        rw [← get?_models, empty, SortedMap.get?_empty]
      simp [none]

theorem supportsAem_apply (e : RemoteEntity) (op : Operation) :
    (e.apply op).identity.supportsAem = (op.identity?.getD e.identity).supportsAem := by
  by_cases update : op.isUpdate = true
  · rw [apply_update e update]
    cases op <;> first | rfl | cases update
  cases op with
  | setEntityDescriptor d =>
    simp only [apply, setEntityDescriptor]
    split <;> rfl
  | adopt kept d all =>
    simp only [apply, adopt, setEntityDescriptor]
    split
    · split <;> rfl
    · rfl
  | take k question =>
    simp only [apply, take]
    split <;> rfl
  | finish now =>
    simp only [apply, finish]
    split <;> rfl
  | _ => first | exact absurd rfl update | rfl

/-- Whether an entity has a model of its own is up to the identity it was given last. -/
theorem supportsAem_run (e : RemoteEntity) (ops : List Operation) :
    (e.run ops).identity.supportsAem =
      ((ops.filterMap Operation.identity?).getLast?.getD e.identity).supportsAem := by
  induction ops using List.reverseRecOn with
  | nil => rfl
  | append_singleton ops op ih =>
    rw [run_concat, supportsAem_apply, List.filterMap_append, List.getLast?_append]
    cases given : op.identity? with
    | none => simpa [given] using ih
    | some identity => simp [given]

theorem readable_run_iff (identity : EntityIdentity) (settings : Settings) (now : Duration)
    (ops : List Operation) :
    ((new identity settings now).run ops).Readable ↔
      (¬ ∃ before cause after, ops = before ++ cause :: after ∧
          cause.Condemns ((new identity settings now).run before)) ∧
        ((ops.filterMap Operation.identity?).getLast?.getD identity).supportsAem = true := by
  have never : (new identity settings now).isFatal ≠ true := Bool.false_ne_true
  have causes := isFatal_run_iff (new identity settings now) ops
  rw [or_iff_right never] at causes
  rw [Readable, supportsAem_run, ← causes, Bool.not_eq_true]
  rfl

/-- After any run, the read of one model gives what the bulk view has, as long as the model can be read. So
the two agree about a category in a configuration exactly if no operation of the run condemned the entity
and the identity that it was given last is that of an entity with a model, or nothing of the category is
there. -/
theorem bulk_agrees_iff (identity : EntityIdentity) (settings : Settings) (now : Duration)
    (ops : List Operation) (c : Category) (configuration : UInt16) :
    let start := new identity settings now
    let e := start.run ops
    (∀ index m, e.readDescriptor c configuration index = .ok m ↔
        e.Readable ∧ (e.models c configuration).get? index = some m) ∧
      (∀ index, e.hasDescriptor c configuration index = true ↔
        ∃ m, e.readDescriptor c configuration index = .ok m) ∧
      ((∀ index, (e.models c configuration).contains index = true ↔
          e.hasDescriptor c configuration index = true) ↔
        ((¬ ∃ before cause after, ops = before ++ cause :: after ∧ cause.Condemns (start.run before)) ∧
            ((ops.filterMap Operation.identity?).getLast?.getD identity).supportsAem = true) ∨
          e.models c configuration = ∅) := by
  intro start e
  refine ⟨?_, fun _ => hasDescriptor_iff, ?_⟩
  · intro index m
    rw [readDescriptor_eq_ok_iff, get?_models]
  · rw [← readable_run_iff]
    exact forall_contains_iff_hasDescriptor e c configuration

/-- The bulk view shows a model after a fatal error, and of an entity whose identity has come to be one
without a model, where the read of the same model fails. -/
theorem bulk_view_passes_gate :
    let found := (new { capabilities := .aemSupported } {} .zero).run [.setDescriptor .streamInput 0 0 default]
    let failed := found.apply .fail
    let replaced := found.apply (.setIdentity {})
    ((failed.models .streamInput 0).contains 0 = true ∧ failed.hasDescriptor .streamInput 0 0 = false) ∧
      (replaced.models .streamInput 0).contains 0 = true ∧
        replaced.hasDescriptor .streamInput 0 0 = false := by
  decide

end RemoteEntity

end AvbEntity
