import AvbEntity.Proofs.LastEvent
import AvbEntity.Proofs.Model.Edit

namespace AvbEntity

variable {Q : (c : Category) → c.Model → Prop}

namespace EntityModel

def Each (Q : (c : Category) → c.Model → Prop) (t : EntityModel) : Prop :=
  ∀ p m, t.find? p = some m → Q p.category m

variable {t : EntityModel}

theorem each_empty : ({} : EntityModel).Each Q := by
  intro p m found
  cases found

theorem each_congr {u : EntityModel} (same : ∀ p, u.find? p = t.find? p) : u.Each Q ↔ t.Each Q := by
  simp only [Each, same]

theorem each_modifyPlace_iff (before : t.Each Q) (p : Place) (f : p.category.Model → p.category.Model) :
    (t.modifyPlace p f).Each Q ↔ Q p.category (f ((t.find? p).getD default)) := by
  constructor
  · intro after
    exact after p _ (t.find?_modifyPlace_self p f)
  · intro here q m found
    by_cases same : q = p
    · subst same
      rw [t.find?_modifyPlace_self, Option.some.injEq] at found
      exact found ▸ here
    · rw [t.find?_modifyPlace_ne same] at found
      exact before q m found

end EntityModel

namespace ModelEdit

def isStill : ModelEdit → Bool
  | .own .. | .activate _ | .describe .. | .adjust .. => true
  | _ => false

def KeepsEach (Q : (c : Category) → c.Model → Prop) (t : EntityModel) : ModelEdit → Prop
  | .replace u => u.Each Q
  | .learn p d => Q p.category (p.category.learn d ((t.find? p).getD default))
  | .rewrite p f =>
    Q p.category { (t.find? p).getD default with static := f ((t.find? p).getD default).static }
  | .update p f =>
    Q p.category { (t.find? p).getD default with dynamic := f ((t.find? p).getD default).dynamic }
  | _ => True

variable {t : EntityModel} {edit : ModelEdit}

theorem find?_apply_of_still (still : edit.isStill = true) (p : Place) :
    (edit.apply t).find? p = t.find? p := by
  rcases find?_apply_cases t edit p with same | ⟨u, rfl⟩ | ⟨d, rfl, -⟩ | ⟨f, rfl, -⟩ | ⟨f, rfl, -⟩
  · exact same
  all_goals cases still

theorem keepsEach_of_still (still : edit.isStill = true) : edit.KeepsEach Q t := by
  cases edit <;> first | exact trivial | cases still

theorem each_apply_iff (before : t.Each Q) (edit : ModelEdit) :
    (edit.apply t).Each Q ↔ edit.KeepsEach Q t := by
  by_cases still : edit.isStill = true
  · exact iff_of_true ((EntityModel.each_congr (find?_apply_of_still still)).mpr before)
      (keepsEach_of_still still)
  · cases edit with
    | replace u => exact Iff.rfl
    | learn p d => exact EntityModel.each_modifyPlace_iff before p _
    | rewrite p f => exact EntityModel.each_modifyPlace_iff before p _
    | update p f => exact EntityModel.each_modifyPlace_iff before p _
    | _ => exact absurd rfl still

theorem find?_foldl_of_still {edits : List ModelEdit} (still : ∀ edit ∈ edits, edit.isStill = true)
    (p : Place) : (edits.foldl apply t).find? p = t.find? p := by
  induction edits generalizing t with
  | nil => rfl
  | cons edit edits ih =>
    rw [List.foldl_cons, ih fun other later => still other (List.mem_cons_of_mem _ later)]
    exact find?_apply_of_still (still edit List.mem_cons_self) p

theorem each_foldl_iff (before : t.Each Q) {edits : List ModelEdit}
    (still : ∀ edit ∈ edits.tail, edit.isStill = true) :
    (edits.foldl apply t).Each Q ↔ ∀ edit ∈ edits, edit.KeepsEach Q t := by
  cases edits with
  | nil => simpa using before
  | cons edit edits =>
    rw [List.tail_cons] at still
    rw [List.foldl_cons, EntityModel.each_congr (find?_foldl_of_still still), each_apply_iff before,
      List.forall_mem_cons]
    exact (and_iff_left fun other later => keepsEach_of_still (still other later)).symm

end ModelEdit

/-- What an operation has to bring in order to keep a property of every descriptor. -/
def Operation.KeepsEach (Q : (c : Category) → c.Model → Prop) (e : RemoteEntity) : Operation → Prop
  | .adopt kept d all => e.isAdvertised = false → e.accepts kept d all = true → kept.Each Q
  | op => ∀ edit ∈ e.edits op, edit.KeepsEach Q e.model

theorem Operation.keepsEach_setEntityDescriptor (e : RemoteEntity) (d : EntityDescriptor) :
    (Operation.setEntityDescriptor d).KeepsEach Q e := by
  simp only [Operation.KeepsEach, RemoteEntity.edits, RemoteEntity.entityEdits]
  split <;> simp [ModelEdit.KeepsEach, EntityModel.each_empty]

namespace RemoteEntity

theorem isStill_tail_edits (e : RemoteEntity) {op : Operation}
    (adopts : ∀ kept d all, op ≠ .adopt kept d all) :
    ∀ edit ∈ (e.edits op).tail, edit.isStill = true := by
  by_cases update : op.isUpdate = true
  · rcases e.edits_update_cases update with
      ⟨f, -, made⟩ | ⟨i, rfl⟩ | ⟨i, name, rfl⟩ | ⟨i, base, count, rfl⟩ | ⟨c, i, index, f, -, made⟩
    · simp [made]
    · simp [edits, ModelEdit.isStill]
    · simp [edits]
    · simp [edits]
    · simp [made]
  cases op with
  | adopt kept d all => exact absurd rfl (adopts kept d all)
  | setEntityDescriptor d =>
    simp only [edits, entityEdits]
    split <;> simp
  | _ => first | exact absurd rfl update | simp [edits, ModelEdit.isStill]

theorem each_apply_iff {e : RemoteEntity} (before : e.model.Each Q) (op : Operation) :
    (e.apply op).model.Each Q ↔ op.KeepsEach Q e := by
  by_cases adopts : ∃ kept d all, op = .adopt kept d all
  · obtain ⟨kept, d, all, rfl⟩ := adopts
    simp only [apply, adopt, Operation.KeepsEach, setEntityDescriptor, setModel]
    by_cases accepted : e.accepts kept d all = true
    · by_cases advertised : e.isAdvertised = true
      · simp [accepted, advertised, fail, EntityModel.each_empty]
      · have same : ∀ p, (describeEntity d kept).find? p = kept.find? p := fun p => rfl
        simp [accepted, advertised, modifyModel, EntityModel.each_congr same]
    · simp [accepted, before]
  · simp only [not_exists] at adopts
    rw [model_apply, ModelEdit.each_foldl_iff before (e.isStill_tail_edits adopts)]
    cases op with
    | adopt kept d all => exact absurd rfl (adopts kept d all)
    | _ => exact Iff.rfl

/-- Every descriptor has a property in every state of a run exactly if each operation keeps it. -/
theorem each_throughout_iff {Keeps : RemoteEntity → Operation → Prop}
    (keeps : ∀ (e : RemoteEntity) (op : Operation), e.model.Each Q → (op.KeepsEach Q e ↔ Keeps e op))
    (identity : EntityIdentity) (settings : Settings) (now : Duration) (ops : List Operation) :
    (∀ before after, ops = before ++ after → ((new identity settings now).run before).model.Each Q) ↔
      ∀ before op after, ops = before ++ op :: after →
        Keeps ((new identity settings now).run before) op := by
  have kept : ∀ (e : RemoteEntity) (op : Operation), e.model.Each Q →
      ((e.apply op).model.Each Q ↔ Keeps e op) :=
    fun e op every => (each_apply_iff every op).trans (keeps e op every)
  exact throughout_foldl_iff kept EntityModel.each_empty ops

end RemoteEntity

end AvbEntity
