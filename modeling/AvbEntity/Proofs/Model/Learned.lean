import AvbEntity.Proofs.Entity.Fatal
import AvbEntity.Proofs.Model.Edit
import Mathlib.Data.Finset.Card
import Mathlib.Data.List.Induction

namespace AvbEntity

namespace ModelEdit

def isIncremental : ModelEdit → Bool
  | .replace _ | .rewrite .. => false
  | _ => true

theorem isIncremental_of_isQuiet {edit : ModelEdit} (quiet : edit.isQuiet = true) :
    edit.isIncremental = true := by
  cases edit <;> first | rfl | cases quiet

/-- The static half of a configuration is that of its descriptor, or as it was before. -/
theorem static_apply_cases {t : EntityModel} {edit : ModelEdit}
    (incremental : edit.isIncremental = true) {configuration : UInt16} {m : ConfigurationModel}
    (h : (edit.apply t).configurations.get? configuration = some m) :
    (∃ d active, edit = .describe configuration d active) ∨
      m.static = (t.configurations.getD configuration default).static := by
  have touched : ∀ (other : UInt16) (f : ConfigurationModel → ConfigurationModel),
      (∀ m, (f m).static = m.static) →
      (t.modifyConfiguration other f).configurations.get? configuration = some m →
      m.static = (t.configurations.getD configuration default).static := by
    intro other f keeps found
    by_cases same : configuration = other
    · subst same
      rw [EntityModel.get?_modifyConfiguration_self, Option.some.injEq] at found
      rw [← found, keeps]
    · rw [EntityModel.get?_modifyConfiguration_ne t same] at found
      simp [SortedMap.getD, found]
  cases edit with
  | replace u => cases incremental
  | rewrite p f => cases incremental
  | own static dynamic =>
    right
    simp only [apply] at h
    simp [SortedMap.getD, h]
  | activate other =>
    right
    simp only [apply, SortedMap.get?_mapEntries, Option.map_eq_some_iff] at h
    obtain ⟨before, found, rfl⟩ := h
    simp [SortedMap.getD, found]
  | describe other d active =>
    by_cases same : configuration = other
    · subst same
      exact .inl ⟨d, active, rfl⟩
    · right
      rw [apply, EntityModel.get?_modifyConfiguration_ne t same] at h
      simp [SortedMap.getD, h]
  | adjust other f =>
    exact .inr (touched other (fun m => { m with dynamic := f m.dynamic }) (fun _ => rfl) h)
  | learn p d => exact .inr (touched p.configuration _ (fun m => m.static_upsert ..) h)
  | update p f => exact .inr (touched p.configuration _ (fun m => m.static_upsert ..) h)

end ModelEdit

/-- What a model owes to the edits that made it: a static half that is not the default was learned, and
what was learned is there. -/
structure Provenance (edits : List ModelEdit) (t : EntityModel) : Prop where
  configuration : ∀ configuration m, t.configurations.get? configuration = some m →
    (∃ d active, .describe configuration d active ∈ edits) ∨ m.static = {}
  descriptor : ∀ p m, t.find? p = some m → (∃ d, .learn p d ∈ edits) ∨ m.static = default
  kept : ∀ p d, .learn p d ∈ edits → (t.find? p).isSome

theorem Provenance.concat {edits : List ModelEdit} {t : EntityModel} (known : Provenance edits t)
    {edit : ModelEdit} (incremental : edit.isIncremental = true) :
    Provenance (edits ++ [edit]) (edit.apply t) where
  configuration := by
    intro configuration m found
    rcases ModelEdit.static_apply_cases incremental found with ⟨d, active, rfl⟩ | static
    · exact .inl ⟨d, active, by simp⟩
    · rw [static]
      cases before : t.configurations.get? configuration with
      | none =>
        right
        simp only [SortedMap.getD, before]
        rfl
      | some n =>
        simp only [SortedMap.getD, before, Option.getD_some]
        rcases known.configuration configuration n before with ⟨d, active, member⟩ | default
        · exact .inl ⟨d, active, List.mem_append_left _ member⟩
        · exact .inr default
  descriptor := by
    intro p m found
    have earlier : ((t.find? p).getD default).static = m.static →
        (∃ d, .learn p d ∈ edits ++ [edit]) ∨ m.static = default := by
      intro static
      cases before : t.find? p with
      | none =>
        right
        rw [← static, before]
        rfl
      | some n =>
        rw [before, Option.getD_some] at static
        rcases known.descriptor p n before with ⟨d, member⟩ | default
        · exact .inl ⟨d, List.mem_append_left _ member⟩
        · exact .inr (static ▸ default)
    rcases ModelEdit.find?_apply_cases t edit p with
      same | ⟨u, rfl⟩ | ⟨d, rfl, _⟩ | ⟨f, rfl, _⟩ | ⟨f, rfl, after⟩
    · apply earlier
      rw [← same, found, Option.getD_some]
    · cases incremental
    · exact .inl ⟨d, by simp⟩
    · cases incremental
    · apply earlier
      rw [after, Option.some.injEq] at found
      rw [← found]
  kept := by
    intro p d member
    rcases List.mem_append.mp member with member | last
    · have before := known.kept p d member
      rcases ModelEdit.find?_apply_cases t edit p with
        same | ⟨u, rfl⟩ | ⟨x, rfl, after⟩ | ⟨f, rfl, after⟩ | ⟨f, rfl, after⟩
      · rw [same]
        exact before
      · cases incremental
      all_goals simp [after]
    · obtain rfl := List.mem_singleton.mp last
      simp [ModelEdit.apply]

theorem provenance_foldl {edits : List ModelEdit} (incremental : ∀ edit ∈ edits, edit.isIncremental) :
    Provenance edits (edits.foldl ModelEdit.apply {}) := by
  induction edits using List.reverseRecOn with
  | nil =>
    refine ⟨?_, ?_, ?_⟩
    · intro configuration m found
      cases found
    · intro p m found
      cases found
    · intro p d member
      cases member
  | append_singleton edits edit ih =>
    rw [List.foldl_append]
    have before := ih fun other member => incremental other (List.mem_append_left _ member)
    exact before.concat (incremental edit (by simp))

namespace Operation

def isIncremental : Operation → Bool
  | .setModel _ | .adopt .. | .modifyStatic .. | .modifyDynamic .. => false
  | _ => true

def learnedPlace? : Operation → Option Place
  | .setDescriptor c configuration index _ => some ⟨c, configuration, index⟩
  | .setStrings configuration index _ => some ⟨.strings, configuration, index⟩
  | _ => none

end Operation

namespace RemoteEntity

/-- Of the operations that let content in one thing at a time, four are descriptors, and no other one
brings a static half. -/
theorem edits_cases (e : RemoteEntity) {op : Operation} (incremental : op.isIncremental = true) :
    (∃ d, op = .setEntityDescriptor d) ∨
      (∃ configuration d, op = .setConfigurationDescriptor configuration d) ∨
      (∃ c configuration index d, op = .setDescriptor c configuration index d) ∨
      (∃ configuration index d, op = .setStrings configuration index d) ∨
      (op.learnedPlace? = none ∧ ∀ edit ∈ e.edits op, edit.isQuiet = true) := by
  cases op with
  | setModel | adopt | modifyStatic | modifyDynamic => cases incremental
  | setEntityDescriptor d => exact .inl ⟨d, rfl⟩
  | setConfigurationDescriptor configuration d => exact .inr (.inl ⟨configuration, d, rfl⟩)
  | setDescriptor c configuration index d =>
    exact .inr (.inr (.inl ⟨c, configuration, index, d, rfl⟩))
  | setStrings configuration index d => exact .inr (.inr (.inr (.inl ⟨configuration, index, d, rfl⟩)))
  | _ =>
    refine .inr (.inr (.inr (.inr ⟨rfl, ?_⟩)))
    first | exact e.isQuiet_edits_update rfl | simp [edits]

theorem mem_edits_describe {e : RemoteEntity} {op : Operation} (incremental : op.isIncremental = true)
    {configuration : UInt16} {d : ConfigurationDescriptor} {active : Bool}
    (member : .describe configuration d active ∈ e.edits op) :
    op = .setConfigurationDescriptor configuration d := by
  rcases edits_cases e incremental with
    ⟨x, rfl⟩ | ⟨other, x, rfl⟩ | ⟨c, other, index, x, rfl⟩ | ⟨other, index, x, rfl⟩ | ⟨_, quiet⟩
  · simp only [edits, entityEdits] at member
    split at member <;> simp at member
  · simp only [edits, List.mem_singleton, ModelEdit.describe.injEq] at member
    rw [member.1, member.2.1]
  · simp [edits] at member
  · simp [edits] at member
  · cases quiet _ member

theorem mem_edits_learn_iff (e : RemoteEntity) {op : Operation} (incremental : op.isIncremental = true)
    (p : Place) : (∃ d, .learn p d ∈ e.edits op) ↔ op.learnedPlace? = some p := by
  rcases edits_cases e incremental with
    ⟨x, rfl⟩ | ⟨other, x, rfl⟩ | ⟨c, other, index, x, rfl⟩ | ⟨other, index, x, rfl⟩ |
      ⟨noPlace, quiet⟩
  · simp only [edits, entityEdits, Operation.learnedPlace?]
    split <;> simp
  · simp [edits, Operation.learnedPlace?]
  · constructor
    · rintro ⟨d, member⟩
      simp only [edits, List.mem_singleton, ModelEdit.learn.injEq] at member
      rw [member.1]
      rfl
    · intro place
      cases place
      exact ⟨x, by simp [edits]⟩
  · constructor
    · rintro ⟨d, member⟩
      simp only [edits, List.mem_cons, ModelEdit.learn.injEq, reduceCtorEq, List.not_mem_nil,
        or_self, or_false] at member
      rw [member.1]
      rfl
    · intro place
      cases place
      exact ⟨x, by simp [edits]⟩
  · rw [noPlace]
    constructor
    · rintro ⟨d, member⟩
      cases quiet _ member
    · intro place
      cases place

theorem isIncremental_edits {e : RemoteEntity} {op : Operation} (incremental : op.isIncremental = true)
    (sound : (e.apply op).isFatal = false) : ∀ edit ∈ e.edits op, edit.isIncremental = true := by
  intro edit member
  rcases edits_cases e incremental with
    ⟨x, rfl⟩ | ⟨other, x, rfl⟩ | ⟨c, other, index, x, rfl⟩ | ⟨other, index, x, rfl⟩ | ⟨_, quiet⟩
  · rw [apply, isFatal_setEntityDescriptor, Bool.or_eq_false_iff] at sound
    simp only [edits, entityEdits, sound.2, Bool.false_eq_true, ↓reduceIte, List.mem_singleton]
      at member
    rw [member]
    rfl
  · simp only [edits, List.mem_singleton] at member
    rw [member]
    rfl
  · simp only [edits, List.mem_singleton] at member
    rw [member]
    rfl
  · simp only [edits, List.mem_cons, List.not_mem_nil, or_false] at member
    rcases member with rfl | rfl <;> rfl
  · exact ModelEdit.isIncremental_of_isQuiet (quiet edit member)

theorem exists_of_mem_runEdits {e : RemoteEntity} {ops : List Operation} {edit : ModelEdit}
    (member : edit ∈ e.runEdits ops) : ∃ before, ∃ op ∈ ops, edit ∈ edits before op := by
  induction ops generalizing e with
  | nil => cases member
  | cons op ops ih =>
    rcases List.mem_append.mp member with member | member
    · exact ⟨e, op, List.mem_cons_self, member⟩
    · obtain ⟨before, other, later, found⟩ := ih member
      exact ⟨before, other, List.mem_cons_of_mem _ later, found⟩

theorem exists_edits_subset_runEdits (e : RemoteEntity) {ops : List Operation} {op : Operation}
    (member : op ∈ ops) : ∃ before, ∀ edit ∈ edits before op, edit ∈ e.runEdits ops := by
  induction ops generalizing e with
  | nil => cases member
  | cons first ops ih =>
    rcases List.mem_cons.mp member with rfl | later
    · exact ⟨e, fun edit found => List.mem_append_left _ found⟩
    · obtain ⟨before, found⟩ := ih (e.apply first) later
      exact ⟨before, fun edit h => List.mem_append_right _ (found edit h)⟩

theorem isIncremental_runEdits {e : RemoteEntity} {ops : List Operation}
    (incremental : ∀ op ∈ ops, op.isIncremental = true) (sound : (e.run ops).isFatal = false) :
    ∀ edit ∈ e.runEdits ops, edit.isIncremental = true := by
  induction ops generalizing e with
  | nil =>
    intro edit member
    cases member
  | cons op ops ih =>
    intro edit member
    have soundNow : (e.apply op).isFatal = false := by
      by_contra fatal
      have stays := isFatal_run (Bool.eq_true_of_not_eq_false fatal) ops
      exact Bool.false_ne_true (sound.symm.trans stays)
    rcases List.mem_append.mp member with member | member
    · exact isIncremental_edits (incremental op List.mem_cons_self) soundNow edit member
    · exact ih (fun other later => incremental other (List.mem_cons_of_mem _ later)) sound edit member

def Learned (ops : List Operation) (p : Place) : Prop := ∃ op ∈ ops, op.learnedPlace? = some p

instance (ops : List Operation) (p : Place) : Decidable (Learned ops p) :=
  inferInstanceAs (Decidable (∃ op ∈ ops, op.learnedPlace? = some p))

def learnedIndices (ops : List Operation) (c : Category) (configuration : UInt16) : Finset UInt16 :=
  (ops.filterMap fun op => op.learnedPlace?.bind fun p =>
    if p.category = c ∧ p.configuration = configuration then some p.index else none).toFinset

theorem mem_learnedIndices {ops : List Operation} {c : Category} {configuration index : UInt16} :
    index ∈ learnedIndices ops c configuration ↔ Learned ops ⟨c, configuration, index⟩ := by
  simp only [learnedIndices, List.mem_toFinset, List.mem_filterMap, Option.bind_eq_some_iff, Learned,
    Option.ite_none_right_eq_some, Option.some.injEq]
  constructor
  · rintro ⟨op, member, ⟨_, _, _⟩, place, ⟨rfl, rfl⟩, rfl⟩
    exact ⟨op, member, place⟩
  · rintro ⟨op, member, place⟩
    exact ⟨op, member, _, place, ⟨rfl, rfl⟩, rfl⟩

section Provenance

variable {identity : EntityIdentity} {settings : Settings} {now : Duration} {ops : List Operation}

theorem provenance_run (incremental : ∀ op ∈ ops, op.isIncremental = true)
    (sound : ((new identity settings now).run ops).isFatal = false) :
    Provenance ((new identity settings now).runEdits ops) ((new identity settings now).run ops).model := by
  rw [model_run]
  exact provenance_foldl (isIncremental_runEdits incremental sound)

theorem configuration_learned_or_default (incremental : ∀ op ∈ ops, op.isIncremental = true)
    (sound : ((new identity settings now).run ops).isFatal = false) {configuration : UInt16}
    {m : ConfigurationModel}
    (found : ((new identity settings now).run ops).model.configurations.get? configuration = some m) :
    (∃ d, .setConfigurationDescriptor configuration d ∈ ops) ∨ m.static = {} := by
  rcases (provenance_run incremental sound).configuration configuration m found with
    ⟨d, active, member⟩ | default
  · obtain ⟨before, op, later, edit⟩ := exists_of_mem_runEdits member
    obtain rfl := mem_edits_describe (incremental op later) edit
    exact .inl ⟨d, later⟩
  · exact .inr default

theorem descriptor_learned_or_default (incremental : ∀ op ∈ ops, op.isIncremental = true)
    (sound : ((new identity settings now).run ops).isFatal = false) {p : Place} {m : p.category.Model}
    (found : ((new identity settings now).run ops).model.find? p = some m) :
    Learned ops p ∨ m.static = default := by
  rcases (provenance_run incremental sound).descriptor p m found with ⟨d, member⟩ | default
  · obtain ⟨before, op, later, edit⟩ := exists_of_mem_runEdits member
    exact .inl ⟨op, later, (mem_edits_learn_iff before (incremental op later) p).mp ⟨d, edit⟩⟩
  · exact .inr default

theorem Learned.isSome_find? {p : Place} (learned : Learned ops p)
    (incremental : ∀ op ∈ ops, op.isIncremental = true)
    (sound : ((new identity settings now).run ops).isFatal = false) :
    (((new identity settings now).run ops).model.find? p).isSome := by
  obtain ⟨op, member, place⟩ := learned
  obtain ⟨before, subset⟩ := exists_edits_subset_runEdits (new identity settings now) member
  obtain ⟨d, edit⟩ := (mem_edits_learn_iff before (incremental op member) p).mpr place
  exact (provenance_run incremental sound).kept p d (subset _ edit)

end Provenance

theorem forall_contains_mem_iff {α : Type} {m : SortedMap UInt16 α} {s : Finset UInt16}
    (bound : ∀ index ∈ s, m.contains index = true) :
    (∀ index, m.contains index = true → index ∈ s) ↔ s.card = m.size := by
  have subset : s ⊆ m.keys.toFinset := by
    intro index member
    exact List.mem_toFinset.mpr (SortedMap.contains_iff_mem_keys.mp (bound index member))
  have count : m.keys.toFinset.card = m.size := by
    rw [List.toFinset_card_of_nodup m.nodup_keys, m.length_keys]
  rw [← count]
  constructor
  · intro all
    have equal : s = m.keys.toFinset := by
      refine subset.antisymm ?_
      intro index member
      exact all index (SortedMap.contains_iff_mem_keys.mpr (List.mem_toFinset.mp member))
    rw [equal]
  · intro card index contained
    rw [Finset.eq_of_subset_of_card_le subset card.ge]
    exact List.mem_toFinset.mpr (SortedMap.contains_iff_mem_keys.mp contained)

theorem isComplete_of_isCacheable {e : RemoteEntity} (cacheable : e.isCacheable = true)
    {configuration : UInt16} {m : ConfigurationModel}
    (found : e.model.configurations.get? configuration = some m) : m.isComplete = true :=
  (isCacheable_iff.mp cacheable).2.2 configuration m found

/-- What a cacheable model holds was learned, or is a placeholder: a configuration that declares and
holds nothing, or a descriptor with the default static half. In each category of each configuration
there is no placeholder exactly if as many descriptors were learned as are declared. -/
theorem cacheable_learned_or_placeholder (identity : EntityIdentity) (settings : Settings)
    (now : Duration) (ops : List Operation) (incremental : ∀ op ∈ ops, op.isIncremental = true) :
    let e := (new identity settings now).run ops
    e.isCacheable = true → ∀ configuration m,
      e.model.configurations.get? configuration = some m →
        ((∃ d, .setConfigurationDescriptor configuration d ∈ ops) ∨
          (m.static = {} ∧ ∀ c, m.models c = ∅)) ∧
        ∀ c : Category,
          (∀ index n, (m.models c).get? index = some n →
            Learned ops ⟨c, configuration, index⟩ ∨ n.static = default) ∧
          ((∀ index, (m.models c).contains index = true → Learned ops ⟨c, configuration, index⟩) ↔
            (learnedIndices ops c configuration).card = m.declared c) := by
  intro e cacheable configuration m found
  have sound : e.isFatal = false := by
    simp only [isCacheable, Bool.and_eq_true, Bool.not_eq_true'] at cacheable
    exact cacheable.1.1
  have complete := ConfigurationModel.isComplete_iff.mp (isComplete_of_isCacheable cacheable found)
  have atPlace : ∀ c index, e.model.find? ⟨c, configuration, index⟩ = (m.models c).get? index := by
    intro c index
    simp [EntityModel.find?, found]
  constructor
  · rcases configuration_learned_or_default incremental sound found with learned | default
    · exact .inl learned
    · refine .inr ⟨default, fun c => ?_⟩
      have none : (m.models c).size = 0 := by
        rw [← complete c, ConfigurationModel.declared, default]
        rfl
      exact SortedMap.ext (List.length_eq_zero_iff.mp none)
  · intro c
    constructor
    · intro index n held
      exact descriptor_learned_or_default incremental sound ((atPlace c index).trans held)
    · simp only [← mem_learnedIndices, complete c]
      apply forall_contains_mem_iff
      intro index member
      rw [SortedMap.contains, ← atPlace]
      exact (mem_learnedIndices.mp member).isSome_find? incremental sound

def halfLearned : List Operation :=
  [.setConfigurationDescriptor 0 { static := { descriptorCounts := .ofList [(.streamInput, 2)] } },
    .setDescriptor .streamInput 0 0 default, .setFormat .input 1 7]

theorem half_learned_accounted :
    (∀ op ∈ halfLearned, op.isIncremental = true) ∧
      ((new {} {} .zero).run halfLearned).isCacheable = true ∧
      ∀ m, ((new {} {} .zero).run halfLearned).model.configurations.get? 0 = some m →
        ((∀ index, (m.models .streamInput).contains index = true →
            Learned halfLearned ⟨.streamInput, 0, index⟩) ↔
          (learnedIndices halfLearned .streamInput 0).card = m.declared .streamInput) :=
  ⟨by decide, by decide, fun m found =>
    ((cacheable_learned_or_placeholder {} {} .zero halfLearned (by decide) (by decide) 0 m found).2
      .streamInput).2⟩

/-- A model is cacheable with a descriptor, or with a configuration, that was never learned. -/
theorem placeholder_is_cacheable :
    ((∀ op ∈ halfLearned, op.isIncremental = true) ∧
      ((new {} {} .zero).run halfLearned).isCacheable = true ∧
      (((new {} {} .zero).run halfLearned).model.find? ⟨.streamInput, 0, 1⟩).isSome = true ∧
      ¬ Learned halfLearned ⟨.streamInput, 0, 1⟩) ∧
    (((new {} {} .zero).run [.setConfigurationName 0 "Main"]).isCacheable = true ∧
      ((new {} {} .zero).run [.setConfigurationName 0 "Main"]).knowsConfiguration 0 = true ∧
      ∀ d, .setConfigurationDescriptor 0 d ∉ [Operation.setConfigurationName 0 "Main"]) := by
  refine ⟨⟨by decide, by decide, by decide, by decide⟩, by decide, by decide, ?_⟩
  intro d
  simp

end RemoteEntity

end AvbEntity
