import AvbEntity.Entity.Operation
import Mathlib.Data.Finset.Card
import Mathlib.Data.Finset.Range

namespace AvbEntity

namespace SortedMap

theorem contains_of_below {α : Type} {m : SortedMap UInt16 α} {n : UInt16}
    (size : m.size = n.toNat) (below : ∀ c, m.contains c = true → c < n) {c : UInt16}
    (low : c < n) : m.contains c = true := by
  -- the keys are as many numbers below `n` as there are, so none is left out
  have within : m.keys.toFinset.image UInt16.toNat ⊆ Finset.range n.toNat := by
    intro i member
    obtain ⟨k, key, rfl⟩ := Finset.mem_image.mp member
    have bound := below k (contains_iff_mem_keys.mpr (List.mem_toFinset.mp key))
    exact Finset.mem_range.mpr (UInt16.lt_iff_toNat_lt.mp bound)
  have card : (m.keys.toFinset.image UInt16.toNat).card = n.toNat := by
    rw [Finset.card_image_of_injective _ fun a b => UInt16.toNat_inj.mp,
      List.toFinset_card_of_nodup m.nodup_keys, m.length_keys, size]
  have all : m.keys.toFinset.image UInt16.toNat = Finset.range n.toNat :=
    Finset.eq_of_subset_of_card_le within (by rw [Finset.card_range, card])
  have member : c.toNat ∈ m.keys.toFinset.image UInt16.toNat := by
    rw [all]
    exact Finset.mem_range.mpr (UInt16.lt_iff_toNat_lt.mp low)
  obtain ⟨k, key, same⟩ := Finset.mem_image.mp member
  rw [← UInt16.toNat_inj.mp same]
  exact contains_iff_mem_keys.mpr (List.mem_toFinset.mp key)

end SortedMap

namespace RemoteEntity

theorem hasExpectedConfigurations_all_iff {kept : EntityModel} {d : EntityDescriptor} :
    hasExpectedConfigurations kept d true = true ↔
      kept.configurations.size = d.configurationsCount.toNat ∧
        ∀ c m, kept.configurations.get? c = some m → m.isComplete = true := by
  rw [hasExpectedConfigurations, if_pos rfl, EntityModel.isComplete_iff]

theorem hasExpectedConfigurations_current_iff {kept : EntityModel} {d : EntityDescriptor} :
    hasExpectedConfigurations kept d false = true ↔
      ∃ m, kept.configurations.get? d.currentConfiguration = some m ∧ m.isComplete = true := by
  rw [hasExpectedConfigurations, if_neg Bool.false_ne_true]
  cases kept.configurations.get? d.currentConfiguration <;> simp

theorem contradicts_iff {kept : EntityModel} {c : UInt16} {own : ConfigurationModel} :
    contradicts kept c own = true ↔ own.static.descriptorCounts ≠ ∅ ∧
      ∃ other, kept.configurations.get? c = some other ∧
        other.static.descriptorCounts ≠ own.static.descriptorCounts := by
  rw [contradicts, Bool.and_eq_true, Bool.not_eq_true', ← Bool.not_eq_true, SortedMap.isEmpty_iff]
  cases kept.configurations.get? c <;> simp

theorem accepts_iff {e : RemoteEntity} {kept : EntityModel} {d : EntityDescriptor} {all : Bool} :
    e.accepts kept d all = true ↔
      kept.static.vendorName = d.vendorName ∧ kept.static.modelName = d.modelName ∧
        hasExpectedConfigurations kept d all = true ∧
        ∀ c own, e.model.configurations.get? c = some own → ¬ contradicts kept c own = true := by
  simp only [accepts, Bool.and_eq_true, beq_iff_eq, Bool.not_eq_true', List.any_eq_false,
    Prod.forall, ← SortedMap.get?_eq_some_iff, and_assoc]

/-- All that the taking over of a kept model does. -/
theorem adopt_cases (e : RemoteEntity) (kept : EntityModel) (d : EntityDescriptor) (all : Bool) :
    (e.accepts kept d all = false ∧ e.adopt kept d all = (false, e)) ∨
      (e.accepts kept d all = true ∧ e.isAdvertised = false ∧ e.adopt kept d all =
        (true, { e with model := describeEntity d kept, graph := none })) ∨
      (e.accepts kept d all = true ∧ e.isAdvertised = true ∧ e.adopt kept d all =
        (true, { e with model := {}, graph := none, isFatal := true })) := by
  cases accepted : e.accepts kept d all with
  | false => exact .inl ⟨rfl, by simp [adopt, accepted]⟩
  | true =>
    cases advertised : e.isAdvertised with
    | false =>
      refine .inr (.inl ⟨rfl, rfl, ?_⟩)
      simp [adopt, accepted, setEntityDescriptor, setModel, modifyModel, advertised]
    | true =>
      refine .inr (.inr ⟨rfl, rfl, ?_⟩)
      simp [adopt, accepted, setEntityDescriptor, setModel, fail, advertised]

theorem adopt_fst (e : RemoteEntity) (kept : EntityModel) (d : EntityDescriptor) (all : Bool) :
    (e.adopt kept d all).1 = e.accepts kept d all := by
  rcases e.adopt_cases kept d all with ⟨accepted, h⟩ | ⟨accepted, -, h⟩ | ⟨accepted, -, h⟩ <;>
    rw [h, accepted]

section Taken

variable {e : RemoteEntity} {kept : EntityModel} {d : EntityDescriptor} {all : Bool}

theorem adopt_snd_of_fresh (fresh : e.isAdvertised = false) (taken : (e.adopt kept d all).1 = true) :
    (e.adopt kept d all).2 = { e with model := describeEntity d kept, graph := none } := by
  rcases e.adopt_cases kept d all with ⟨-, h⟩ | ⟨-, -, h⟩ | ⟨-, advertised, -⟩
  · rw [h] at taken
    cases taken
  · rw [h]
  · rw [fresh] at advertised
    cases advertised

theorem adopt_snd_of_refused (refused : (e.adopt kept d all).1 = false) :
    (e.adopt kept d all).2 = e := by
  rcases e.adopt_cases kept d all with ⟨-, h⟩ | ⟨-, -, h⟩ | ⟨-, -, h⟩
  · rw [h]
  all_goals
    rw [h] at refused
    cases refused

end Taken

theorem accepts_eq_false_iff {e : RemoteEntity} {kept : EntityModel} {d : EntityDescriptor} {all : Bool} :
    e.accepts kept d all = false ↔
      kept.static.vendorName ≠ d.vendorName ∨ kept.static.modelName ≠ d.modelName ∨
        ¬ hasExpectedConfigurations kept d all = true ∨
        ∃ c own other, e.model.configurations.get? c = some own ∧
          own.static.descriptorCounts ≠ ∅ ∧ kept.configurations.get? c = some other ∧
          other.static.descriptorCounts ≠ own.static.descriptorCounts := by
  have counts : (¬ ∀ c own, e.model.configurations.get? c = some own →
        ¬ contradicts kept c own = true) ↔
      ∃ c own other, e.model.configurations.get? c = some own ∧
        own.static.descriptorCounts ≠ ∅ ∧ kept.configurations.get? c = some other ∧
        other.static.descriptorCounts ≠ own.static.descriptorCounts := by
    constructor
    · intro clash
      push Not at clash
      obtain ⟨c, own, held, contra⟩ := clash
      obtain ⟨declared, other, found, differ⟩ := contradicts_iff.mp contra
      exact ⟨c, own, other, held, declared, found, differ⟩
    · rintro ⟨c, own, other, held, declared, found, differ⟩ agree
      exact agree c own held (contradicts_iff.mpr ⟨declared, other, found, differ⟩)
  rw [← Bool.not_eq_true, accepts_iff, not_and_or, not_and_or, not_and_or, counts]

/-- A kept model is refused exactly if a name differs, if it has not the configurations that are
expected, each with as many descriptors of every category as it declares, or if it declares other
counts than the entity has been told. A refusal changes nothing. -/
theorem adopt_refuses_iff (e : RemoteEntity) (kept : EntityModel) (d : EntityDescriptor)
    (all : Bool) :
    ((e.adopt kept d all).1 = false ↔
      kept.static.vendorName ≠ d.vendorName ∨ kept.static.modelName ≠ d.modelName ∨
        (all = true ∧ ¬ (kept.configurations.size = d.configurationsCount.toNat ∧
          ∀ c m, kept.configurations.get? c = some m →
            ∀ category, m.declared category = (m.models category).size)) ∨
        (all = false ∧ ¬ ∃ m, kept.configurations.get? d.currentConfiguration = some m ∧
          ∀ category, m.declared category = (m.models category).size) ∨
        ∃ c own other, e.model.configurations.get? c = some own ∧
          own.static.descriptorCounts ≠ ∅ ∧ kept.configurations.get? c = some other ∧
          other.static.descriptorCounts ≠ own.static.descriptorCounts) ∧
      ((e.adopt kept d all).1 = false → (e.adopt kept d all).2 = e) := by
  refine ⟨?_, adopt_snd_of_refused⟩
  simp only [← ConfigurationModel.isComplete_iff]
  rw [adopt_fst, accepts_eq_false_iff]
  cases all with
  | true => simp [hasExpectedConfigurations_all_iff]
  | false => simp [hasExpectedConfigurations_current_iff]

section Shape

variable {e : RemoteEntity} {kept : EntityModel} {d : EntityDescriptor} {all : Bool}

theorem configurations_adopt (fresh : e.isAdvertised = false)
    (taken : (e.adopt kept d all).1 = true) :
    (e.adopt kept d all).2.model.configurations = kept.configurations := by
  rw [adopt_snd_of_fresh fresh taken]
  rfl

theorem isComplete_of_accepts (accepted : e.accepts kept d all = true) {m : ConfigurationModel}
    (found : kept.configurations.get? d.currentConfiguration = some m) : m.isComplete = true := by
  have expected := (accepts_iff.mp accepted).2.2.1
  cases all with
  | true => exact (hasExpectedConfigurations_all_iff.mp expected).2 _ m found
  | false =>
    obtain ⟨n, held, complete⟩ := hasExpectedConfigurations_current_iff.mp expected
    rw [found, Option.some.injEq] at held
    rwa [held]

theorem counts_eq_of_accepts (accepted : e.accepts kept d all = true) {c : UInt16}
    {own other : ConfigurationModel} (held : e.model.configurations.get? c = some own)
    (declared : own.static.descriptorCounts ≠ ∅)
    (found : kept.configurations.get? c = some other) :
    other.static.descriptorCounts = own.static.descriptorCounts := by
  by_contra differ
  exact (accepts_iff.mp accepted).2.2.2 c own held
    (contradicts_iff.mpr ⟨declared, other, found, differ⟩)

end Shape

/-- After a model is taken over, the current configuration is there and complete exactly if the kept
model has it, and the counts that the entity has told of its configurations are there exactly if the kept
model has these. The current one is always there if it is the only one asked for. If all are asked for,
those below their count are there provided that the kept model has none beyond it. -/
theorem adopted_shape_iff (e : RemoteEntity) (kept : EntityModel) (d : EntityDescriptor)
    (all : Bool) (fresh : e.isAdvertised = false) (taken : (e.adopt kept d all).1 = true) :
    ((∃ m, (e.adopt kept d all).2.model.configurations.get? d.currentConfiguration = some m ∧
        m.isComplete = true) ↔
      kept.configurations.contains d.currentConfiguration = true) ∧
    ((∀ c own, e.model.configurations.get? c = some own → own.static.descriptorCounts ≠ ∅ →
        ∃ m, (e.adopt kept d all).2.model.configurations.get? c = some m ∧
          m.static.descriptorCounts = own.static.descriptorCounts) ↔
      ∀ c own, e.model.configurations.get? c = some own → own.static.descriptorCounts ≠ ∅ →
        kept.configurations.contains c = true) ∧
    (all = false → kept.configurations.contains d.currentConfiguration = true) ∧
    (all = true → (∀ c, kept.configurations.contains c = true → c < d.configurationsCount) →
      ∀ c, c < d.configurationsCount → kept.configurations.contains c = true) := by
  have accepted : e.accepts kept d all = true := (adopt_fst e kept d all).symm.trans taken
  have expected := (accepts_iff.mp accepted).2.2.1
  rw [configurations_adopt fresh taken]
  simp only [SortedMap.contains, Option.isSome_iff_exists]
  refine ⟨⟨?_, ?_⟩, ⟨?_, ?_⟩, ?_, ?_⟩
  · rintro ⟨m, found, -⟩
    exact ⟨m, found⟩
  · rintro ⟨m, found⟩
    exact ⟨m, found, isComplete_of_accepts accepted found⟩
  · intro keeps c own held declared
    obtain ⟨m, found, -⟩ := keeps c own held declared
    exact ⟨m, found⟩
  · intro present c own held declared
    obtain ⟨m, found⟩ := present c own held declared
    exact ⟨m, found, counts_eq_of_accepts accepted held declared found⟩
  · rintro rfl
    obtain ⟨m, found, -⟩ := hasExpectedConfigurations_current_iff.mp expected
    exact ⟨m, found⟩
  · rintro rfl below c low
    have size := (hasExpectedConfigurations_all_iff.mp expected).1
    simp only [← Option.isSome_iff_exists] at below ⊢
    exact SortedMap.contains_of_below size below low

def oneInput : ConfigurationModel where
  static := { descriptorCounts := .ofList [(.streamInput, 1)] }
  streamInputs := .ofList [(0, default)]

def declaring (configuration : UInt16) : RemoteEntity :=
  (new {} {} .zero).setConfigurationDescriptor configuration { static := oneInput.static }

def numbered : EntityModel := { configurations := .ofList [(0, {}), (1, oneInput)] }

theorem numbered_model_keeps_shape :
    (declaring 1).isAdvertised = false ∧
      ((declaring 1).adopt numbered { configurationsCount := 2, currentConfiguration := 1 } true).1 =
        true ∧
      let after := ((declaring 1).adopt numbered
        { configurationsCount := 2, currentConfiguration := 1 } true).2.model
      (∃ m, after.configurations.get? 1 = some m ∧ m.isComplete = true) ∧
        ∀ c own, (declaring 1).model.configurations.get? c = some own →
          own.static.descriptorCounts ≠ ∅ → ∃ m, after.configurations.get? c = some m ∧
            m.static.descriptorCounts = own.static.descriptorCounts := by
  have taken : ((declaring 1).adopt numbered
      { configurationsCount := 2, currentConfiguration := 1 } true).1 = true := by decide
  obtain ⟨current, told, -, -⟩ := adopted_shape_iff (declaring 1) numbered
    { configurationsCount := 2, currentConfiguration := 1 } true rfl taken
  refine ⟨rfl, taken, current.mpr (by decide), told.mpr ?_⟩
  intro c own held _
  cases SortedMap.get?_eq_some_iff.mp held with
  | head => decide
  | tail _ rest => cases rest

/-- Models that are taken over without the current configuration, because they have as many as expected
but count from one, or because none is expected; and one without a configuration that was told of. -/
theorem adopted_without_configuration :
    (((new {} {} .zero).adopt { configurations := .ofList [(1, {})] }
        { configurationsCount := 1 } true).1 = true ∧
      ((new {} {} .zero).adopt { configurations := .ofList [(1, {})] }
        { configurationsCount := 1 } true).2.knowsConfiguration 0 = false) ∧
    (((new {} {} .zero).adopt {} {} true).1 = true ∧
      ((new {} {} .zero).adopt {} {} true).2.knowsConfiguration 0 = false) ∧
    ∀ all, ((declaring 3).adopt { configurations := .ofList [(0, {})] }
        { configurationsCount := 1 } all).1 = true ∧
      (declaring 3).knowsConfiguration 3 = true ∧
      ((declaring 3).adopt { configurations := .ofList [(0, {})] }
        { configurationsCount := 1 } all).2.knowsConfiguration 3 = false := by
  decide

end RemoteEntity

end AvbEntity
