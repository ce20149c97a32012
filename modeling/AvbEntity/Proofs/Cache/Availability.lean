import AvbEntity.Proofs.Cache.History

namespace AvbEntity

namespace EntityModel

theorem completeCount_le_size (t : EntityModel) : t.completeCount ≤ t.configurations.size := by
  have counted : t.completeCount ≤ t.configurations.values.length := List.countP_le_length
  rwa [SortedMap.values, List.length_map] at counted

theorem completeCount_eq_size_iff {t : EntityModel} :
    t.completeCount = t.configurations.size ↔ t.allComplete = true := by
  have length : t.configurations.size = t.configurations.values.length := (List.length_map _).symm
  rw [completeCount, length, List.countP_eq_length, allComplete, List.all_eq_true]

end EntityModel

namespace ModelCache

variable {c : ModelCache} {id : Eui64} {m kept : EntityModel} {configuration : UInt16} {all : Bool}

theorem offer_of_not_admits (refused : ¬ c.Admits id m) : c.offer id m = c :=
  if_neg (mt wouldKeep_iff.mp refused)

theorem find?_offer_ne {other : Eui64} (different : other ≠ id) :
    (c.offer id m).find? other configuration all = c.find? other configuration all := by
  have models : (c.offer id m).models.get? other = c.models.get? other := by
    unfold offer
    split
    · exact SortedMap.get?_insert_ne _ different m
    · rfl
  rw [find?, find?, isEnabled_offer, models]

theorem find?_offer_self (admits : c.Admits id m) :
    (c.offer id m).find? id configuration all = (some m).filter (isUsable · configuration all) := by
  have stored : c.offer id m = { c with models := c.models.insert id m } :=
    if_pos (wouldKeep_iff.mpr admits)
  rw [stored, find?, if_pos admits.enabled, SortedMap.get?_insert_self]

/-- A model is lost to an offer for the same identifier that is taken and cannot be used for what the
model could be used for. -/
theorem find?_offer_eq_none_iff {other : Eui64}
    (found : c.find? other configuration all = some kept) :
    (c.offer id m).find? other configuration all = none ↔
      id = other ∧ c.Admits id m ∧ isUsable m configuration all = false := by
  by_cases same : id = other
  · subst same
    by_cases admits : c.Admits id m
    · rw [find?_offer_self admits]
      simp [admits, Option.filter_eq_none_iff]
    · rw [offer_of_not_admits admits, found]
      simp [admits]
  · rw [find?_offer_ne (Ne.symm same), found]
    simp [same]

theorem IsSound.admits_iff (sound : c.IsSound) (held : c.models.get? id = some kept) :
    c.Admits id m ↔ kept.completeCount ≤ m.completeCount := by
  have may := sound id kept held
  have complete : 0 < kept.completeCount := EntityModel.completeCount_pos_iff.mpr may.complete
  constructor
  · intro admits
    exact admits.no_loss kept held
  · intro grown
    refine ⟨may.enabled, may.valid, Nat.lt_of_lt_of_le complete grown, ?_⟩
    intro other again
    rw [held, Option.some.injEq] at again
    rwa [← again]

theorem completeCount_lt_of_partial (full : kept.allComplete = true) (part : m.allComplete = false)
    (size : m.configurations.size ≤ kept.configurations.size) :
    m.completeCount < kept.completeCount := by
  have all : kept.completeCount = kept.configurations.size :=
    EntityModel.completeCount_eq_size_iff.mpr full
  have short : m.completeCount ≠ m.configurations.size := by
    intro equal
    have complete := EntityModel.completeCount_eq_size_iff.mp equal
    rw [part] at complete
    cases complete
  have bound := m.completeCount_le_size
  omega

/-- After any calls on the cache of a tracker and an offer to it, each model that could be had has been
kept, or one with as many complete configurations stands in its place. It cannot be had for one
configuration any more exactly if one that lacks this configuration stands in its place, and it can be had
for all of them unless a larger model stands there. One with fewer complete configurations is not taken,
nor is a partly complete one of no more configurations than a complete one. -/
theorem offer_keeps_available (s : Settings) (calls : List Call) (id : Eui64) (m : EntityModel) :
    let c := (ofSettings s).run calls
    (∀ other configuration all kept, c.find? other configuration all = some kept →
      ∃ later, (c.offer id m).models.get? other = some later ∧
        kept.completeCount ≤ later.completeCount) ∧
    (∀ other configuration kept, c.find? other configuration false = some kept →
      ((c.offer id m).find? other configuration false = none ↔
        id = other ∧ kept.completeCount ≤ m.completeCount ∧
          ¬ ∃ t, m.configurations.get? configuration = some t ∧ t.isComplete = true)) ∧
    (∀ other configuration kept, c.find? other configuration true = some kept →
      (c.offer id m).find? other configuration true = none →
        id = other ∧ kept.completeCount ≤ m.completeCount ∧
          kept.configurations.size < m.configurations.size ∧
          ∃ index t, m.configurations.get? index = some t ∧ t.isComplete = false) ∧
    ∀ kept, c.models.get? id = some kept →
      (m.completeCount < kept.completeCount ∨
        (kept.allComplete = true ∧ m.allComplete = false ∧
          m.configurations.size ≤ kept.configurations.size)) →
      c.offer id m = c := by
  intro c
  have sound : c.IsSound := IsSound.run s calls
  refine ⟨?_, ?_, ?_, ?_⟩
  · intro other configuration all kept found
    have held := (sound.find?_eq_some_iff.mp found).1
    have leaves : ¬ (Call.offer id m).Removes other := not_false
    exact exists_get?_apply held leaves
  · intro other configuration kept found
    have held := (sound.find?_eq_some_iff.mp found).1
    rw [find?_offer_eq_none_iff found, ← Bool.not_eq_true, isUsable_iff, if_neg Bool.false_ne_true]
    constructor
    · rintro ⟨rfl, admits, lacking⟩
      exact ⟨rfl, (sound.admits_iff held).mp admits, lacking⟩
    · rintro ⟨rfl, grown, lacking⟩
      exact ⟨rfl, (sound.admits_iff held).mpr grown, lacking⟩
  · intro other configuration kept found lost
    obtain ⟨held, full⟩ := sound.find?_eq_some_iff.mp found
    obtain ⟨rfl, admits, part⟩ := (find?_offer_eq_none_iff found).mp lost
    have grown := (sound.admits_iff held).mp admits
    have larger : kept.configurations.size < m.configurations.size := by
      by_contra small
      have fewer := completeCount_lt_of_partial full part (Nat.le_of_not_lt small)
      exact absurd grown (Nat.not_le_of_lt fewer)
    rw [← Bool.not_eq_true, isUsable_iff, if_pos rfl] at part
    push Not at part
    obtain ⟨index, t, present, incomplete⟩ := part
    exact ⟨rfl, grown, larger, index, t, present, Bool.eq_false_iff.mpr incomplete⟩
  · intro kept held poorer
    apply offer_of_not_admits
    rw [sound.admits_iff held, Nat.not_le]
    rcases poorer with fewer | ⟨full, part, size⟩
    · exact fewer
    · exact completeCount_lt_of_partial full part size

/-- A model gives way to one that is complete in another configuration, and a complete one to a larger
one that is not, when as many configurations are complete. -/
theorem equally_complete_model_displaces :
    let first : EntityModel := { configurations := .ofList [(0, {})] }
    let other : EntityModel := { configurations := .ofList [(1, {})] }
    let larger : EntityModel := { configurations := .ofList [(0, {}),
      (1, { static := { descriptorCounts := .ofList [(.streamInput, 1)] } })] }
    let c := (ofSettings {}).run [.offer ⟨1⟩ first]
    c.isEnabled = true ∧ c.find? ⟨1⟩ 0 false = some first ∧ c.find? ⟨1⟩ 0 true = some first ∧
      (c.offer ⟨1⟩ other).find? ⟨1⟩ 0 false = none ∧
      larger.allComplete = false ∧ (c.offer ⟨1⟩ larger).find? ⟨1⟩ 0 true = none := by
  decide

end ModelCache

end AvbEntity
