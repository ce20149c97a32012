import AvbEntity.Cache
import AvbEntity.Proofs.LastEvent
import Mathlib.Data.List.Induction

namespace AvbEntity

namespace ModelCache

/-- Whether a cache takes a model for an identifier: it is enabled, the identifier is one of a model, and
the model has complete configurations, no fewer than the one it would replace. -/
structure Admits (c : ModelCache) (id : Eui64) (m : EntityModel) : Prop where
  enabled : c.isEnabled = true
  valid : id.isValid = true
  complete : 0 < m.completeCount
  no_loss : ∀ kept, c.models.get? id = some kept → kept.completeCount ≤ m.completeCount

namespace Call

def Offers (id : Eui64) (m : EntityModel) : Call → Prop
  | .offer id' m' => id' = id ∧ m' = m
  | .load d => d.modelId = id ∧ d.tree = m
  | _ => False

def Stores (c : ModelCache) (id : Eui64) (m : EntityModel) (call : Call) : Prop :=
  call.Offers id m ∧ c.Admits id m

def Removes (id : Eui64) : Call → Prop
  | .remove id' => id' = id
  | .clear => True
  | .setEnabled enabled => enabled = false
  | _ => False

def Concerns (c : ModelCache) (id : Eui64) (call : Call) : Prop :=
  call.Removes id ∨ ∃ m, call.Stores c id m

end Call

/-- Whether the last call for an identifier, of calls on a cache, stores a model. -/
def LastStored (c : ModelCache) (id : Eui64) (m : EntityModel) (calls : List Call) : Prop :=
  LastOpens (fun before call => call.Stores (c.run before) id m)
    (fun before call => call.Concerns (c.run before) id) calls

theorem wouldKeep_iff {c : ModelCache} {id : Eui64} {m : EntityModel} :
    c.wouldKeep id m = true ↔ c.Admits id m := by
  have no_loss : c.completeCount id ≤ m.completeCount ↔
      ∀ kept, c.models.get? id = some kept → kept.completeCount ≤ m.completeCount := by
    unfold completeCount
    cases c.models.get? id <;> simp
  simp only [wouldKeep, Bool.and_eq_true, decide_eq_true_iff, no_loss, and_assoc]
  exact ⟨fun ⟨enabled, valid, complete, kept⟩ => ⟨enabled, valid, complete, kept⟩,
    fun ⟨enabled, valid, complete, kept⟩ => ⟨enabled, valid, complete, kept⟩⟩

theorem get?_offer {c : ModelCache} {id id' : Eui64} {m m' : EntityModel} :
    (c.offer id m).models.get? id' = some m' ↔
      ((id = id' ∧ m = m') ∧ c.Admits id' m') ∨
        (c.models.get? id' = some m' ∧ ¬ ∃ n, (id = id' ∧ m = n) ∧ c.Admits id' n) := by
  by_cases same : id = id'
  · subst same
    by_cases admits : c.Admits id m
    · rw [offer, if_pos (wouldKeep_iff.mpr admits), SortedMap.get?_insert_self, Option.some.injEq]
      constructor
      · rintro rfl
        exact .inl ⟨⟨rfl, rfl⟩, admits⟩
      · rintro (⟨⟨-, equal⟩, -⟩ | ⟨-, untouched⟩)
        · exact equal
        · exact absurd ⟨m, ⟨rfl, rfl⟩, admits⟩ untouched
    · rw [offer, if_neg (mt wouldKeep_iff.mp admits)]
      constructor
      · rintro kept
        refine .inr ⟨kept, ?_⟩
        rintro ⟨n, ⟨-, rfl⟩, admitted⟩
        exact admits admitted
      · rintro (⟨⟨-, rfl⟩, admitted⟩ | ⟨kept, -⟩)
        · exact absurd admitted admits
        · exact kept
  · have other : (c.offer id m).models.get? id' = c.models.get? id' := by
      unfold offer
      split
      · exact SortedMap.get?_insert_ne _ (Ne.symm same) m
      · rfl
    simp [other, same]

/-- All that a call does to the model under an identifier. -/
theorem get?_apply (c : ModelCache) (call : Call) (id : Eui64) (m : EntityModel) :
    (c.apply call).models.get? id = some m ↔ call.Stores c id m ∨
      (c.models.get? id = some m ∧ ¬ call.Concerns c id) := by
  unfold Call.Concerns
  cases call with
  | offer id' m' => simp only [apply, get?_offer, Call.Stores, Call.Offers, Call.Removes, false_or]
  | load d =>
    simp only [apply, load, get?_offer, Call.Stores, Call.Offers, Call.Removes, false_or]
  | find => simp [apply, Call.Stores, Call.Offers, Call.Removes]
  | remove id' =>
    simp [apply, remove, SortedMap.get?_erase_eq_some_iff, Call.Stores, Call.Offers, Call.Removes,
      ne_comm (a := id)]
  | clear => simp [apply, clear, Call.Stores, Call.Offers, Call.Removes]
  | setEnabled enabled =>
    cases enabled <;> simp [apply, setEnabled, Call.Stores, Call.Offers, Call.Removes]

theorem run_concat (c : ModelCache) (calls : List Call) (call : Call) :
    c.run (calls ++ [call]) = (c.run calls).apply call :=
  List.foldl_concat ..

theorem run_append (c : ModelCache) (calls more : List Call) :
    c.run (calls ++ more) = (c.run calls).run more :=
  List.foldl_append

theorem get?_run_iff (s : Settings) (calls : List Call) (id : Eui64) (m : EntityModel) :
    ((ofSettings s).run calls).models.get? id = some m ↔ LastStored (ofSettings s) id m calls := by
  induction calls using List.reverseRecOn with
  | nil => exact iff_of_false nofun not_lastOpens_nil
  | append_singleton calls call ih =>
    rw [LastStored] at ih ⊢
    rw [run_concat, get?_apply, lastOpens_concat, ih]

theorem isEnabled_offer (c : ModelCache) (id : Eui64) (m : EntityModel) :
    (c.offer id m).isEnabled = c.isEnabled := by
  unfold offer
  split <;> rfl

theorem isEnabled_apply {c : ModelCache} {call : Call} {id : Eui64} (enabled : c.isEnabled = true)
    (leaves : ¬ call.Removes id) : (c.apply call).isEnabled = true := by
  cases call with
  | offer id' m => exact (isEnabled_offer c id' m).trans enabled
  | load d => exact (isEnabled_offer c d.modelId d.tree).trans enabled
  | find | remove | clear => exact enabled
  | setEnabled on =>
    cases on
    · exact absurd rfl leaves
    · rfl

theorem Call.Stores.not_removes {c : ModelCache} {call : Call} {id : Eui64} {m : EntityModel}
    (stores : call.Stores c id m) : ¬ call.Removes id := by
  obtain ⟨offers, -⟩ := stores
  cases call with
  | offer | load => exact not_false
  | find | remove | clear | setEnabled => exact offers.elim

structure MayHold (c : ModelCache) (id : Eui64) (m : EntityModel) : Prop where
  enabled : c.isEnabled = true
  valid : id.isValid = true
  complete : ∃ configuration t, m.configurations.get? configuration = some t ∧ t.isComplete = true

def IsSound (c : ModelCache) : Prop :=
  ∀ id m, c.models.get? id = some m → c.MayHold id m

namespace IsSound

variable {c : ModelCache}

theorem apply (sound : c.IsSound) (call : Call) : (c.apply call).IsSound := by
  intro id m found
  rcases (get?_apply c call id m).mp found with stores | ⟨kept, unconcerned⟩
  · exact ⟨isEnabled_apply stores.2.enabled stores.not_removes, stores.2.valid,
      EntityModel.completeCount_pos_iff.mp stores.2.complete⟩
  · have held := sound id m kept
    have leaves : ¬ call.Removes id := fun removes => unconcerned (.inl removes)
    exact ⟨isEnabled_apply held.enabled leaves, held.valid, held.complete⟩

theorem run (s : Settings) (calls : List Call) : ((ofSettings s).run calls).IsSound := by
  induction calls using List.reverseRecOn with
  | nil => exact fun id m => nofun
  | append_singleton calls call ih => exact run_concat _ calls call ▸ ih.apply call

theorem models_eq_empty (sound : c.IsSound) (disabled : c.isEnabled = false) : c.models = ∅ := by
  apply SortedMap.ext_get?
  intro id
  rw [SortedMap.get?_empty, Option.eq_none_iff_forall_ne_some]
  intro m found
  exact Bool.false_ne_true (disabled.symm.trans (sound id m found).enabled)

theorem find?_eq_some_iff (sound : c.IsSound) {id : Eui64} {configuration : UInt16} {all : Bool}
    {m : EntityModel} :
    c.find? id configuration all = some m ↔
      c.models.get? id = some m ∧ isUsable m configuration all = true := by
  cases status : c.isEnabled with
  | true => simp [find?, status, Option.filter_eq_some_iff]
  | false => simp [find?, status, sound.models_eq_empty status]

end IsSound

theorem offer_of_disabled {c : ModelCache} (disabled : c.isEnabled = false) (id : Eui64)
    (m : EntityModel) : c.offer id m = c := by
  simp [offer, wouldKeep, disabled]

theorem isUsable_iff {m : EntityModel} {configuration : UInt16} {all : Bool} :
    isUsable m configuration all = true ↔
      if all then ∀ index t, m.configurations.get? index = some t → t.isComplete = true
      else ∃ t, m.configurations.get? configuration = some t ∧ t.isComplete = true := by
  cases all with
  | true => simp [isUsable, EntityModel.allComplete_iff]
  | false =>
    cases found : m.configurations.get? configuration <;> simp [isUsable, found]

theorem exists_get?_apply {c : ModelCache} {call : Call} {id : Eui64} {m : EntityModel}
    (found : c.models.get? id = some m) (leaves : ¬ call.Removes id) :
    ∃ later, (c.apply call).models.get? id = some later ∧ m.completeCount ≤ later.completeCount := by
  by_cases replaced : ∃ n, call.Stores c id n
  · obtain ⟨n, stores⟩ := replaced
    exact ⟨n, (get?_apply c call id n).mpr (.inl stores), stores.2.no_loss m found⟩
  · have unconcerned : ¬ call.Concerns c id := not_or.mpr ⟨leaves, replaced⟩
    exact ⟨m, (get?_apply c call id m).mpr (.inr ⟨found, unconcerned⟩), Nat.le_refl _⟩

theorem exists_get?_run {c : ModelCache} {calls : List Call} {id : Eui64} {m : EntityModel}
    (found : c.models.get? id = some m) (leave : ∀ call ∈ calls, ¬ call.Removes id) :
    ∃ later, (c.run calls).models.get? id = some later ∧ m.completeCount ≤ later.completeCount := by
  induction calls using List.reverseRecOn with
  | nil => exact ⟨m, found, Nat.le_refl _⟩
  | append_singleton calls call ih =>
    obtain ⟨n, kept, grown⟩ := ih fun earlier member => leave earlier (List.mem_append_left _ member)
    obtain ⟨later, stored, still⟩ := exists_get?_apply kept (leave call (by simp))
    exact ⟨later, run_concat c calls call ▸ stored, Nat.le_trans grown still⟩

/-- After any calls on the cache of a tracker: what it holds has a complete configuration and stands under
an identifier of a model; while it is disabled it is empty, gives nothing and takes nothing; what it gives
is what was last stored, when that can be used; and what is stored under an identifier loses no complete
configuration in further calls that do not take it away. -/
theorem history_decides (s : Settings) (calls : List Call) :
    ((ofSettings s).run calls).IsSound ∧
      (((ofSettings s).run calls).isEnabled = false →
        ((ofSettings s).run calls).models = ∅ ∧
        (∀ id configuration all, ((ofSettings s).run calls).find? id configuration all = none) ∧
        (∀ id m, ((ofSettings s).run calls).offer id m = (ofSettings s).run calls) ∧
        ∀ d, ((ofSettings s).run calls).load d = (ofSettings s).run calls) ∧
      (∀ id configuration all m,
        ((ofSettings s).run calls).find? id configuration all = some m ↔
          LastStored (ofSettings s) id m calls ∧
            if all then ∀ index t, m.configurations.get? index = some t → t.isComplete = true
            else ∃ t, m.configurations.get? configuration = some t ∧ t.isComplete = true) ∧
      ∀ more id m, ((ofSettings s).run calls).models.get? id = some m →
        (∀ call ∈ more, ¬ call.Removes id) →
        ∃ later, ((ofSettings s).run (calls ++ more)).models.get? id = some later ∧
          m.completeCount ≤ later.completeCount := by
  have sound := IsSound.run s calls
  refine ⟨sound, fun disabled => ⟨sound.models_eq_empty disabled, ?_, offer_of_disabled disabled,
    fun d => offer_of_disabled disabled d.modelId d.tree⟩, ?_, ?_⟩
  · intro id configuration all
    simp [find?, disabled]
  · intro id configuration all m
    rw [sound.find?_eq_some_iff, get?_run_iff, isUsable_iff]
  · intro more id m found leave
    rw [run_append]
    exact exists_get?_run found leave

example :
    let one : EntityModel := { configurations := .ofList [(0, {})] }
    let two : EntityModel := { configurations := .ofList [(0, {}), (1, {})] }
    let c := (ofSettings {}).run [.offer ⟨1⟩ two, .offer ⟨1⟩ one]
    (c.find? ⟨1⟩ 1 false).map EntityModel.completeCount = some 2 := by decide

end ModelCache

end AvbEntity
