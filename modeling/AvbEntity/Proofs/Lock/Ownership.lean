import AvbEntity.Proofs.Lock.Levels
import Mathlib.Data.List.Basic
import Mathlib.Data.List.Induction

namespace AvbEntity

namespace LockThreads

open ReentrantLock

structure Exclusive (s : LockThreads) : Prop where
  free_iff : s.lock.holder = none ↔ s.lock.depth = 0
  holder_sees : ∀ t, s.lock.holder = some t →
    s.depthOf t = s.lock.depth ∧ (s.attempt t .isHeld).1 = .flag true
  other_sees : ∀ t, s.lock.holder ≠ some t →
    s.depthOf t = 0 ∧ (s.attempt t .isHeld).1 = .flag false
  one_thread : ∀ t u, 0 < s.depthOf t → 0 < s.depthOf u → t = u
  tryLock_fails_iff : ∀ t, (s.attempt t .tryLock).1 = .flag false ↔
    ∃ u, u ≠ t ∧ s.lock.holder = some u
  lock_waits_iff : ∀ t, (s.attempt t .lock).1 = .wouldBlock ↔ ∃ u, u ≠ t ∧ s.lock.holder = some u
  reacquire_waits_iff : ∀ t levels, (s.attempt t (.reacquire levels)).1 = .wouldBlock ↔
    0 < levels ∧ ∃ u, u ≠ t ∧ s.lock.holder = some u
  unlock_faults_iff : ∀ t, (s.attempt t .unlock).1 = .fault (.notHeld .unlock) ↔
    s.lock.holder ≠ some t
  releaseAll_faults_iff : ∀ t, (s.attempt t .releaseAll).1 = .fault (.notHeld .releaseAll) ↔
    s.lock.holder ≠ some t
  refused_unchanged : ∀ t call, (s.attempt t call).1.isRefusal = true →
    (s.attempt t call).2.lock = s.lock
  taker_holds : ∀ t call, 0 < s.levelsTaken t call → (s.attempt t call).2.lock.holder = some t

theorem exclusive_of_isExact {s : LockThreads} (exact : s.lock.IsExact) : s.Exclusive where
  free_iff := exact
  holder_sees t held := by
    exact ⟨depthOf_of_holder held, congrArg LockReply.flag (isHeldBy_iff.mpr held)⟩
  other_sees t other := by
    refine ⟨depthOf_eq_zero other, congrArg LockReply.flag ?_⟩
    exact Bool.eq_false_iff.mpr fun held => other (isHeldBy_iff.mp held)
  one_thread t u own others :=
    Option.some.inj ((holder_of_depthOf_pos own).symm.trans (holder_of_depthOf_pos others))
  tryLock_fails_iff t := by
    rw [← isHeldByOther_iff]
    cases other : s.lock.isHeldByOther t <;> simp [attempt, perform, tryLock, other]
  lock_waits_iff t := by
    rw [← isHeldByOther_iff]
    cases other : s.lock.isHeldByOther t <;> simp [attempt, perform, acquire?, other]
  reacquire_waits_iff t levels := by
    rw [← isHeldByOther_iff]
    rcases levels_eq_zero_or_pos levels with none | positive
    · simp [attempt, perform, reacquire?, none]
    · cases other : s.lock.isHeldByOther t with
      | true => simp [attempt_reacquire_of_other positive other, positive]
      | false => simp [attempt_reacquire positive other]
  unlock_faults_iff t := by
    rw [ne_eq, holder_iff exact]
    rcases levels_eq_zero_or_pos (s.lock.depthOf t) with none | levels
    · simp [attempt, perform, unlock_of_none none, none]
    · simp [attempt, perform, unlock_of_levels levels, levels]
  releaseAll_faults_iff t := by
    rw [ne_eq, holder_iff exact]
    rcases levels_eq_zero_or_pos (s.lock.depthOf t) with none | levels
    · simp [attempt, perform, releaseAll_of_none none, none]
    · simp [attempt, perform, releaseAll_of_levels levels, levels]
  refused_unchanged t call refused := by
    exact (s.shift_attempt t call exact.isSound).eq_of_idle (levelsTaken_of_refused refused)
      (levelsReleased_of_refused refused)
  taker_holds t call some := (s.shift_attempt t call exact.isSound).holder_of_taken some

theorem run_append (s : LockThreads) (before after : List (Thread × LockCall)) :
    s.run (before ++ after) = (s.run before).run after :=
  List.foldl_append

/-- Whether the levels that a call takes and those its thread has are together a number of levels. -/
def Fits (s : LockThreads) (t : Thread) (call : LockCall) : Prop :=
  (s.depthOf t).toNat + s.levelsTaken t call < UInt32.size

def FitsThroughout (s : LockThreads) : List (Thread × LockCall) → Prop
  | [] => True
  | (t, call) :: rest => s.Fits t call ∧ FitsThroughout (s.attempt t call).2 rest

instance (s : LockThreads) (t : Thread) (call : LockCall) : Decidable (s.Fits t call) :=
  inferInstanceAs (Decidable (_ < _))

instance decidableFitsThroughout (s : LockThreads) :
    (calls : List (Thread × LockCall)) → Decidable (s.FitsThroughout calls)
  | [] => inferInstanceAs (Decidable True)
  | (t, call) :: rest =>
    have := decidableFitsThroughout (s.attempt t call).2 rest
    inferInstanceAs (Decidable (_ ∧ _))

theorem fitsThroughout_append {s : LockThreads} {before after : List (Thread × LockCall)} :
    s.FitsThroughout (before ++ after) ↔
      s.FitsThroughout before ∧ (s.run before).FitsThroughout after := by
  induction before generalizing s with
  | nil => exact ⟨fun rest => ⟨trivial, rest⟩, And.right⟩
  | cons c before ih =>
    obtain ⟨t, call⟩ := c
    exact (and_congr_right fun _ => ih).trans and_assoc.symm

theorem isExact_run {s : LockThreads} (exact : s.lock.IsExact) {calls : List (Thread × LockCall)}
    (fits : s.FitsThroughout calls) : (s.run calls).lock.IsExact := by
  induction calls generalizing s with
  | nil => exact exact
  | cons c calls ih =>
    exact ih ((s.shift_attempt c.1 c.2 exact.isSound).isExact fits.1 exact) fits.2

theorem isSound_run {s : LockThreads} (sound : s.lock.IsSound) (calls : List (Thread × LockCall)) :
    (s.run calls).lock.IsSound := by
  induction calls generalizing s with
  | nil => exact sound
  | cons c calls ih => exact ih ((s.shift_attempt c.1 c.2 sound).isSound sound)

/-- The levels of a thread through a run: those at the start and those taken are those at the end and
those released. -/
theorem depthOf_run {s : LockThreads} (sound : s.lock.IsSound) (t : Thread)
    {calls : List (Thread × LockCall)} (fits : s.FitsThroughout calls) :
    (s.depthOf t).toNat + takenBy t s calls =
      ((s.run calls).depthOf t).toNat + releasedBy t s calls := by
  induction calls generalizing s with
  | nil => rfl
  | cons c calls ih =>
    obtain ⟨u, call⟩ := c
    have shift := s.shift_attempt u call sound
    have rest := ih (shift.isSound sound) fits.2
    simp only [takenBy, releasedBy, depthOf, run, List.foldl_cons] at rest ⊢
    by_cases own : u = t
    · subst own
      have first := shift.depthOf_self fits.1
      simp only [↓reduceIte]
      omega
    · rw [shift.depthOf_other (Ne.symm own)] at rest
      simpa only [own, ↓reduceIte, Nat.zero_add] using rest

/-- Whether a thread becomes the holder by the first of some calls, and stays it through all of them. -/
def HoldsSince (t : Thread) (s : LockThreads) (calls : List (Thread × LockCall)) : Prop :=
  s.lock.holder ≠ some t ∧
    ∀ first rest, calls = first ++ rest → first ≠ [] → (s.run first).lock.holder = some t

theorem HoldsSince.concat {t : Thread} {s : LockThreads} {calls : List (Thread × LockCall)}
    (since : s.HoldsSince t calls) (c : Thread × LockCall)
    (held : (s.run (calls ++ [c])).lock.holder = some t) : s.HoldsSince t (calls ++ [c]) := by
  refine ⟨since.1, fun first rest split some_made => ?_⟩
  rcases List.eq_nil_or_concat' rest with rfl | ⟨init, last, rfl⟩
  · rw [← split.trans (List.append_nil first)]
    exact held
  · rw [← List.append_assoc] at split
    exact since.2 first init (List.append_inj' split rfl).1 some_made

theorem exists_holdsSince {s : LockThreads} {t : Thread} (free : s.lock.holder ≠ some t)
    {calls : List (Thread × LockCall)} (held : (s.run calls).lock.holder = some t) :
    ∃ before since, calls = before ++ since ∧ (s.run before).HoldsSince t since := by
  induction calls using List.reverseRecOn with
  | nil => exact absurd held free
  | append_singleton calls c ih =>
    -- The last call goes on with what the thread has, or is the one by which it becomes the holder.
    by_cases already : (s.run calls).lock.holder = some t
    · obtain ⟨before, since, rfl, holds⟩ := ih already
      refine ⟨before, since ++ [c], List.append_assoc .., holds.concat c ?_⟩
      rwa [← run_append, ← List.append_assoc]
    · refine ⟨calls, [c], rfl, already, fun first rest split some_made => ?_⟩
      cases first with
      | nil => exact absurd rfl some_made
      | cons d first =>
        obtain ⟨rfl, none⟩ := List.cons_eq_cons.mp split
        obtain ⟨rfl, rfl⟩ := List.append_eq_nil_iff.mp none.symm
        rwa [← run_append]

/-- After any calls of any threads no two of them have levels at once. What a thread has is what it has
taken less what it has released; and the depth is what its holder has taken since it became the holder,
less what it has released since. -/
theorem exclusive_and_counted (calls : List (Thread × LockCall)) (fits : FitsThroughout {} calls) :
    (run {} calls).Exclusive ∧
      (∀ t, takenBy t {} calls = ((run {} calls).depthOf t).toNat + releasedBy t {} calls) ∧
      ∀ t, (run {} calls).lock.holder = some t →
        ∃ before since, calls = before ++ since ∧ (run {} before).HoldsSince t since ∧
          releasedBy t (run {} before) since ≤ takenBy t (run {} before) since ∧
          (run {} calls).lock.depth.toNat =
            takenBy t (run {} before) since - releasedBy t (run {} before) since := by
  have start : (({} : LockThreads).lock).IsExact := isExact_heldFor 0 0
  have exclusive := exclusive_of_isExact (isExact_run start fits)
  refine ⟨exclusive, fun t => ?_, fun t held => ?_⟩
  · have counted := depthOf_run start.isSound t fits
    have none : (({} : LockThreads).depthOf t).toNat = 0 := rfl
    rwa [none, Nat.zero_add] at counted
  · obtain ⟨before, since, rfl, holds⟩ := exists_holdsSince (by simp) held
    have later := (fitsThroughout_append.mp fits).2
    have counted := depthOf_run (isSound_run start.isSound before) t later
    have none : (run {} before).depthOf t = 0 := depthOf_eq_zero holds.1
    rw [none, UInt32.toNat_zero, ← run_append, (exclusive.holder_sees t held).1] at counted
    exact ⟨before, since, rfl, holds, by omega, by omega⟩

def handover : List (Thread × LockCall) :=
  [(0, .lock), (1, .tryLock), (0, .reacquire 2), (0, .unlock), (0, .releaseAll), (1, .lock)]

theorem handover_counted :
    FitsThroughout {} handover ∧ (run {} handover).Exclusive ∧
      (run {} handover).lock = ⟨some 1, 1⟩ ∧ takenBy 0 {} handover = 3 ∧
      takenBy 0 {} handover = releasedBy 0 {} handover := by
  have fits : FitsThroughout {} handover := by decide
  obtain ⟨exclusive, counted, -⟩ := exclusive_and_counted handover fits
  refine ⟨fits, exclusive, rfl, rfl, ?_⟩
  have none : ((run {} handover).depthOf 0).toNat = 0 := rfl
  rw [counted 0, none, Nat.zero_add]

end LockThreads

end AvbEntity
