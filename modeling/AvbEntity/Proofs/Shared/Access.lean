import AvbEntity.Shared
import AvbEntity.Proofs.Lock.Levels
import Mathlib.Data.List.Basic
import Mathlib.Data.List.Induction

namespace AvbEntity

namespace SharedEntities

open ReentrantLock

def start (entities : List RemoteEntity) : SharedEntities := { entities }

/-- Whether a call gives up the last level of a thread. -/
def GivesUp (s : SharedEntities) (t : Thread) : Call → Prop
  | .releaseScope slot => (s.guarded? t slot).isSome = true ∧ 0 < s.threads.depthOf t
  | .drop slot => (∃ entity, s.threads.kept? t slot = some (.guard entity)) ∧ s.threads.depthOf t = 1
  | _ => False

/-- Whether only the holder of the lock has entities in access, so that it never waits for one of them
and no two threads have any. -/
structure OutOfReach (s : SharedEntities) : Prop where
  owner : ∀ a ∈ s.accesses, s.threads.lock.holder = some a.thread
  uncontended : ∀ t entity, s.threads.lock.holder = some t → s.isContended t entity = false
  one_thread : ∀ a ∈ s.accesses, ∀ b ∈ s.accesses, a.thread = b.thread

theorem isContended_iff {s : SharedEntities} {t : Thread} {entity : Nat} :
    s.isContended t entity = true ↔ ∃ a ∈ s.accesses, a.entity = entity ∧ a.thread ≠ t := by
  simp [isContended]

theorem outOfReach_iff {s : SharedEntities} :
    s.OutOfReach ↔ ∀ a ∈ s.accesses, s.threads.lock.holder = some a.thread := by
  refine ⟨OutOfReach.owner, fun owner => ⟨owner, fun t entity held => ?_, fun a ha b hb => ?_⟩⟩
  · refine Bool.eq_false_iff.mpr fun contended => ?_
    obtain ⟨a, member, -, other⟩ := isContended_iff.mp contended
    exact other (Option.some.inj ((owner a member).symm.trans held))
  · exact Option.some.inj ((owner a ha).symm.trans (owner b hb))

/-- An access is opened by the holder of the lock, where no other thread has one to the entity; any other
call opens none. -/
theorem accesses_attempt (s : SharedEntities) (t : Thread) (call : Call) :
    (s.attempt t call).2.accesses ⊆ s.accesses ∨
      ∃ entity mode, (s.attempt t call).2 = { s with accesses := ⟨t, entity, mode⟩ :: s.accesses } ∧
        s.threads.lock.holder = some t ∧ s.isContended t entity = false := by
  have quiet : s.accesses ⊆ s.accesses := List.Subset.refl _
  cases call with
  | lock entity | tryLock entity | drop slot => exact .inl quiet
  | releaseScope slot =>
    simp only [attempt]
    cases s.guarded? t slot <;> exact .inl quiet
  | enter slot mode =>
    simp only [attempt]
    cases s.guarded? t slot with
    | none => exact .inl quiet
    | some entity =>
      cases held : s.threads.lock.isHeldBy t with
      | false => simp [openAccess, held]
      | true =>
        cases free : s.isContended t entity with
        | true => simp [free]
        | false =>
          cases stands : s.conflicts entity mode with
          | true => simp [openAccess, held, free, stands]
          | false =>
            refine .inr ⟨entity, mode, ?_, isHeldBy_iff.mp held, free⟩
            simp [openAccess, held, free, stands]
  | change op =>
    simp only [attempt]
    split <;> exact .inl quiet
  | leave => exact .inl List.eraseP_subset

theorem threads_attempt_enter (s : SharedEntities) (t : Thread) (slot : Nat) (mode : AccessMode) :
    (s.attempt t (.enter slot mode)).2.threads = s.threads := by
  simp only [attempt]
  cases s.guarded? t slot with
  | none => rfl
  | some entity =>
    simp only [openAccess]
    split_ifs <;> rfl

theorem threads_attempt_change (s : SharedEntities) (t : Thread) (op : Operation) :
    (s.attempt t (.change op)).2.threads = s.threads := by
  simp only [attempt]
  split <;> rfl

theorem threads_attempt (s : SharedEntities) (t : Thread) (call : Call) :
    ∃ inner, (s.attempt t call).2.threads = (s.threads.attempt t inner).2 := by
  cases call with
  | lock entity => exact ⟨.guard entity, rfl⟩
  | tryLock entity => exact ⟨.tryGuard entity, rfl⟩
  | drop slot => exact ⟨.drop slot, rfl⟩
  | releaseScope slot =>
    simp only [attempt]
    cases s.guarded? t slot with
    | none => exact ⟨.isHeld, rfl⟩
    | some entity => exact ⟨.releaseScope, rfl⟩
  | enter slot mode => exact ⟨.isHeld, s.threads_attempt_enter t slot mode⟩
  | change op => exact ⟨.isHeld, s.threads_attempt_change t op⟩
  | leave => exact ⟨.isHeld, rfl⟩

theorem isSound_attempt {s : SharedEntities} (sound : s.threads.lock.IsSound) (t : Thread) (call : Call) :
    (s.attempt t call).2.threads.lock.IsSound := by
  obtain ⟨inner, threads⟩ := s.threads_attempt t call
  rw [threads]
  exact (s.threads.shift_attempt t inner sound).isSound sound

theorem holder_attempt_other {s : SharedEntities} (sound : s.threads.lock.IsSound) {t u : Thread}
    (other : u ≠ t) (held : s.threads.lock.holder = some u) (call : Call) :
    (s.attempt t call).2.threads.lock.holder = some u := by
  obtain ⟨inner, threads⟩ := s.threads_attempt t call
  rw [threads, (s.threads.shift_attempt t inner sound).eq_of_other other held]
  exact held

theorem holder_attemptLock {s : SharedEntities} (sound : s.threads.lock.IsSound) {t : Thread}
    (held : s.threads.lock.holder = some t) {inner : LockCall}
    (none : s.threads.levelsReleased t inner = 0) :
    (s.attemptLock t inner).2.threads.lock.holder = some t := by
  exact (s.threads.shift_attempt t inner sound).holder_of_kept none held

theorem gives_up_drop {s : SharedEntities} (sound : s.threads.lock.IsSound) {t : Thread}
    (held : s.threads.lock.holder = some t) (slot : Nat) :
    (s.attemptLock t (.drop slot)).2.threads.lock.holder ≠ some t ↔ s.GivesUp t (.drop slot) := by
  cases kept : s.threads.kept? t slot with
  | none =>
    have same : (s.attemptLock t (.drop slot)).2.threads = s.threads := by
      simp [attemptLock, LockThreads.attempt, LockThreads.perform, LockThreads.endSlot, kept]
    simp [GivesUp, kept, same, held]
  | some k =>
    cases k with
    | scope depth =>
      have none : s.threads.levelsReleased t (.drop slot) = 0 := by
        simp only [LockThreads.levelsReleased]
        split <;> simp_all
      simp [GivesUp, kept, holder_attemptLock sound held none]
    | guard entity =>
      rcases levels_eq_zero_or_pos (s.threads.depthOf t) with none | levels
      · have after : (s.attemptLock t (.drop slot)).2.threads.lock = s.threads.lock := by
          simp only [attemptLock, LockThreads.attempt_drop_of_none kept none]
          rfl
        simp [after, held, GivesUp, kept, none]
      · have after : (s.attemptLock t (.drop slot)).2.threads.lock =
            heldFor t (s.threads.depthOf t - 1) := by
          simp only [attemptLock, LockThreads.attempt_drop kept levels]
        rw [after, ne_eq, holder_heldFor_iff]
        simp [GivesUp, kept, UInt32.sub_eq_iff_eq_add]

/-- The holder of the lock loses it by the calls that give up its last level, and by no other. -/
theorem loses_iff {s : SharedEntities} (sound : s.threads.lock.IsSound) {t : Thread}
    (held : s.threads.lock.holder = some t) (call : Call) :
    (s.attempt t call).2.threads.lock.holder ≠ some t ↔ s.GivesUp t call := by
  cases call with
  | lock entity | tryLock entity =>
    exact iff_false_intro (not_not_intro (holder_attemptLock sound held rfl))
  | drop slot => exact gives_up_drop sound held slot
  | releaseScope slot =>
    cases guarded : s.guarded? t slot with
    | none => simp [attempt, GivesUp, guarded, held]
    | some entity =>
      rcases levels_eq_zero_or_pos (s.threads.depthOf t) with none | levels
      · have after : (s.threads.attempt t .releaseScope).2 = s.threads := by
          simp [LockThreads.attempt, LockThreads.perform, releaseAll_of_none none]
        simp [attempt, attemptLock, GivesUp, guarded, after, held, none]
      · simp [attempt, attemptLock, GivesUp, guarded, LockThreads.attempt_releaseScope levels, levels]
  | enter slot mode =>
    rw [threads_attempt_enter]
    exact iff_false_intro (not_not_intro held)
  | change op =>
    rw [threads_attempt_change]
    exact iff_false_intro (not_not_intro held)
  | leave => exact iff_false_intro (not_not_intro held)

theorem accesses_of_givesUp {s : SharedEntities} {t : Thread} {call : Call} (gives : s.GivesUp t call) :
    (s.attempt t call).2.accesses = s.accesses := by
  cases call with
  | drop slot => rfl
  | releaseScope slot =>
    simp only [attempt]
    cases s.guarded? t slot <;> rfl
  | _ => exact gives.elim

theorem owner_attempt {s : SharedEntities} (sound : s.threads.lock.IsSound) {t : Thread} {call : Call}
    (owner : ∀ a ∈ s.accesses, s.threads.lock.holder = some a.thread)
    (keeps : s.GivesUp t call → ∀ a ∈ s.accesses, a.thread ≠ t) :
    ∀ a ∈ (s.attempt t call).2.accesses, (s.attempt t call).2.threads.lock.holder = some a.thread := by
  intro a member
  rcases s.accesses_attempt t call with fewer | ⟨entity, mode, entered, held, -⟩
  · have before := owner a (fewer member)
    by_cases own : a.thread = t
    · rw [own] at before ⊢
      by_contra lost
      exact keeps ((loses_iff sound before call).mp lost) a (fewer member) own
    · exact holder_attempt_other sound own before call
  · rw [entered] at member ⊢
    rcases List.mem_cons.mp member with rfl | member
    · exact held
    · exact owner a member

theorem one_thread_attempt {s : SharedEntities} (t : Thread) (call : Call)
    (apart : ∀ a ∈ s.accesses, ∀ b ∈ s.accesses, a.entity = b.entity → a.thread = b.thread) :
    ∀ a ∈ (s.attempt t call).2.accesses, ∀ b ∈ (s.attempt t call).2.accesses,
      a.entity = b.entity → a.thread = b.thread := by
  rcases s.accesses_attempt t call with fewer | ⟨entity, mode, entered, -, free⟩
  · exact fun a ha b hb => apart a (fewer ha) b (fewer hb)
  · have alone : ∀ b ∈ s.accesses, b.entity = entity → b.thread = t := by
      intro b member same
      by_contra other
      exact Bool.eq_false_iff.mp free (isContended_iff.mpr ⟨b, member, same, other⟩)
    rw [entered]
    intro a ha b hb same
    rcases List.mem_cons.mp ha with rfl | ha <;> rcases List.mem_cons.mp hb with rfl | hb
    · rfl
    · exact (alone b hb same.symm).symm
    · exact alone a ha same
    · exact apart a ha b hb same

theorem run_concat (s : SharedEntities) (calls : List (Thread × Call)) (t : Thread) (call : Call) :
    s.run (calls ++ [(t, call)]) = ((s.run calls).attempt t call).2 :=
  List.foldl_concat ..

theorem isSound_run (entities : List RemoteEntity) (calls : List (Thread × Call)) :
    ((start entities).run calls).threads.lock.IsSound := by
  induction calls using List.reverseRecOn with
  | nil => exact fun _ => rfl
  | append_singleton calls c ih =>
    rw [run_concat]
    exact isSound_attempt ih c.1 c.2

/-- The threads with an access to shared entities hold the lock at every moment of a run exactly if none of
them gives up its last level within an access of its own. In any case no two threads have an access to one
entity. -/
theorem owners_throughout_iff (entities : List RemoteEntity) (calls : List (Thread × Call)) :
    ((∀ before after, calls = before ++ after → ((start entities).run before).OutOfReach) ↔
      ∀ before t call after, calls = before ++ (t, call) :: after →
        ((start entities).run before).GivesUp t call →
        ∀ a ∈ ((start entities).run before).accesses, a.thread ≠ t) ∧
    ∀ a ∈ ((start entities).run calls).accesses, ∀ b ∈ ((start entities).run calls).accesses,
      a.entity = b.entity → a.thread = b.thread := by
  refine ⟨⟨fun throughout before t call after split gives a member own => ?_, fun keeps before => ?_⟩, ?_⟩
  · have now := throughout before _ split
    have next := throughout (before ++ [(t, call)]) after (by simpa using split)
    rw [run_concat] at next
    have held := own ▸ now.owner a member
    refine (loses_iff (isSound_run entities before) held call).mpr gives ?_
    rw [← accesses_of_givesUp gives] at member
    exact own ▸ next.owner a member
  · simp only [outOfReach_iff]
    induction before using List.reverseRecOn with
    | nil => exact fun _ _ => nofun
    | append_singleton before c ih =>
      intro after split
      have split : calls = before ++ c :: after := by simpa using split
      rw [run_concat]
      exact owner_attempt (isSound_run entities before) (ih _ split) (keeps before c.1 c.2 after split)
  · induction calls using List.reverseRecOn with
    | nil => exact nofun
    | append_singleton calls c ih =>
      rw [run_concat]
      exact one_thread_attempt c.1 c.2 ih

def releaseWithinRead : List (Thread × Call) :=
  [(0, .lock 0), (0, .enter 0 .read), (0, .releaseScope 0), (1, .lock 0)]

/-- A thread that gives up the lock in a read keeps the access that it has, although another thread holds
the lock then. That thread has to wait for the access and the first one for the lock, each for the
other. -/
theorem release_within_read :
    let s := (start [.new {} {} .zero]).run releaseWithinRead
    s.accesses = [⟨0, 0, .read⟩] ∧ s.threads.lock.holder = some 1 ∧ ¬ s.OutOfReach ∧
      (s.attempt 1 (.enter 0 .write)).1 = .lock .wouldBlock ∧
      (s.attempt 0 (.drop 1)).1 = .lock .wouldBlock := by
  refine ⟨rfl, rfl, fun reach => ?_, rfl, rfl⟩
  have owner := reach.owner ⟨0, 0, .read⟩ List.mem_cons_self
  exact absurd owner (by decide)

end SharedEntities

end AvbEntity
