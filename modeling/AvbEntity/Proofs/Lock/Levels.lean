import AvbEntity.Lock.Threads
import Mathlib.Logic.Basic

namespace AvbEntity

namespace ReentrantLock

/-- What a thread leaves of a lock that it has released levels of: without any left it has no holder. -/
def heldFor (t : Thread) (levels : UInt32) : ReentrantLock :=
  if levels = 0 then {} else ⟨some t, levels⟩

def IsSound (l : ReentrantLock) : Prop := l.holder = none → l.depth = 0

/-- Whether a lock has a holder exactly if there are levels on it. A count of levels that has become
zero again is that of a sound lock too, but not of an exact one. -/
def IsExact (l : ReentrantLock) : Prop := l.holder = none ↔ l.depth = 0

theorem IsExact.isSound {l : ReentrantLock} (exact : l.IsExact) : l.IsSound := exact.mp

theorem heldFor_zero (t : Thread) : heldFor t 0 = {} := rfl

theorem isExact_heldFor (t : Thread) (levels : UInt32) : (heldFor t levels).IsExact := by
  unfold heldFor IsExact
  split <;> simp [*]

@[simp] theorem depthOf_heldFor (t u : Thread) (levels : UInt32) :
    (heldFor t levels).depthOf u = if u = t then levels else 0 := by
  by_cases none : levels = 0
  · simp [none, heldFor, depthOf]
  · rw [heldFor, if_neg none]
    simp [depthOf, isHeldBy, eq_comm (a := t)]

theorem holder_heldFor_iff {t u : Thread} {levels : UInt32} :
    (heldFor t levels).holder = some u ↔ u = t ∧ levels ≠ 0 := by
  unfold heldFor
  split <;> simp [*, eq_comm]

theorem isHeldBy_iff {l : ReentrantLock} {t : Thread} :
    l.isHeldBy t = true ↔ l.holder = some t :=
  beq_iff_eq

theorem isHeldByOther_iff {l : ReentrantLock} {t : Thread} :
    l.isHeldByOther t = true ↔ ∃ u, u ≠ t ∧ l.holder = some u := by
  unfold isHeldByOther
  cases l.holder <;> simp

theorem depthOf_of_holder {l : ReentrantLock} {t : Thread} (held : l.holder = some t) :
    l.depthOf t = l.depth :=
  if_pos (isHeldBy_iff.mpr held)

theorem depthOf_mk (t : Thread) (levels : UInt32) : (mk (some t) levels).depthOf t = levels :=
  depthOf_of_holder rfl

theorem depthOf_eq_zero {l : ReentrantLock} {t : Thread} (other : l.holder ≠ some t) :
    l.depthOf t = 0 :=
  if_neg fun held => other (isHeldBy_iff.mp held)

theorem holder_of_depthOf_pos {l : ReentrantLock} {t : Thread} (levels : 0 < l.depthOf t) :
    l.holder = some t := by
  refine Decidable.of_not_not fun other => ?_
  rw [depthOf_eq_zero other] at levels
  exact UInt32.lt_irrefl 0 levels

theorem depth_eq_depthOf {l : ReentrantLock} {t : Thread} (sound : l.IsSound)
    (free : l.isHeldByOther t = false) : l.depth = l.depthOf t := by
  obtain ⟨_ | u, depth⟩ := l
  · obtain rfl : depth = 0 := sound rfl
    rfl
  · obtain rfl : u = t := by simpa [isHeldByOther] using free
    exact (depthOf_of_holder rfl).symm

theorem mayRelease_iff {l : ReentrantLock} {t : Thread} :
    l.isHeldBy t = true ∧ 0 < l.depth ↔ 0 < l.depthOf t := by
  by_cases held : l.isHeldBy t = true <;> simp [depthOf, held]

theorem holder_iff {l : ReentrantLock} {t : Thread} (exact : l.IsExact) :
    l.holder = some t ↔ 0 < l.depthOf t := by
  refine ⟨fun held => ?_, holder_of_depthOf_pos⟩
  rw [depthOf_of_holder held, UInt32.pos_iff_ne_zero]
  intro none
  rw [exact.mpr none] at held
  cases held

theorem levels_eq_zero_or_pos (levels : UInt32) : levels = 0 ∨ 0 < levels := by
  rw [UInt32.pos_iff_ne_zero]
  exact Decidable.em _

theorem toNat_add_of_fits {a b : UInt32} (fits : a.toNat + b.toNat < UInt32.size) :
    (a + b).toNat = a.toNat + b.toNat := by
  rw [UInt32.toNat_add]
  exact Nat.mod_eq_of_lt fits

theorem acquire?_of_free {l : ReentrantLock} {t : Thread} (free : l.isHeldByOther t = false)
    (levels : UInt32) : l.acquire? t levels = some ⟨some t, l.depthOf t + levels⟩ := by
  simp [acquire?, free]

theorem tryLock_of_free {l : ReentrantLock} {t : Thread} (sound : l.IsSound)
    (free : l.isHeldByOther t = false) : l.tryLock t = (true, ⟨some t, l.depthOf t + 1⟩) := by
  simp [tryLock, free, depth_eq_depthOf sound free]

theorem tryLock_of_other {l : ReentrantLock} {t : Thread} (other : l.isHeldByOther t = true) :
    l.tryLock t = (false, l) :=
  if_pos other

theorem unlock_of_levels {l : ReentrantLock} {t : Thread} (levels : 0 < l.depthOf t) :
    l.unlock t = .ok (heldFor t (l.depthOf t - 1)) := by
  have held := holder_of_depthOf_pos levels
  have last : l.depth - 1 = 0 ↔ l.depth = 1 := by
    rw [UInt32.sub_eq_iff_eq_add, UInt32.zero_add]
  rw [unlock, if_pos (mayRelease_iff.mpr levels), depthOf_of_holder held, heldFor]
  simp only [last, held]

theorem unlock_of_none {l : ReentrantLock} {t : Thread} (none : l.depthOf t = 0) :
    l.unlock t = .error (.notHeld .unlock) := by
  have may : ¬ 0 < l.depthOf t := none ▸ UInt32.lt_irrefl 0
  rw [unlock, if_neg (mayRelease_iff.not.mpr may)]

theorem releaseAll_of_levels {l : ReentrantLock} {t : Thread} (levels : 0 < l.depthOf t) :
    l.releaseAll t = .ok (l.depthOf t, {}) := by
  rw [releaseAll, if_pos (mayRelease_iff.mpr levels),
    depthOf_of_holder (holder_of_depthOf_pos levels)]

theorem releaseAll_of_none {l : ReentrantLock} {t : Thread} (none : l.depthOf t = 0) :
    l.releaseAll t = .error (.notHeld .releaseAll) := by
  have may : ¬ 0 < l.depthOf t := none ▸ UInt32.lt_irrefl 0
  rw [releaseAll, if_neg (mayRelease_iff.not.mpr may)]

inductive Shift (t : Thread) (l : ReentrantLock) : ReentrantLock → Nat → Nat → Prop where
  | stay : Shift t l l 0 0
  | take {levels : UInt32} (free : l.isHeldByOther t = false) (positive : 0 < levels) :
    Shift t l ⟨some t, l.depthOf t + levels⟩ levels.toNat 0
  | release {levels : UInt32} (positive : 0 < levels) (present : levels ≤ l.depthOf t) :
    Shift t l (heldFor t (l.depthOf t - levels)) 0 levels.toNat

namespace Shift

variable {l m : ReentrantLock} {t : Thread} {taken released : Nat}

theorem of_acquire {levels : UInt32} (positive : 0 < levels)
    (acquired : l.acquire? t levels = some m) : Shift t l m levels.toNat 0 := by
  cases other : l.isHeldByOther t with
  | true => simp [acquire?, other] at acquired
  | false =>
    rw [acquire?_of_free other] at acquired
    cases acquired
    exact .take other positive

theorem of_reacquire {levels : UInt32} (acquired : l.reacquire? t levels = some m) :
    Shift t l m levels.toNat 0 := by
  unfold reacquire? at acquired
  split at acquired
  · rename_i none
    cases acquired
    subst none
    exact .stay
  · rename_i some
    exact of_acquire (UInt32.pos_iff_ne_zero.mpr some) acquired

theorem of_unlock (unlocked : l.unlock t = .ok m) : Shift t l m 0 1 := by
  rcases levels_eq_zero_or_pos (l.depthOf t) with none | levels
  · rw [unlock_of_none none] at unlocked
    cases unlocked
  · have first : (1 : UInt32) ≤ l.depthOf t := by
      rw [UInt32.lt_iff_toNat_lt] at levels
      exact UInt32.le_iff_toNat_le.mpr levels
    rw [unlock_of_levels levels] at unlocked
    cases unlocked
    exact .release (by decide : (0 : UInt32) < 1) first

theorem of_releaseAll {levels : UInt32} (unlocked : l.releaseAll t = .ok (levels, m)) :
    Shift t l m 0 levels.toNat := by
  rcases levels_eq_zero_or_pos (l.depthOf t) with none | present
  · rw [releaseAll_of_none none] at unlocked
    cases unlocked
  · rw [releaseAll_of_levels present] at unlocked
    cases unlocked
    have all := Shift.release (t := t) (l := l) present (UInt32.le_refl _)
    rwa [UInt32.sub_self, heldFor_zero] at all

theorem isSound (shift : Shift t l m taken released) (sound : l.IsSound) : m.IsSound := by
  cases shift with
  | stay => exact sound
  | take free positive => exact nofun
  | release positive present => exact (isExact_heldFor t _).isSound

theorem depthOf_self (shift : Shift t l m taken released)
    (fits : (l.depthOf t).toNat + taken < UInt32.size) :
    (l.depthOf t).toNat + taken = (m.depthOf t).toNat + released := by
  cases shift with
  | stay => rfl
  | take free positive =>
    rw [depthOf_mk, Nat.add_zero]
    exact (toNat_add_of_fits fits).symm
  | release positive present =>
    have few := UInt32.le_iff_toNat_le.mp present
    rw [depthOf_heldFor, if_pos rfl, UInt32.toNat_sub_of_le _ _ present]
    omega

theorem depthOf_other (shift : Shift t l m taken released) {u : Thread} (other : u ≠ t) :
    m.depthOf u = l.depthOf u := by
  cases shift with
  | stay => rfl
  | take free positive =>
    have before : l.holder ≠ some u := fun held =>
      Bool.eq_false_iff.mp free (isHeldByOther_iff.mpr ⟨u, other, held⟩)
    rw [depthOf_eq_zero before]
    exact depthOf_eq_zero fun held => other (Option.some.inj held).symm
  | release positive present =>
    have own : l.holder = some t :=
      holder_of_depthOf_pos (UInt32.lt_of_lt_of_le positive present)
    have before : l.holder ≠ some u := fun held => other (Option.some.inj (held.symm.trans own))
    rw [depthOf_heldFor, if_neg other, depthOf_eq_zero before]

theorem eq_of_other (shift : Shift t l m taken released) {u : Thread} (other : u ≠ t)
    (held : l.holder = some u) : m = l := by
  cases shift with
  | stay => rfl
  | take free positive =>
    exact absurd (isHeldByOther_iff.mpr ⟨u, other, held⟩) (Bool.eq_false_iff.mp free)
  | release positive present =>
    have own := holder_of_depthOf_pos (UInt32.lt_of_lt_of_le positive present)
    exact absurd (Option.some.inj (held.symm.trans own)) other

theorem holder_of_other (shift : Shift t l m taken released) {u : Thread} (other : u ≠ t)
    (held : m.holder = some u) : l.holder = some u := by
  cases shift with
  | stay => exact held
  | take free positive => exact absurd (Option.some.inj held).symm other
  | release positive present => exact absurd (holder_heldFor_iff.mp held).1 other

theorem eq_of_idle (shift : Shift t l m taken released) (taking : taken = 0)
    (releasing : released = 0) : m = l := by
  cases shift with
  | stay => rfl
  | take free positive =>
    rw [UInt32.lt_iff_toNat_lt, taking] at positive
    exact absurd positive (Nat.lt_irrefl 0)
  | release positive present =>
    rw [UInt32.lt_iff_toNat_lt, releasing] at positive
    exact absurd positive (Nat.lt_irrefl 0)

theorem holder_of_taken (shift : Shift t l m taken released) (positive : 0 < taken) :
    m.holder = some t := by
  cases shift with
  | stay => exact absurd positive (Nat.lt_irrefl 0)
  | take => rfl
  | release => exact absurd positive (Nat.lt_irrefl 0)

theorem holder_of_kept (shift : Shift t l m taken released) (releasing : released = 0)
    (held : l.holder = some t) : m.holder = some t := by
  cases shift with
  | stay => exact held
  | take free positive => rfl
  | release positive present =>
    rw [UInt32.lt_iff_toNat_lt, releasing] at positive
    exact absurd positive (Nat.lt_irrefl 0)

theorem isExact (shift : Shift t l m taken released)
    (fits : (l.depthOf t).toNat + taken < UInt32.size) (exact : l.IsExact) : m.IsExact := by
  cases shift with
  | stay => exact exact
  | take free positive =>
    have levels : (l.depthOf t + _).toNat = _ := toNat_add_of_fits fits
    rw [UInt32.lt_iff_toNat_lt] at positive
    refine iff_of_false nofun fun none => ?_
    rw [show l.depthOf t + _ = 0 from none] at levels
    exact absurd levels (by simp; omega)
  | release positive present => exact isExact_heldFor t _

end Shift

end ReentrantLock

def LockReply.isRefusal : LockReply → Bool
  | .flag false | .slot none | .fault _ | .noSlot | .wouldBlock => true
  | _ => false

namespace LockThreads

open ReentrantLock

/-- How many levels a call takes, by its answer. The end of a scope takes back what the scope has kept. -/
def levelsTaken (s : LockThreads) (t : Thread) (call : LockCall) : Nat :=
  match call, (s.attempt t call).1 with
  | .lock, .done | .tryLock, .flag true | .guard _, .slot (some _) | .tryGuard _, .slot (some _) => 1
  | .reacquire levels, .done => levels.toNat
  | .drop slot, .done | .dropScope slot, .done =>
    match s.kept? t slot with
    | some (.scope depth) => depth.toNat
    | _ => 0
  | _, _ => 0

def levelsReleased (s : LockThreads) (t : Thread) (call : LockCall) : Nat :=
  match call, (s.attempt t call).1 with
  | .unlock, .done => 1
  | .releaseAll, .number levels | .releaseScope, .scope _ levels => levels.toNat
  | .drop slot, .done | .dropScope slot, .done =>
    match s.kept? t slot with
    | some (.guard _) => 1
    | _ => 0
  | _, _ => 0

def takenBy (t : Thread) (s : LockThreads) : List (Thread × LockCall) → Nat
  | [] => 0
  | (u, call) :: rest =>
    (if u = t then s.levelsTaken u call else 0) + takenBy t (s.attempt u call).2 rest

def releasedBy (t : Thread) (s : LockThreads) : List (Thread × LockCall) → Nat
  | [] => 0
  | (u, call) :: rest =>
    (if u = t then s.levelsReleased u call else 0) + releasedBy t (s.attempt u call).2 rest

/-- All that a call does to the lock. -/
theorem shift_attempt (s : LockThreads) (t : Thread) (call : LockCall) (sound : s.lock.IsSound) :
    Shift t s.lock (s.attempt t call).2.lock (s.levelsTaken t call) (s.levelsReleased t call) := by
  have stays := Shift.stay (t := t) (l := s.lock)
  have one : (0 : UInt32) < 1 := by decide
  cases call with
  | isHeld => exact stays
  | lock | guard entity =>
    simp only [levelsTaken, levelsReleased, attempt, perform]
    cases taken : s.lock.acquire? t 1 with
    | none => exact stays
    | some l => exact Shift.of_acquire one taken
  | tryLock | tryGuard entity =>
    simp only [levelsTaken, levelsReleased, attempt, perform]
    cases other : s.lock.isHeldByOther t with
    | true =>
      rw [tryLock_of_other other]
      exact stays
    | false =>
      -- What is added to are no levels, or those of the thread.
      rw [tryLock_of_free sound other]
      exact .take other one
  | reacquire levels =>
    simp only [levelsTaken, levelsReleased, attempt, perform]
    cases taken : s.lock.reacquire? t levels with
    | none => exact stays
    | some l => exact Shift.of_reacquire taken
  | unlock =>
    simp only [levelsTaken, levelsReleased, attempt, perform]
    cases unlocked : s.lock.unlock t with
    | error f => exact stays
    | ok l => exact Shift.of_unlock unlocked
  | releaseAll | releaseScope =>
    simp only [levelsTaken, levelsReleased, attempt, perform]
    cases unlocked : s.lock.releaseAll t with
    | error f => exact stays
    | ok released => exact Shift.of_releaseAll unlocked
  | drop slot | dropScope slot =>
    simp only [levelsTaken, levelsReleased, attempt, perform, endSlot]
    cases kept : s.kept? t slot with
    | none => exact stays
    | some k =>
      cases k with
      | guard entity =>
        cases unlocked : s.lock.unlock t with
        | error f => exact stays
        | ok l => simpa [kept] using Shift.of_unlock unlocked
      | scope depth =>
        cases taken : s.lock.reacquire? t depth with
        | none => simpa [taken] using stays
        | some l => simpa [kept, taken] using Shift.of_reacquire taken

theorem levelsTaken_of_refused {s : LockThreads} {t : Thread} {call : LockCall}
    (refused : (s.attempt t call).1.isRefusal = true) : s.levelsTaken t call = 0 := by
  unfold levelsTaken
  split <;> simp_all [LockReply.isRefusal]

theorem levelsReleased_of_refused {s : LockThreads} {t : Thread} {call : LockCall}
    (refused : (s.attempt t call).1.isRefusal = true) : s.levelsReleased t call = 0 := by
  unfold levelsReleased
  split <;> simp_all [LockReply.isRefusal]

@[simp] theorem slots_keep (s : LockThreads) (t : Thread) (k : Keepsake) :
    (s.keep t k).slots t = s.slots t ++ [some k] :=
  if_pos rfl

@[simp] theorem slots_clearSlot (s : LockThreads) (t : Thread) (slot : Nat) :
    (s.clearSlot t slot).slots t = (s.slots t).set slot none :=
  if_pos rfl

theorem kept?_eq_some {s : LockThreads} {t : Thread} {slot : Nat} {k : Keepsake}
    (kept : (s.slots t)[slot]? = some (some k)) : s.kept? t slot = some k := by
  rw [kept?, kept]
  rfl

section Calls

variable {s : LockThreads} {t : Thread}

theorem attempt_guard_of_free (free : s.lock.isHeldByOther t = false) (entity : Nat) :
    s.attempt t (.guard entity) = (.slot (some (s.slots t).length),
      { s.keep t (.guard entity) with lock := ⟨some t, s.depthOf t + 1⟩ }) := by
  simp [attempt, perform, acquire?_of_free free, depthOf]

theorem attempt_guard_of_other (other : s.lock.isHeldByOther t = true) (entity : Nat) :
    s.attempt t (.guard entity) = (.wouldBlock, s) := by
  simp [attempt, perform, acquire?, other]

theorem attempt_tryGuard_of_free (sound : s.lock.IsSound) (free : s.lock.isHeldByOther t = false)
    (entity : Nat) :
    s.attempt t (.tryGuard entity) = (.slot (some (s.slots t).length),
      { s.keep t (.guard entity) with lock := ⟨some t, s.depthOf t + 1⟩ }) := by
  simp [attempt, perform, tryLock_of_free sound free, depthOf]

theorem attempt_tryGuard_of_other (other : s.lock.isHeldByOther t = true) (entity : Nat) :
    s.attempt t (.tryGuard entity) = (.slot none, s) := by
  simp [attempt, perform, tryLock_of_other other]

theorem attempt_releaseScope (levels : 0 < s.depthOf t) :
    s.attempt t .releaseScope = (.scope (s.slots t).length (s.depthOf t),
      { s.keep t (.scope (s.depthOf t)) with lock := {} }) := by
  simp [attempt, perform, releaseAll_of_levels levels, depthOf]

theorem attempt_releaseAll (levels : 0 < s.depthOf t) :
    s.attempt t .releaseAll = (.number (s.depthOf t), { s with lock := {} }) := by
  simp [attempt, perform, releaseAll_of_levels levels, depthOf]

theorem attempt_drop {slot entity : Nat} (kept : s.kept? t slot = some (.guard entity))
    (levels : 0 < s.depthOf t) :
    s.attempt t (.drop slot) =
      (.done, { s.clearSlot t slot with lock := heldFor t (s.depthOf t - 1) }) := by
  simp [attempt, perform, endSlot, kept, unlock_of_levels levels, depthOf]

theorem attempt_drop_of_none {slot entity : Nat} (kept : s.kept? t slot = some (.guard entity))
    (none : s.depthOf t = 0) :
    s.attempt t (.drop slot) = (.fault (.notHeld .unlock), s.clearSlot t slot) := by
  simp [attempt, perform, endSlot, kept, unlock_of_none none]

theorem reacquire?_of_free {levels : UInt32} (positive : 0 < levels)
    (free : s.lock.isHeldByOther t = false) :
    s.lock.reacquire? t levels = some ⟨some t, s.depthOf t + levels⟩ := by
  rw [reacquire?, if_neg (UInt32.pos_iff_ne_zero.mp positive), acquire?_of_free free, depthOf]

theorem reacquire?_of_other {levels : UInt32} (positive : 0 < levels)
    (other : s.lock.isHeldByOther t = true) : s.lock.reacquire? t levels = none := by
  rw [reacquire?, if_neg (UInt32.pos_iff_ne_zero.mp positive), acquire?, if_pos other]

theorem attempt_dropScope {slot : Nat} {levels : UInt32}
    (kept : s.kept? t slot = some (.scope levels)) (positive : 0 < levels)
    (free : s.lock.isHeldByOther t = false) :
    s.attempt t (.dropScope slot) =
      (.done, { s.clearSlot t slot with lock := ⟨some t, s.depthOf t + levels⟩ }) := by
  simp [attempt, perform, endSlot, kept, reacquire?_of_free positive free]

theorem attempt_dropScope_of_other {slot : Nat} {levels : UInt32}
    (kept : s.kept? t slot = some (.scope levels)) (positive : 0 < levels)
    (other : s.lock.isHeldByOther t = true) :
    s.attempt t (.dropScope slot) = (.wouldBlock, s) := by
  simp [attempt, perform, endSlot, kept, reacquire?_of_other positive other]

theorem attempt_reacquire {levels : UInt32} (positive : 0 < levels)
    (free : s.lock.isHeldByOther t = false) :
    s.attempt t (.reacquire levels) = (.done, { s with lock := ⟨some t, s.depthOf t + levels⟩ }) := by
  simp [attempt, perform, reacquire?_of_free positive free]

theorem attempt_reacquire_of_other {levels : UInt32} (positive : 0 < levels)
    (other : s.lock.isHeldByOther t = true) :
    s.attempt t (.reacquire levels) = (.wouldBlock, s) := by
  simp [attempt, perform, reacquire?_of_other positive other]

end Calls

theorem slots_keep_other (s : LockThreads) {t u : Thread} (other : t ≠ u) (k : Keepsake) :
    (s.keep u k).slots t = s.slots t :=
  if_neg other

theorem slots_clearSlot_other (s : LockThreads) {t u : Thread} (other : t ≠ u) (slot : Nat) :
    (s.clearSlot u slot).slots t = s.slots t :=
  if_neg other

theorem slots_attempt_other (s : LockThreads) {t u : Thread} (other : t ≠ u) (call : LockCall) :
    (s.attempt u call).2.slots t = s.slots t := by
  cases call with
  | isHeld | tryLock => rfl
  | lock =>
    simp only [attempt, perform]
    cases s.lock.acquire? u 1 <;> rfl
  | reacquire levels =>
    simp only [attempt, perform]
    cases s.lock.reacquire? u levels <;> rfl
  | unlock =>
    simp only [attempt, perform]
    cases s.lock.unlock u <;> rfl
  | releaseAll =>
    simp only [attempt, perform]
    cases s.lock.releaseAll u <;> rfl
  | guard entity =>
    simp only [attempt, perform]
    cases s.lock.acquire? u 1 with
    | none => rfl
    | some l => exact s.slots_keep_other other _
  | tryGuard entity =>
    simp only [attempt, perform]
    obtain ⟨taken, l⟩ := s.lock.tryLock u
    cases taken with
    | false => rfl
    | true => exact s.slots_keep_other other _
  | releaseScope =>
    simp only [attempt, perform]
    cases s.lock.releaseAll u with
    | error f => rfl
    | ok released => exact s.slots_keep_other other _
  | drop slot | dropScope slot =>
    simp only [attempt, perform, endSlot]
    cases s.kept? u slot with
    | none => rfl
    | some k =>
      cases k with
      | guard entity =>
        cases s.lock.unlock u <;> exact s.slots_clearSlot_other other slot
      | scope depth =>
        cases taken : s.lock.reacquire? u depth with
        | none => simp [taken]
        | some l => simpa [taken] using s.slots_clearSlot_other other slot

end LockThreads

end AvbEntity
