import AvbEntity.Proofs.Lock.Ownership

namespace AvbEntity

open ReentrantLock

/-- What a thread does with a lock in well-nested blocks, one after another. The index tells whether the
thread has a level where it stands: levels are only given up by a thread that has some. -/
inductive LockProgram : Bool → Type where
  | done {held : Bool} : LockProgram held
  | guarded {held : Bool} (entity : Nat) (block : LockProgram true) (rest : LockProgram held) :
    LockProgram held
  | tryGuarded {held : Bool} (entity : Nat) (block : LockProgram true)
    (rest refused : LockProgram held) : LockProgram held
  | inScope (block : LockProgram false) (rest : LockProgram true) : LockProgram true
  /-- Releases all levels before a block, and takes their number back after it. -/
  | released (block : LockProgram false) (rest : LockProgram true) : LockProgram true

/-- The blocks that a thread is in, innermost first, each with what follows it. A block without levels has
the depth that the thread had just before it. -/
inductive OpenBlocks : Bool → Type where
  | outermost {held : Bool} : OpenBlocks held
  | guard {outer : Bool} (slot : Nat) (rest : LockProgram outer) (enclosing : OpenBlocks outer) :
    OpenBlocks true
  | scope (slot : Nat) (before : UInt32) (rest : LockProgram true) (enclosing : OpenBlocks true) :
    OpenBlocks false
  | released (levels before : UInt32) (rest : LockProgram true) (enclosing : OpenBlocks true) :
    OpenBlocks false

structure NestedUse where
  threads : LockThreads
  held : Bool
  program : LockProgram held
  blocks : OpenBlocks held

inductive Turn (t : Thread) where
  | own
  | other (u : Thread) (different : u ≠ t) (call : LockCall)

namespace LockProgram

def size : {held : Bool} → LockProgram held → Nat
  | _, done => 0
  | _, guarded _ block rest => block.size + rest.size + 2
  | _, tryGuarded _ block rest refused => block.size + rest.size + refused.size + 2
  | _, inScope block rest | _, released block rest => block.size + rest.size + 2

end LockProgram

namespace OpenBlocks

def size : {held : Bool} → OpenBlocks held → Nat
  | _, outermost => 0
  | _, guard _ rest enclosing => rest.size + enclosing.size + 1
  | _, scope _ _ rest enclosing | _, released _ _ rest enclosing => rest.size + enclosing.size + 1

def levels (depth : Nat) : {held : Bool} → OpenBlocks held → Nat
  | _, outermost => depth
  | _, guard _ _ enclosing => enclosing.levels depth + 1
  | _, scope .. | _, released .. => 0

def isReleased : {held : Bool} → OpenBlocks held → Bool
  | _, scope .. | _, released .. => true
  | _, _ => false

def Valid (slots : List (Option Keepsake)) (depth : Nat) :
    {held : Bool} → OpenBlocks held → Nat → Prop
  | held, outermost, _ => held = decide (0 < depth)
  | _, guard slot _ enclosing, bound => slot < bound ∧
    (∃ entity, slots[slot]? = some (some (.guard entity))) ∧ enclosing.Valid slots depth slot
  | _, scope slot before _ enclosing, bound => slot < bound ∧
    slots[slot]? = some (some (.scope before)) ∧ before.toNat = enclosing.levels depth ∧
    enclosing.Valid slots depth slot
  | _, released levels before _ enclosing, bound => levels = before ∧
    before.toNat = enclosing.levels depth ∧ enclosing.Valid slots depth bound

theorem Valid.held_iff {slots : List (Option Keepsake)} {depth bound : Nat} {held : Bool}
    {blocks : OpenBlocks held} (valid : blocks.Valid slots depth bound) :
    held = true ↔ 0 < blocks.levels depth := by
  cases blocks with
  | outermost =>
    rw [show held = decide (0 < depth) from valid, decide_eq_true_iff, levels]
  | guard => simp [levels]
  | scope | released => simp [levels]

theorem isReleased_of_held (blocks : OpenBlocks true) : blocks.isReleased = false := by
  cases blocks <;> rfl

theorem levels_of_isReleased {held : Bool} {blocks : OpenBlocks held} (depth : Nat)
    (released : blocks.isReleased = true) : blocks.levels depth = 0 := by
  cases blocks with
  | outermost | guard => cases released
  | scope | released => rfl

theorem Valid.frame {slots slots' : List (Option Keepsake)} {depth bound bound' : Nat} {held : Bool}
    {blocks : OpenBlocks held} (valid : blocks.Valid slots depth bound) (above : bound ≤ bound')
    (same : ∀ i, i < bound → slots'[i]? = slots[i]?) : blocks.Valid slots' depth bound' := by
  induction blocks generalizing bound bound' with
  | outermost => exact valid
  | guard slot rest enclosing ih =>
    obtain ⟨below, ⟨entity, kept⟩, outer⟩ := valid
    refine ⟨Nat.lt_of_lt_of_le below above, ⟨entity, (same slot below).trans kept⟩, ?_⟩
    exact ih outer (Nat.le_refl slot) fun i lower => same i (Nat.lt_trans lower below)
  | scope slot before rest enclosing ih =>
    obtain ⟨below, kept, depth, outer⟩ := valid
    refine ⟨Nat.lt_of_lt_of_le below above, (same slot below).trans kept, depth, ?_⟩
    exact ih outer (Nat.le_refl slot) fun i lower => same i (Nat.lt_trans lower below)
  | released levels before rest enclosing ih =>
    obtain ⟨all, depth, outer⟩ := valid
    exact ⟨all, depth, ih outer above same⟩

theorem Valid.keep {slots : List (Option Keepsake)} {depth : Nat} {held : Bool}
    {blocks : OpenBlocks held} (valid : blocks.Valid slots depth slots.length) (k : Option Keepsake) :
    blocks.Valid (slots ++ [k]) depth slots.length :=
  valid.frame (Nat.le_refl _) fun _ below => List.getElem?_append_left below

theorem Valid.clear {slots : List (Option Keepsake)} {depth slot : Nat} {held : Bool}
    {blocks : OpenBlocks held} (valid : blocks.Valid slots depth slot) (below : slot < slots.length) :
    blocks.Valid (slots.set slot none) depth (slots.set slot none).length := by
  rw [List.length_set]
  exact valid.frame (Nat.le_of_lt below) fun i lower => List.getElem?_set_ne (Nat.ne_of_gt lower)

end OpenBlocks

namespace NestedUse

def nextCall : NestedUse → Option LockCall
  | ⟨_, _, .guarded entity _ _, _⟩ => some (.guard entity)
  | ⟨_, _, .tryGuarded entity _ _ _, _⟩ => some (.tryGuard entity)
  | ⟨_, _, .inScope _ _, _⟩ => some .releaseScope
  | ⟨_, _, .released _ _, _⟩ => some .releaseAll
  | ⟨_, _, .done, .guard slot _ _⟩ => some (.drop slot)
  | ⟨_, _, .done, .scope slot _ _ _⟩ => some (.dropScope slot)
  | ⟨_, _, .done, .released levels _ _ _⟩ => some (.reacquire levels)
  | ⟨_, _, .done, .outermost⟩ => none

def advance (t : Thread) (c : NestedUse) (reply : LockReply) (threads : LockThreads) : NestedUse :=
  match c, reply with
  | ⟨_, _, .guarded _ block rest, blocks⟩, .slot (some slot)
  | ⟨_, _, .tryGuarded _ block rest _, blocks⟩, .slot (some slot) =>
    ⟨threads, true, block, .guard slot rest blocks⟩
  | ⟨_, held, .tryGuarded _ _ _ refused, blocks⟩, .slot none => ⟨threads, held, refused, blocks⟩
  | ⟨before, _, .inScope block rest, blocks⟩, .scope slot _ =>
    ⟨threads, false, block, .scope slot (before.depthOf t) rest blocks⟩
  | ⟨before, _, .released block rest, blocks⟩, .number levels =>
    ⟨threads, false, block, .released levels (before.depthOf t) rest blocks⟩
  | ⟨_, _, .done, .guard _ rest enclosing⟩, .done => ⟨threads, _, rest, enclosing⟩
  | ⟨_, _, .done, .scope _ _ rest enclosing⟩, .done
  | ⟨_, _, .done, .released _ _ rest enclosing⟩, .done => ⟨threads, true, rest, enclosing⟩
  | c, _ => { c with threads }

def turn {t : Thread} (c : NestedUse) : Turn t → NestedUse
  | .own =>
    match c.nextCall with
    | some call =>
      let (reply, threads) := c.threads.attempt t call
      c.advance t reply threads
    | none => c
  | .other u _ call => { c with threads := (c.threads.attempt u call).2 }

def run {t : Thread} (c : NestedUse) (turns : List (Turn t)) : NestedUse := turns.foldl turn c

def remaining (c : NestedUse) : Nat := c.program.size + c.blocks.size

/-- Whether the thread is to take a guard where it has the greatest number of levels already. -/
def Overfills (t : Thread) (c : NestedUse) : Prop :=
  c.threads.depthOf t = 0xFFFFFFFF ∧
    ∃ entity, c.nextCall = some (.guard entity) ∨ c.nextCall = some (.tryGuard entity)

structure Consistent (t : Thread) (depth : Nat) (c : NestedUse) : Prop where
  sound : c.threads.lock.IsSound
  levels : (c.threads.depthOf t).toNat = c.blocks.levels depth
  valid : c.blocks.Valid (c.threads.slots t) depth (c.threads.slots t).length
  released : c.blocks.isReleased = true → c.threads.lock.holder ≠ some t

theorem succ_fits {levels : UInt32} (room : levels ≠ 0xFFFFFFFF) :
    levels.toNat + (1 : UInt32).toNat < UInt32.size := by
  have few := levels.toNat_lt_size
  have other : levels.toNat ≠ 0xFFFFFFFF := fun full => room (UInt32.toNat_inj.mp full)
  have one : (1 : UInt32).toNat = 1 := rfl
  have size : UInt32.size = 0xFFFFFFFF + 1 := rfl
  omega

namespace Consistent

variable {t : Thread} {depth : Nat} {s : LockThreads} {held outer : Bool}

theorem openGuard {program : LockProgram held} {blocks : OpenBlocks held}
    (consistent : Consistent t depth ⟨s, held, program, blocks⟩) (room : s.depthOf t ≠ 0xFFFFFFFF)
    (entity : Nat) (block : LockProgram true) (rest : LockProgram held) :
    Consistent t depth ⟨{ s.keep t (.guard entity) with lock := ⟨some t, s.depthOf t + 1⟩ }, true,
      block, .guard (s.slots t).length rest blocks⟩ where
  sound := nofun
  levels := by
    have more := toNat_add_of_fits (succ_fits room)
    rw [consistent.levels] at more
    exact (congrArg UInt32.toNat (depthOf_mk t _)).trans more
  valid := by
    simp only [LockThreads.slots_keep]
    exact ⟨by simp, ⟨entity, List.getElem?_concat_length⟩, consistent.valid.keep _⟩
  released := nofun

theorem openScope {program : LockProgram true} {blocks : OpenBlocks true}
    (consistent : Consistent t depth ⟨s, true, program, blocks⟩)
    (block : LockProgram false) (rest : LockProgram true) :
    Consistent t depth ⟨{ s.keep t (.scope (s.depthOf t)) with lock := {} }, false,
      block, .scope (s.slots t).length (s.depthOf t) rest blocks⟩ where
  sound _ := rfl
  levels := rfl
  valid := by
    simp only [LockThreads.slots_keep]
    exact ⟨by simp, List.getElem?_concat_length, consistent.levels, consistent.valid.keep _⟩
  released _ := nofun

theorem openReleased {program : LockProgram true} {blocks : OpenBlocks true}
    (consistent : Consistent t depth ⟨s, true, program, blocks⟩)
    (block : LockProgram false) (rest : LockProgram true) :
    Consistent t depth ⟨{ s with lock := {} }, false,
      block, .released (s.depthOf t) (s.depthOf t) rest blocks⟩ where
  sound _ := rfl
  levels := rfl
  valid := ⟨rfl, consistent.levels, consistent.valid⟩
  released _ := nofun

theorem closeGuard {program : LockProgram true} {slot : Nat} {rest : LockProgram outer}
    {enclosing : OpenBlocks outer}
    (consistent : Consistent t depth ⟨s, true, program, .guard slot rest enclosing⟩) :
    Consistent t depth ⟨{ s.clearSlot t slot with lock := heldFor t (s.depthOf t - 1) }, outer,
      rest, enclosing⟩ := by
  have levels : (s.depthOf t).toNat = enclosing.levels depth + 1 := consistent.levels
  have one : (1 : UInt32).toNat = 1 := rfl
  have first : (1 : UInt32) ≤ s.depthOf t := UInt32.le_iff_toNat_le.mpr (by omega)
  have left : (s.depthOf t - 1).toNat = enclosing.levels depth := by
    rw [UInt32.toNat_sub_of_le _ _ first, levels, one, Nat.add_sub_cancel]
  constructor
  · exact (isExact_heldFor t _).isSound
  · simpa [LockThreads.depthOf] using left
  · simp only [LockThreads.slots_clearSlot]
    exact consistent.valid.2.2.clear consistent.valid.1
  · intro released held
    rw [OpenBlocks.levels_of_isReleased depth released] at left
    exact (holder_heldFor_iff.mp held).2 (UInt32.toNat_inj.mp left)

theorem closeScope {program : LockProgram false} {slot : Nat} {before : UInt32}
    {rest : LockProgram true} {enclosing : OpenBlocks true}
    (consistent : Consistent t depth ⟨s, false, program, .scope slot before rest enclosing⟩) :
    Consistent t depth ⟨{ s.clearSlot t slot with lock := ⟨some t, before⟩ }, true, rest, enclosing⟩ where
  sound := nofun
  levels := (congrArg UInt32.toNat (depthOf_mk t before)).trans consistent.valid.2.2.1
  valid := by
    simp only [LockThreads.slots_clearSlot]
    exact consistent.valid.2.2.2.clear consistent.valid.1
  released free := absurd (enclosing.isReleased_of_held.symm.trans free) Bool.false_ne_true

theorem closeReleased {program : LockProgram false} {levels before : UInt32}
    {rest : LockProgram true} {enclosing : OpenBlocks true}
    (consistent : Consistent t depth ⟨s, false, program, .released levels before rest enclosing⟩) :
    Consistent t depth ⟨{ s with lock := ⟨some t, before⟩ }, true, rest, enclosing⟩ where
  sound := nofun
  levels := (congrArg UInt32.toNat (depthOf_mk t before)).trans consistent.valid.2.1
  valid := consistent.valid.2.2
  released free := absurd (enclosing.isReleased_of_held.symm.trans free) Bool.false_ne_true

end Consistent

inductive OwnTurn (t : Thread) (depth : Nat) (c : NestedUse) : Prop where
  | finished (none : c.nextCall = none) (blocks : c.blocks.levels depth = depth)
  | waits (call : LockCall) (next : c.nextCall = some call)
    (other : c.threads.lock.isHeldByOther t = true)
    (answer : c.threads.attempt t call = (.wouldBlock, c.threads))
  | goesOn (call : LockCall) (reply : LockReply) (threads : LockThreads)
    (next : c.nextCall = some call) (answer : c.threads.attempt t call = (reply, threads))
    (answered : reply ≠ .wouldBlock) (soundly : ∀ f, reply ≠ .fault f)
    (consistent : ¬ c.Overfills t → (c.advance t reply threads).Consistent t depth)
    (shorter : (c.advance t reply threads).remaining < c.remaining)

open LockThreads in
theorem ownTurn {t : Thread} {depth : Nat} {c : NestedUse} (consistent : c.Consistent t depth) :
    c.OwnTurn t depth := by
  obtain ⟨s, held, program, blocks⟩ := c
  have levels : (s.depthOf t).toNat = blocks.levels depth := consistent.levels
  have valid := consistent.valid
  have positive : held = true → 0 < s.depthOf t := fun has => by
    rw [UInt32.lt_iff_toNat_lt, levels]
    exact valid.held_iff.mp has
  cases program with
  | guarded entity block rest =>
    cases other : s.lock.isHeldByOther t with
    | true => exact .waits _ rfl other (attempt_guard_of_other other entity)
    | false =>
      refine .goesOn _ _ _ rfl (attempt_guard_of_free other entity) nofun nofun (fun room => ?_) ?_
      · exact consistent.openGuard (fun full => room ⟨full, entity, .inl rfl⟩) entity block rest
      · simp [advance, remaining, OpenBlocks.size, LockProgram.size]
        omega
  | tryGuarded entity block rest refused =>
    cases other : s.lock.isHeldByOther t with
    | true =>
      refine .goesOn _ _ _ rfl (attempt_tryGuard_of_other other entity) nofun nofun
        (fun _ => ⟨consistent.sound, levels, valid, consistent.released⟩) ?_
      simp [advance, remaining, LockProgram.size]
      omega
    | false =>
      refine .goesOn _ _ _ rfl (attempt_tryGuard_of_free consistent.sound other entity) nofun nofun
        (fun room => ?_) ?_
      · exact consistent.openGuard (fun full => room ⟨full, entity, .inr rfl⟩) entity block rest
      · simp [advance, remaining, OpenBlocks.size, LockProgram.size]
        omega
  | inScope block rest =>
    refine .goesOn _ _ _ rfl (attempt_releaseScope (positive rfl)) nofun nofun
      (fun _ => consistent.openScope block rest) ?_
    simp [advance, remaining, OpenBlocks.size, LockProgram.size]
    omega
  | released block rest =>
    refine .goesOn _ _ _ rfl (attempt_releaseAll (positive rfl)) nofun nofun
      (fun _ => consistent.openReleased block rest) ?_
    simp [advance, remaining, OpenBlocks.size, LockProgram.size]
    omega
  | done =>
    cases blocks with
    | outermost => exact .finished (by simp [nextCall]) rfl
    | guard slot rest enclosing =>
      obtain ⟨-, ⟨entity, kept⟩, -⟩ := valid
      refine .goesOn _ _ _ rfl (attempt_drop (kept?_eq_some kept) (positive rfl)) nofun nofun
        (fun _ => consistent.closeGuard) ?_
      simp [advance, remaining, OpenBlocks.size]
      omega
    | scope slot before rest enclosing =>
      obtain ⟨-, kept, depth, outer⟩ := valid
      have some : 0 < before := by
        rw [UInt32.lt_iff_toNat_lt, depth]
        exact outer.held_iff.mp rfl
      cases other : s.lock.isHeldByOther t with
      | true => exact .waits _ rfl other (attempt_dropScope_of_other (kept?_eq_some kept) some other)
      | false =>
        have none : s.depthOf t = 0 := UInt32.toNat_inj.mp levels
        have answer := attempt_dropScope (kept?_eq_some kept) some other
        rw [none, UInt32.zero_add] at answer
        refine .goesOn _ _ _ rfl answer nofun nofun (fun _ => consistent.closeScope) ?_
        simp [advance, remaining, OpenBlocks.size]
        omega
    | released all before rest enclosing =>
      obtain ⟨rfl, depth, outer⟩ := valid
      have some : 0 < all := by
        rw [UInt32.lt_iff_toNat_lt, depth]
        exact outer.held_iff.mp rfl
      cases other : s.lock.isHeldByOther t with
      | true => exact .waits _ rfl other (attempt_reacquire_of_other some other)
      | false =>
        have none : s.depthOf t = 0 := UInt32.toNat_inj.mp levels
        have answer := attempt_reacquire some other
        rw [none, UInt32.zero_add] at answer
        refine .goesOn _ _ _ rfl answer nofun nofun (fun _ => consistent.closeReleased) ?_
        simp [advance, remaining, OpenBlocks.size]
        omega

theorem turn_own {t : Thread} {c : NestedUse} {call : LockCall} {reply : LockReply}
    {threads : LockThreads} (next : c.nextCall = some call)
    (answer : c.threads.attempt t call = (reply, threads)) :
    c.turn (t := t) .own = c.advance t reply threads := by
  simp only [turn, next, answer]

theorem advance_wouldBlock (t : Thread) (c : NestedUse) : c.advance t .wouldBlock c.threads = c := by
  obtain ⟨s, held, program, blocks⟩ := c
  cases program with
  | done =>
    cases blocks with
    | outermost => simp [advance]
    | _ => rfl
  | _ => rfl

theorem Consistent.own {t : Thread} {depth : Nat} {c : NestedUse}
    (consistent : c.Consistent t depth) (room : ¬ c.Overfills t) :
    (c.turn (t := t) .own).Consistent t depth := by
  cases ownTurn consistent with
  | finished none blocks =>
    rw [turn, none]
    exact consistent
  | waits call next other answer =>
    rw [turn_own next answer, advance_wouldBlock]
    exact consistent
  | goesOn call reply threads next answer answered soundly after shorter =>
    rw [turn_own next answer]
    exact after room

theorem Consistent.other {t u : Thread} {depth : Nat} {c : NestedUse}
    (consistent : c.Consistent t depth) (different : u ≠ t) (call : LockCall) :
    (c.turn (.other u different call)).Consistent t depth := by
  have shift := c.threads.shift_attempt u call consistent.sound
  have slots := c.threads.slots_attempt_other (Ne.symm different) call
  constructor
  · exact shift.isSound consistent.sound
  · have same := shift.depthOf_other (Ne.symm different)
    exact (congrArg UInt32.toNat same).trans consistent.levels
  · simp only [turn, slots]
    exact consistent.valid
  · intro released held
    exact consistent.released released (shift.holder_of_other (Ne.symm different) held)

theorem Consistent.run {t : Thread} {depth : Nat} {c : NestedUse}
    (consistent : c.Consistent t depth) {turns : List (Turn t)}
    (room : ∀ before after, turns = before ++ .own :: after → ¬ (c.run before).Overfills t) :
    (c.run turns).Consistent t depth := by
  induction turns generalizing c with
  | nil => exact consistent
  | cons turn turns ih =>
    have next : (c.turn turn).Consistent t depth := by
      cases turn with
      | own => exact consistent.own (room [] turns rfl)
      | other u different call => exact consistent.other different call
    exact ih next fun before after split =>
      room (turn :: before) after (congrArg (turn :: ·) split)

-- Two levels are given up around a level of another thread, for which the end of the scope waits.
example :
    let program : LockProgram false :=
      .guarded 0 (.guarded 0 (.inScope (.guarded 0 .done .done) .done) .done) .done
    let other (call : LockCall) : Turn 0 := .other 1 (by decide) call
    let c := run ⟨{}, false, program, .outermost⟩
      [.own, .own, .own, .own, .own, other .lock, .own, other .unlock, .own]
    c.threads.depthOf 0 = 2 ∧ c.remaining = 2 := by
  decide

end NestedUse

end AvbEntity
