import AvbEntity.Lock.Basic

namespace AvbEntity

inductive Keepsake where
  | guard (entity : Nat)
  | scope (depth : UInt32)
deriving DecidableEq

inductive LockCall where
  | lock
  | tryLock
  | unlock
  | releaseAll
  | reacquire (levels : UInt32)
  | isHeld
  | guard (entity : Nat)
  | tryGuard (entity : Nat)
  | releaseScope
  | drop (slot : Nat)
  | dropScope (slot : Nat)
deriving DecidableEq

def LockCall.canWait : LockCall → Bool
  | lock | guard _ | dropScope _ => true
  | reacquire levels => 0 < levels
  | _ => false

inductive LockReply where
  | done
  | flag (value : Bool)
  | number (n : UInt32)
  | slot (n : Option Nat)
  | scope (slot : Nat) (depth : UInt32)
  | fault (f : LockFault)
  | noSlot
  | wouldBlock
  | waiting
  | waiterExists
  | threadWaiting
deriving DecidableEq

structure LockThreads where
  lock : ReentrantLock := {}
  /-- What each thread keeps, by slot; a slot is not used again. -/
  slots : Thread → List (Option Keepsake) := fun _ => []
  waiter : Option (Thread × LockCall) := none

namespace LockThreads

instance : Inhabited LockThreads := ⟨{}⟩

def kept? (s : LockThreads) (t : Thread) (slot : Nat) : Option Keepsake :=
  ((s.slots t)[slot]?).join

def setSlots (s : LockThreads) (t : Thread) (slots : List (Option Keepsake)) : LockThreads :=
  { s with slots := fun u => if u = t then slots else s.slots u }

def keep (s : LockThreads) (t : Thread) (k : Keepsake) : LockThreads :=
  s.setSlots t (s.slots t ++ [some k])

def clearSlot (s : LockThreads) (t : Thread) (slot : Nat) : LockThreads :=
  s.setSlots t ((s.slots t).set slot none)

def isWaiting (s : LockThreads) (t : Thread) : Bool :=
  match s.waiter with
  | some (u, _) => u == t
  | none => false

def depthOf (s : LockThreads) (t : Thread) : UInt32 := s.lock.depthOf t

/-- Ends what a thread keeps in a slot; none if that has to wait. A guard releases its level, and a
scope takes its levels back. The slot is empty afterwards even if releasing the level is a fault. -/
def endSlot (s : LockThreads) (t : Thread) (slot : Nat) : Option (LockReply × LockThreads) :=
  match s.kept? t slot with
  | none => some (.noSlot, s)
  | some (.guard _) =>
    let rest := s.clearSlot t slot
    match s.lock.unlock t with
    | .ok lock => some (.done, { rest with lock })
    | .error f => some (.fault f, rest)
  | some (.scope depth) =>
    (s.lock.reacquire? t depth).map fun lock => (.done, { s.clearSlot t slot with lock })

def perform (s : LockThreads) (t : Thread) : LockCall → Option (LockReply × LockThreads)
  | .lock => (s.lock.acquire? t 1).map fun lock => (.done, { s with lock })
  | .tryLock =>
    let (taken, lock) := s.lock.tryLock t
    some (.flag taken, { s with lock })
  | .unlock =>
    match s.lock.unlock t with
    | .ok lock => some (.done, { s with lock })
    | .error f => some (.fault f, s)
  | .releaseAll =>
    match s.lock.releaseAll t with
    | .ok (depth, lock) => some (.number depth, { s with lock })
    | .error f => some (.fault f, s)
  | .reacquire levels =>
    (s.lock.reacquire? t levels).map fun lock => (.done, { s with lock })
  | .isHeld => some (.flag (s.lock.isHeldBy t), s)
  | .guard entity =>
    (s.lock.acquire? t 1).map fun lock =>
      (.slot (some (s.slots t).length), { s.keep t (.guard entity) with lock })
  | .tryGuard entity =>
    match s.lock.tryLock t with
    | (true, lock) =>
      some (.slot (some (s.slots t).length), { s.keep t (.guard entity) with lock })
    | (false, _) => some (.slot none, s)
  | .releaseScope =>
    match s.lock.releaseAll t with
    | .ok (depth, lock) =>
      some (.scope (s.slots t).length depth, { s.keep t (.scope depth) with lock })
    | .error f => some (.fault f, s)
  | .drop slot | .dropScope slot => s.endSlot t slot

def attempt (s : LockThreads) (t : Thread) (call : LockCall) : LockReply × LockThreads :=
  (s.perform t call).getD (.wouldBlock, s)

def run (s : LockThreads) (calls : List (Thread × LockCall)) : LockThreads :=
  calls.foldl (fun s (t, call) => (s.attempt t call).2) s

def wake (s : LockThreads) : Option (Thread × LockReply) × LockThreads :=
  match s.waiter with
  | none => (none, s)
  | some (t, call) =>
    match ({ s with waiter := none } : LockThreads).perform t call with
    | some (reply, s) => (some (t, reply), s)
    | none => (none, s)

/-- Makes a call, which may be left waiting, and completes the waiting call if it frees the lock. -/
def step (s : LockThreads) (t : Thread) (call : LockCall) (mayWait : Bool) :
    LockReply × Option (Thread × LockReply) × LockThreads :=
  if s.isWaiting t then (.threadWaiting, none, s)
  else if call.canWait ∧ s.lock.isHeldByOther t then
    if !mayWait then (.wouldBlock, none, s)
    else if s.waiter.isSome then (.waiterExists, none, s)
    else (.waiting, none, { s with waiter := some (t, call) })
  else match s.perform t call with
    | none => (.wouldBlock, none, s)
    | some (reply, s) =>
      let (woken, s) := s.wake
      (reply, woken, s)

end LockThreads

end AvbEntity
