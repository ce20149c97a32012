namespace AvbEntity

abbrev Thread := Nat

inductive ReleaseKind where
  | unlock
  | releaseAll
deriving DecidableEq

inductive LockFault where
  | notHeld (operation : ReleaseKind)
deriving DecidableEq

namespace LockFault

def message : LockFault → String
  | notHeld .unlock => "EntityLock::unlock called by a thread that does not hold the lock"
  | notHeld .releaseAll => "EntityLock::release_all called by a thread that does not hold the lock"

end LockFault

/-- The state of a lock: its holder, and how many levels the holder has. Their number is a word, and a
level beyond the greatest number makes it zero again. -/
structure ReentrantLock where
  holder : Option Thread := none
  depth : UInt32 := 0
deriving DecidableEq

namespace ReentrantLock

instance : Inhabited ReentrantLock := ⟨{}⟩

def isHeldBy (l : ReentrantLock) (t : Thread) : Bool := l.holder == some t

def isHeldByOther (l : ReentrantLock) (t : Thread) : Bool :=
  match l.holder with
  | some u => u != t
  | none => false

def depthOf (l : ReentrantLock) (t : Thread) : UInt32 := if l.isHeldBy t then l.depth else 0

def acquire? (l : ReentrantLock) (t : Thread) (levels : UInt32) : Option ReentrantLock :=
  if l.isHeldByOther t then none else some ⟨some t, l.depthOf t + levels⟩

/-- Takes one level, unless another thread holds the lock, and tells whether it did. A lock without a
holder is to have no levels, for they would be added to. -/
def tryLock (l : ReentrantLock) (t : Thread) : Bool × ReentrantLock :=
  if l.isHeldByOther t then (false, l) else (true, ⟨some t, l.depth + 1⟩)

def reacquire? (l : ReentrantLock) (t : Thread) (levels : UInt32) : Option ReentrantLock :=
  if levels = 0 then some l else l.acquire? t levels

def unlock (l : ReentrantLock) (t : Thread) : Except LockFault ReentrantLock :=
  if l.isHeldBy t ∧ 0 < l.depth then
    .ok (if l.depth = 1 then {} else { l with depth := l.depth - 1 })
  else .error (.notHeld .unlock)

def releaseAll (l : ReentrantLock) (t : Thread) : Except LockFault (UInt32 × ReentrantLock) :=
  if l.isHeldBy t ∧ 0 < l.depth then .ok (l.depth, {}) else .error (.notHeld .releaseAll)

end ReentrantLock

end AvbEntity
