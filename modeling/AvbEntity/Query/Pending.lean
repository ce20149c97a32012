import AvbEntity.Query.Retry

namespace AvbEntity

structure PendingQueries (κ : Type) where
  outstanding : List κ
  nodup : outstanding.Nodup
  retries : UInt16
  policy : RetryPolicy

namespace PendingQueries

variable {κ : Type} [DecidableEq κ]

def new (policy : RetryPolicy) : PendingQueries κ := ⟨[], .nil, 0, policy⟩

instance : Inhabited (PendingQueries κ) := ⟨new default⟩

def isExpected (q : PendingQueries κ) (key : κ) : Bool := q.outstanding.contains key

def expect (q : PendingQueries κ) (key : κ) : PendingQueries κ :=
  if h : key ∈ q.outstanding then q
  else { q with outstanding := key :: q.outstanding, nodup := List.nodup_cons.mpr ⟨h, q.nodup⟩ }

def clearMatching (q : PendingQueries κ) (p : κ → Bool) : PendingQueries κ :=
  { q with
    outstanding := q.outstanding.filter fun key => !p key
    nodup := q.nodup.filter _ }

def take (q : PendingQueries κ) (key : κ) : Bool × PendingQueries κ :=
  (q.isExpected key, q.clearMatching (· = key))

def clearAll (q : PendingQueries κ) : PendingQueries κ := q.clearMatching fun _ => true

def allSatisfied (q : PendingQueries κ) : Bool := q.outstanding.isEmpty

def count (q : PendingQueries κ) : Nat := q.outstanding.length

def isExhausted (q : PendingQueries κ) : Bool := q.policy.maxAttempts ≤ q.retries

def retry (q : PendingQueries κ) : RetryDecision × PendingQueries κ :=
  if q.isExhausted then (.exhausted, q)
  else
    let attempt := q.retries + 1
    (.retry (q.policy.delayFor attempt), { q with retries := attempt })

def resetRetries (q : PendingQueries κ) : PendingQueries κ := { q with retries := 0 }

end PendingQueries

end AvbEntity
