import AvbEntity.Time.Duration

namespace AvbEntity

inductive Backoff where
  | fixed
  | exponential (cap : Duration)
deriving DecidableEq

structure RetryPolicy where
  maxAttempts : UInt16 := 1
  delay : Duration := .ofMillis 500
  backoff : Backoff := .fixed
deriving DecidableEq

namespace RetryPolicy

instance : Inhabited RetryPolicy := ⟨{}⟩

/-- How often the delay has been doubled before an attempt; the doubling stops after 31 times. -/
def doublings (attempt : UInt16) : Nat := min (attempt.toNat - 1) 31

def delayFor (p : RetryPolicy) (attempt : UInt16) : Duration :=
  match p.backoff with
  | .fixed => p.delay
  | .exponential cap =>
    match p.delay.times? (Nat.pow 2 (doublings attempt)) with
    | some delay => delay.min cap
    | none => cap

def describe (p : RetryPolicy) : String :=
  let attempts := toString p.maxAttempts.toNat ++ " attempt(s), " ++ toString p.delay.millis ++ "ms "
  match p.backoff with
  | .fixed => attempts ++ "fixed"
  | .exponential cap => attempts ++ "doubling up to " ++ toString cap.millis ++ "ms"

end RetryPolicy

inductive RetryDecision where
  | retry (delay : Duration)
  | exhausted
deriving DecidableEq

namespace RetryDecision

def shouldRetry : RetryDecision → Bool
  | retry _ => true
  | exhausted => false

def delay : RetryDecision → Duration
  | retry delay => delay
  | exhausted => .zero

end RetryDecision

end AvbEntity
