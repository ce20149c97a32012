import AvbEntity.Config.Basic
import AvbEntity.Settings

namespace AvbEntity

inductive RetryFault where
  | tooManyAttempts (attempts : UInt16)
  | noDelay
  | capBelowDelay (cap delay : UInt64)
deriving DecidableEq

def RetryConfig.attemptsLimit : UInt16 := 32

namespace RetryFault

def setting : RetryFault → String
  | tooManyAttempts _ => "max_attempts"
  | noDelay => "delay_ms"
  | capBelowDelay .. => "max_delay_ms"

def reason : RetryFault → String
  | tooManyAttempts attempts =>
    toString attempts.toNat ++ " exceeds the limit of " ++
      toString RetryConfig.attemptsLimit.toNat
  | noDelay => "must be greater than zero"
  | capBelowDelay cap delay =>
    toString cap.toNat ++ " is below delay_ms (" ++ toString delay.toNat ++ ")"

end RetryFault

inductive ConfigError where
  | invalid (kind : QueryKind) (fault : RetryFault)
  | unwritable
  | unreadable
  | inaccessible
deriving DecidableEq

def ConfigError.message? : ConfigError → Option String
  | invalid kind fault =>
    some ("invalid retries." ++ kind.configName ++ "." ++ fault.setting ++ ": " ++ fault.reason)
  | _ => none

namespace RetryConfig

/-- The cap of a growing delay; unless it is set, eight times the delay, as far as 64 bits hold it. -/
def effectiveCap (r : RetryConfig) : UInt64 :=
  r.maxDelayMillis.getD (UInt64.ofNat (min (8 * r.delayMillis.toNat) (UInt64.size - 1)))

def toPolicy (r : RetryConfig) : Except RetryFault RetryPolicy :=
  if attemptsLimit < r.maxAttempts then .error (.tooManyAttempts r.maxAttempts)
  else if r.delayMillis = 0 then .error .noDelay
  else match r.backoff with
    | .fixed => .ok ⟨r.maxAttempts, .ofMillis r.delayMillis, .fixed⟩
    | .exponential =>
      if r.effectiveCap < r.delayMillis then
        .error (.capBelowDelay r.effectiveCap r.delayMillis)
      else .ok ⟨r.maxAttempts, .ofMillis r.delayMillis, .exponential (.ofMillis r.effectiveCap)⟩

end RetryConfig

namespace Config

def policy (c : Config) (k : QueryKind) : Except ConfigError RetryPolicy :=
  (c.retries.get k).toPolicy.mapError (.invalid k)

def toSettings (c : Config) : Except ConfigError Settings := do
  return {
    policies := {
      registerUnsolicited := ← c.policy .registerUnsolicited
      milanInfo := ← c.policy .milanInfo
      descriptor := ← c.policy .descriptor
      dynamicInfo := ← c.policy .dynamicInfo
      descriptorInfo := ← c.policy .descriptorInfo }
    cacheEnabled := c.cacheEnabled }

end Config

end AvbEntity
