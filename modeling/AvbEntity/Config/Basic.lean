import AvbEntity.Config.Value
import AvbEntity.Query.Table

namespace AvbEntity

inductive BackoffMode where
  | fixed
  | exponential
deriving DecidableEq

namespace BackoffMode

def name : BackoffMode → String
  | fixed => "fixed"
  | exponential => "exponential"

def ofName? (s : String) : Option BackoffMode := [fixed, exponential].find? fun m => m.name = s

@[simp] theorem ofName?_name (m : BackoffMode) : ofName? m.name = some m := by
  cases m <;> rfl

end BackoffMode

structure RetryConfig where
  maxAttempts : UInt16 := 1
  delayMillis : UInt64 := 500
  backoff : BackoffMode := .fixed
  maxDelayMillis : Option UInt64 := none
deriving DecidableEq

structure Config where
  retries : PerQuery RetryConfig := .all {}
  cacheEnabled : Bool := true
deriving DecidableEq

def QueryKind.configName : QueryKind → String
  | registerUnsolicited => "register_unsol"
  | milanInfo => "milan_info"
  | descriptor => "descriptor"
  | dynamicInfo => "dynamic_info"
  | descriptorInfo => "descriptor_dynamic_info"

namespace RetryConfig

instance : Inhabited RetryConfig := ⟨{}⟩

def toValue (r : RetryConfig) : ConfigValue :=
  .table <| [("max_attempts", .integer r.maxAttempts.toNat),
    ("delay_ms", .integer r.delayMillis.toNat), ("backoff", .text r.backoff.name)] ++
    (r.maxDelayMillis.toList.map fun n => ("max_delay_ms", .integer n.toNat))

def ofValue? (v : ConfigValue) : Option RetryConfig :=
  if v.isRecord then do
    return {
      maxAttempts := ← v.fieldOr? 0 "max_attempts" 1 fun f =>
        (f.natBelow? UInt16.size).map UInt16.ofNat
      delayMillis := ← v.fieldOr? 1 "delay_ms" 500 fun f =>
        (f.natBelow? UInt64.size).map UInt64.ofNat
      backoff := ← v.fieldOr? 2 "backoff" .fixed fun f => f.text?.bind BackoffMode.ofName?
      maxDelayMillis := ← v.fieldOr? 3 "max_delay_ms" none fun f =>
        (f.natBelow? UInt64.size).map fun n => some (UInt64.ofNat n) }
  else none

end RetryConfig

namespace Config

instance : Inhabited Config := ⟨{}⟩

def retriesToValue (retries : PerQuery RetryConfig) : ConfigValue :=
  .table (QueryKind.all.map fun k => (k.configName, (retries.get k).toValue))

def retriesOfValue? (v : ConfigValue) : Option (PerQuery RetryConfig) :=
  let read? (position : Nat) (k : QueryKind) : Option RetryConfig :=
    v.fieldOr? position k.configName {} RetryConfig.ofValue?
  if v.isRecord then do
    return {
      registerUnsolicited := ← read? 0 .registerUnsolicited
      milanInfo := ← read? 1 .milanInfo
      descriptor := ← read? 2 .descriptor
      dynamicInfo := ← read? 3 .dynamicInfo
      descriptorInfo := ← read? 4 .descriptorInfo }
  else none

def cacheOfValue? (v : ConfigValue) : Option Bool :=
  if v.isRecord then v.fieldOr? 0 "enabled" true ConfigValue.bool? else none

def toValue (c : Config) : ConfigValue :=
  .table [("retries", retriesToValue c.retries),
    ("cache", .table [("enabled", .bool c.cacheEnabled)])]

/-- The configuration that a value denotes; what is not given is the default, and names that no
setting has are passed over. -/
def ofValue? (v : ConfigValue) : Option Config :=
  if v.isRecord then do
    return {
      retries := ← v.fieldOr? 0 "retries" (.all {}) retriesOfValue?
      cacheEnabled := ← v.fieldOr? 1 "cache" true cacheOfValue? }
  else none

end Config

end AvbEntity
