import AvbEntity.Eui64
import AvbEntity.Flags

namespace AvbEntity

def FlagFamily.entityCapabilities : FlagFamily where
  width := 32
  names := ["EFU_MODE", "ADDRESS_ACCESS_SUPPORTED", "GATEWAY_ENTITY", "AEM_SUPPORTED",
    "LEGACY_AVC", "ASSOCIATION_ID_SUPPORTED", "ASSOCIATION_ID_VALID", "VENDOR_UNIQUE_SUPPORTED",
    "CLASS_A_SUPPORTED", "CLASS_B_SUPPORTED", "GPTP_SUPPORTED", "AEM_AUTHENTICATION_SUPPORTED",
    "AEM_AUTHENTICATION_REQUIRED", "AEM_PERSISTENT_ACQUIRE_SUPPORTED",
    "AEM_IDENTIFY_CONTROL_INDEX_VALID", "AEM_INTERFACE_INDEX_VALID", "GENERAL_CONTROLLER_IGNORE",
    "ENTITY_NOT_READY"]

def FlagFamily.compatibility : FlagFamily where
  width := 8
  names := ["IEEE17221", "MILAN", "MISBEHAVING"]

def FlagFamily.milanFeatures : FlagFamily where
  width := 32
  names := ["REDUNDANCY"]

abbrev EntityCapabilities := FlagSet .entityCapabilities

def EntityCapabilities.aemSupported : EntityCapabilities := .single 3

abbrev CompatibilityFlags := FlagSet .compatibility

def CompatibilityFlags.base : CompatibilityFlags := .single 0

abbrev MilanFeatures := FlagSet .milanFeatures

structure MilanInfo where
  protocolVersion : UInt32 := 0
  features : MilanFeatures := .none
  certificationVersion : UInt32 := 0
deriving DecidableEq

instance : Inhabited MilanInfo := ⟨{}⟩

instance : Json.Record MilanInfo (UInt32 × MilanFeatures × UInt32 × Unit) where
  names := ["protocol_version", "features_flags", "certification_version"]
  split i := (i.protocolVersion, i.features, i.certificationVersion, ())
  join := fun (v, f, c, ()) => ⟨v, f, c⟩
  join_split _ := rfl

structure EntityIdentity where
  entityId : Eui64 := .null
  modelId : Eui64 := .null
  capabilities : EntityCapabilities := .none
  talkerSources : UInt16 := 0
  listenerSinks : UInt16 := 0
  identifyControl : Option UInt16 := none
  associationId : Option Eui64 := none
deriving DecidableEq

namespace EntityIdentity

instance : Inhabited EntityIdentity := ⟨{}⟩

def supportsAem (e : EntityIdentity) : Bool := e.capabilities.includes EntityCapabilities.aemSupported

instance : Json.Record EntityIdentity
    (Eui64 × Eui64 × EntityCapabilities × UInt16 × UInt16 × Option UInt16 × Option Eui64 ×
      Unit) where
  names := ["entity_id", "entity_model_id", "entity_capabilities", "talker_stream_sources",
    "listener_stream_sinks", "identify_control_index", "association_id"]
  split e := (e.entityId, e.modelId, e.capabilities, e.talkerSources, e.listenerSinks,
    e.identifyControl, e.associationId, ())
  join := fun (i, m, c, t, l, ic, a, ()) => ⟨i, m, c, t, l, ic, a⟩
  join_split _ := rfl

end EntityIdentity

inductive AcquireState where
  | undefined
  | notSupported
  | notAcquired
  | acquireInProgress
  | acquired
  | acquiredByOther
  | releaseInProgress
deriving DecidableEq

instance : Inhabited AcquireState := ⟨.undefined⟩

instance : Json.Named AcquireState where
  all := [.undefined, .notSupported, .notAcquired, .acquireInProgress, .acquired,
    .acquiredByOther, .releaseInProgress]
  name
    | .undefined => "Undefined"
    | .notSupported => "NotSupported"
    | .notAcquired => "NotAcquired"
    | .acquireInProgress => "AcquireInProgress"
    | .acquired => "Acquired"
    | .acquiredByOther => "AcquiredByOther"
    | .releaseInProgress => "ReleaseInProgress"

inductive LockState where
  | undefined
  | notSupported
  | notLocked
  | lockInProgress
  | locked
  | lockedByOther
  | unlockInProgress
deriving DecidableEq

instance : Inhabited LockState := ⟨.undefined⟩

instance : Json.Named LockState where
  all := [.undefined, .notSupported, .notLocked, .lockInProgress, .locked, .lockedByOther,
    .unlockInProgress]
  name
    | .undefined => "Undefined"
    | .notSupported => "NotSupported"
    | .notLocked => "NotLocked"
    | .lockInProgress => "LockInProgress"
    | .locked => "Locked"
    | .lockedByOther => "LockedByOther"
    | .unlockInProgress => "UnlockInProgress"

inductive LinkStatus where
  | unknown
  | down
  | up
deriving DecidableEq

instance : Inhabited LinkStatus := ⟨.unknown⟩

instance : Json.Named LinkStatus where
  all := [.unknown, .down, .up]
  name
    | .unknown => "Unknown"
    | .down => "Down"
    | .up => "Up"

end AvbEntity
