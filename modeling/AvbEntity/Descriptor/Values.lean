import AvbEntity.Eui64
import AvbEntity.Flags
import AvbEntity.Descriptor.StringReference
import AvbEntity.Descriptor.Type

namespace AvbEntity

abbrev Counters := SortedMap UInt32 UInt32

abbrev MacAddress := Vector UInt8 6

def FlagFamily.stream : FlagFamily where
  width := 16
  names := ["CLOCK_SYNC_SOURCE", "CLASS_A", "CLASS_B", "SUPPORTS_ENCRYPTED",
    "PRIMARY_BACKUP_SUPPORTED", "PRIMARY_BACKUP_VALID", "SECONDARY_BACKUP_SUPPORTED",
    "SECONDARY_BACKUP_VALID"]

def FlagFamily.clockSource : FlagFamily where
  width := 16
  names := ["STREAM_ID", "LOCAL_ID"]

def FlagFamily.avbInfo : FlagFamily where
  width := 8
  names := ["AS_CAPABLE", "GPTP_ENABLED", "SRP_ENABLED"]

abbrev StreamFlags := FlagSet .stream

abbrev ClockSourceFlags := FlagSet .clockSource

abbrev AvbInfoFlags := FlagSet .avbInfo

inductive ClockSourceType where
  | internal
  | external
  | inputStream
  | expansion
deriving DecidableEq

instance : Inhabited ClockSourceType := ⟨.internal⟩

instance : Json.Named ClockSourceType where
  all := [.internal, .external, .inputStream, .expansion]
  name
    | .internal => "Internal"
    | .external => "External"
    | .inputStream => "InputStream"
    | .expansion => "Expansion"

inductive ConnectionState where
  | notConnected
  | fastConnecting
  | connected
deriving DecidableEq

instance : Inhabited ConnectionState := ⟨.notConnected⟩

instance : Json.Named ConnectionState where
  all := [.notConnected, .fastConnecting, .connected]
  name
    | .notConnected => "NotConnected"
    | .fastConnecting => "FastConnecting"
    | .connected => "Connected"

structure StreamIdentification where
  entityId : Eui64 := .null
  streamIndex : UInt16 := 0
deriving DecidableEq

instance : Inhabited StreamIdentification := ⟨{}⟩

instance : Json.Record StreamIdentification (Eui64 × UInt16 × Unit) where
  names := ["entity_id", "stream_index"]
  split m := (m.entityId, m.streamIndex, ())
  join := fun (a, b, ()) => ⟨a, b⟩
  join_split _ := rfl

instance : OrderedKey StreamIdentification where
  rank s := s.entityId.value.toNat * 65536 + s.streamIndex.toNat
  rank_injective a b h := by
    obtain ⟨⟨a⟩, i⟩ := a
    obtain ⟨⟨b⟩, j⟩ := b
    have hi := i.toNat_lt
    have hj := j.toNat_lt
    have ha : a = b := UInt64.toNat_inj.mp (by simp only at h; omega)
    have hb : i = j := UInt16.toNat_inj.mp (by simp only at h; omega)
    rw [ha, hb]

structure ConnectionInfo where
  talker : StreamIdentification := {}
  state : ConnectionState := .notConnected
deriving DecidableEq

instance : Inhabited ConnectionInfo := ⟨{}⟩

instance : Json.Record ConnectionInfo (StreamIdentification × ConnectionState × Unit) where
  names := ["talker_stream", "state"]
  split m := (m.talker, m.state, ())
  join := fun (a, b, ()) => ⟨a, b⟩
  join_split _ := rfl

structure StreamInfo where
  format : UInt64 := 0
  streamId : Eui64 := .null
  accumulatedLatency : UInt32 := 0
  destination : MacAddress := .replicate 6 0
  vlanId : UInt16 := 0
deriving DecidableEq

instance : Inhabited StreamInfo := ⟨{}⟩

instance : Json.Record StreamInfo (UInt64 × Eui64 × UInt32 × MacAddress × UInt16 × Unit) where
  names := ["stream_format", "stream_id", "msrp_accumulated_latency", "stream_dest_mac",
    "stream_vlan_id"]
  split m := (m.format, m.streamId, m.accumulatedLatency, m.destination, m.vlanId, ())
  join := fun (a, b, c, d, e, ()) => ⟨a, b, c, d, e⟩
  join_split _ := rfl

structure MsrpMapping where
  trafficClass : UInt8 := 0
  priority : UInt8 := 0
  vlanId : UInt16 := 0
deriving DecidableEq

instance : Inhabited MsrpMapping := ⟨{}⟩

instance : Json.Record MsrpMapping (UInt8 × UInt8 × UInt16 × Unit) where
  names := ["traffic_class", "priority", "vlan_id"]
  split m := (m.trafficClass, m.priority, m.vlanId, ())
  join := fun (a, b, c, ()) => ⟨a, b, c⟩
  join_split _ := rfl

structure AvbInfo where
  grandmaster : Eui64 := .null
  domainNumber : UInt8 := 0
  propagationDelay : UInt32 := 0
  flags : AvbInfoFlags := .none
  mappings : List MsrpMapping := []
deriving DecidableEq

instance : Inhabited AvbInfo := ⟨{}⟩

instance : Json.Record AvbInfo
    (Eui64 × UInt8 × UInt32 × AvbInfoFlags × List MsrpMapping × Unit) where
  names := ["gptp_grandmaster_id", "gptp_domain_number", "propagation_delay", "flags", "mappings"]
  split m := (m.grandmaster, m.domainNumber, m.propagationDelay, m.flags, m.mappings, ())
  join := fun (a, b, c, d, e, ()) => ⟨a, b, c, d, e⟩
  join_split _ := rfl

structure AsPath where
  sequence : List Eui64 := []
deriving DecidableEq

instance : Inhabited AsPath := ⟨{}⟩

instance : Json.Record AsPath (List Eui64 × Unit) where
  names := ["sequence"]
  split m := (m.sequence, ())
  join := fun (a, ()) => ⟨a⟩
  join_split _ := rfl

structure AudioMapping where
  streamIndex : UInt16 := 0
  streamChannel : UInt16 := 0
  clusterOffset : UInt16 := 0
  clusterChannel : UInt16 := 0
deriving DecidableEq

instance : Inhabited AudioMapping := ⟨{}⟩

instance : Json.Record AudioMapping (UInt16 × UInt16 × UInt16 × UInt16 × Unit) where
  names := ["stream_index", "stream_channel", "cluster_offset", "cluster_channel"]
  split m := (m.streamIndex, m.streamChannel, m.clusterOffset, m.clusterChannel, ())
  join := fun (a, b, c, d, ()) => ⟨a, b, c, d⟩
  join_split _ := rfl

structure ControlValues where
  values : List UInt64 := []
deriving DecidableEq

namespace ControlValues

instance : Inhabited ControlValues := ⟨{}⟩

def current? (c : ControlValues) : Option UInt64 := c.values.head?

def size (c : ControlValues) : Nat := c.values.length

def isEmpty (c : ControlValues) : Bool := c.values.isEmpty

instance : Json.Encode ControlValues := ⟨fun c => Json.encode c.values⟩

instance : Json.Decode ControlValues := ⟨fun j => (Json.decode? j).map ControlValues.mk, none⟩

end ControlValues

end AvbEntity
