import AvbEntity.Entity.Learn
import AvbEntity.Entity.Mapping

namespace AvbEntity

namespace RemoteEntity

def modifyCurrent (e : RemoteEntity) (c : Category) (index : UInt16)
    (f : c.Dynamic → c.Dynamic) : RemoteEntity :=
  e.modifyDynamic c e.currentConfiguration index f

def currentOrDefault (e : RemoteEntity) (c : Category) (index : UInt16) : c.Dynamic :=
  ((e.models c e.currentConfiguration).getD index default).dynamic

def setName (e : RemoteEntity) (name : String) : RemoteEntity :=
  e.modifyModel fun m => { m with dynamic := { m.dynamic with entityName := name } }

def setGroupName (e : RemoteEntity) (name : String) : RemoteEntity :=
  e.modifyModel fun m => { m with dynamic := { m.dynamic with groupName := name } }

def setCurrentConfiguration (e : RemoteEntity) (configuration : UInt16) : RemoteEntity :=
  e.modifyModel fun m => {
    m with
    dynamic := { m.dynamic with currentConfiguration := configuration }
    configurations := m.configurations.mapEntries fun index c =>
      { c with dynamic := { c.dynamic with isActive := index == configuration } } }

def setConfigurationName (e : RemoteEntity) (configuration : UInt16) (name : String) :
    RemoteEntity :=
  e.modifyConfiguration configuration fun m =>
    { m with dynamic := { m.dynamic with objectName := name } }

def setObjectName (e : RemoteEntity) (c : { c : Category // c.isNamed })
    (configuration index : UInt16) (name : String) : RemoteEntity :=
  e.modifyDynamic c.1 configuration index (c.1.rename name)

def selectLocale (e : RemoteEntity) (configuration base count : UInt16) : RemoteEntity :=
  e.modifyConfiguration configuration fun m =>
    { m with dynamic := { m.dynamic with localeBase := base, localeCount := count } }

def setSamplingRate (e : RemoteEntity) (index : UInt16) (rate : UInt32) : RemoteEntity :=
  e.modifyCurrent .audioUnit index fun m => { m with samplingRate := rate }

def setFormat (e : RemoteEntity) (d : Direction) (index : UInt16) (format : UInt64) :
    RemoteEntity :=
  match d with
  | .input => e.modifyCurrent .streamInput index fun m => { m with format }
  | .output => e.modifyCurrent .streamOutput index fun m => { m with format }

def setStreamInfo (e : RemoteEntity) (d : Direction) (index : UInt16) (info : StreamInfo) :
    RemoteEntity :=
  match d with
  | .input =>
    e.modifyCurrent .streamInput index fun m => { m with format := info.format, info := some info }
  | .output =>
    e.modifyCurrent .streamOutput index fun m => { m with format := info.format, info := some info }

def setRunning (e : RemoteEntity) (d : Direction) (index : UInt16) (running : Bool) :
    RemoteEntity :=
  match d with
  | .input => e.modifyCurrent .streamInput index fun m => { m with isRunning := some running }
  | .output => e.modifyCurrent .streamOutput index fun m => { m with isRunning := some running }

def setConnection (e : RemoteEntity) (index : UInt16) (connection : ConnectionInfo) :
    ConnectionInfo × RemoteEntity :=
  ((e.currentOrDefault .streamInput index).connection,
    e.modifyCurrent .streamInput index fun m => { m with connection })

def clearListeners (e : RemoteEntity) (index : UInt16) : RemoteEntity :=
  e.modifyCurrent .streamOutput index fun m => { m with connections := ∅ }

def addListener (e : RemoteEntity) (index : UInt16) (listener : StreamIdentification) :
    Bool × RemoteEntity :=
  (!(e.currentOrDefault .streamOutput index).connections.contains listener,
    e.modifyCurrent .streamOutput index fun m =>
      { m with connections := m.connections.insert listener })

def removeListener (e : RemoteEntity) (index : UInt16) (listener : StreamIdentification) :
    Bool × RemoteEntity :=
  ((e.currentOrDefault .streamOutput index).connections.contains listener,
    e.modifyCurrent .streamOutput index fun m =>
      { m with connections := m.connections.erase listener })

def setAvbInfo (e : RemoteEntity) (index : UInt16) (info : AvbInfo) :
    Option AvbInfo × RemoteEntity :=
  ((e.currentOrDefault .avbInterface index).info,
    e.modifyCurrent .avbInterface index fun m => { m with info := some info })

def setAsPath (e : RemoteEntity) (index : UInt16) (path : AsPath) : Option AsPath × RemoteEntity :=
  ((e.currentOrDefault .avbInterface index).asPath,
    e.modifyCurrent .avbInterface index fun m => { m with asPath := some path })

def setClockSource (e : RemoteEntity) (index source : UInt16) : RemoteEntity :=
  e.modifyCurrent .clockDomain index fun m => { m with clockSource := source }

def setControlValues (e : RemoteEntity) (index : UInt16) (values : ControlValues) : RemoteEntity :=
  e.modifyCurrent .control index fun m => { m with values }

def setMemoryLength (e : RemoteEntity) (configuration index : UInt16) (length : UInt64) :
    RemoteEntity :=
  e.modifyDynamic .memoryObject configuration index fun m => { m with length }

def setClockSourceIdentifier (e : RemoteEntity) (index : UInt16) (identifier : Eui64) :
    RemoteEntity :=
  e.modifyCurrent .clockSource index fun m => { m with identifier }

def modifyMappings (e : RemoteEntity) (d : Direction) (index : UInt16)
    (f : List AudioMapping → List AudioMapping) : RemoteEntity :=
  match d with
  | .input => e.modifyCurrent .streamPortInput index fun m => { m with mappings := f m.mappings }
  | .output => e.modifyCurrent .streamPortOutput index fun m => { m with mappings := f m.mappings }

def clearMappings (e : RemoteEntity) (d : Direction) (index : UInt16) : RemoteEntity :=
  e.modifyMappings d index fun _ => []

def addMappings (e : RemoteEntity) (d : Direction) (index : UInt16) (ms : List AudioMapping) :
    RemoteEntity :=
  e.modifyMappings d index fun map =>
    match d with
    | .input => AudioMapping.addInputs map ms
    | .output => AudioMapping.addOutputs map ms

def removeMappings (e : RemoteEntity) (d : Direction) (index : UInt16) (ms : List AudioMapping) :
    RemoteEntity :=
  e.modifyMappings d index fun map => AudioMapping.removeAll map ms

inductive Counted where
  | entity
  | avbInterface (index : UInt16)
  | clockDomain (index : UInt16)
  | stream (d : Direction) (index : UInt16)
deriving DecidableEq

def mergeCounters (known : Option Counters) (told : Counters) : Option Counters :=
  some ((known.getD ∅).insertAll told.toList)

def setCounters (e : RemoteEntity) (counted : Counted) (told : Counters) : RemoteEntity :=
  match counted with
  | .entity => e.modifyModel fun m =>
    { m with dynamic := { m.dynamic with counters := mergeCounters m.dynamic.counters told } }
  | .avbInterface index => e.modifyCurrent .avbInterface index fun m =>
    { m with counters := mergeCounters m.counters told }
  | .clockDomain index => e.modifyCurrent .clockDomain index fun m =>
    { m with counters := mergeCounters m.counters told }
  | .stream .input index => e.modifyCurrent .streamInput index fun m =>
    { m with counters := mergeCounters m.counters told }
  | .stream .output index => e.modifyCurrent .streamOutput index fun m =>
    { m with counters := mergeCounters m.counters told }

end RemoteEntity

end AvbEntity
