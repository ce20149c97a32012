import AvbEntity.Entity.Update

namespace AvbEntity

inductive Operation where
  | setIdentity (identity : EntityIdentity)
  | setCompatibility (flags : CompatibilityFlags)
  | setMilan (info : MilanInfo)
  | setAdvertised (advertised : Bool)
  | ignoreCache
  | setSubscribed (subscribed : Bool)
  | setAcquireState (state : AcquireState)
  | setOwningController (controller : Eui64)
  | setLockState (state : LockState)
  | setLockingController (controller : Eui64)
  | setIdentifyControl (index : UInt16)
  | setLinkStatus (index : UInt16) (status : LinkStatus)
  | setSteps (steps : EnumerationSteps)
  | addSteps (steps : EnumerationSteps)
  | clearSteps (steps : EnumerationSteps)
  | fail
  | expect (k : QueryKind) (question : k.Question)
  | take (k : QueryKind) (question : k.Question)
  | clearQueries (k : QueryKind)
  | retry (k : QueryKind)
  | modifyStatistics (f : Statistics → Statistics)
  | setModel (model : EntityModel)
  | adopt (kept : EntityModel) (d : EntityDescriptor) (allConfigurations : Bool)
  | setEntityDescriptor (d : EntityDescriptor)
  | setConfigurationDescriptor (configuration : UInt16) (d : ConfigurationDescriptor)
  | setDescriptor (c : Category) (configuration index : UInt16) (d : c.Descriptor)
  | setStrings (configuration index : UInt16) (d : StringsStatic)
  | modifyStatic (c : Category) (configuration index : UInt16) (f : c.Static → c.Static)
  | modifyDynamic (c : Category) (configuration index : UInt16) (f : c.Dynamic → c.Dynamic)
  | buildGraph
  | finish (now : Duration)
  | setName (name : String)
  | setGroupName (name : String)
  | setCurrentConfiguration (configuration : UInt16)
  | setConfigurationName (configuration : UInt16) (name : String)
  | setObjectName (c : { c : Category // c.isNamed }) (configuration index : UInt16)
      (name : String)
  | selectLocale (configuration base count : UInt16)
  | setSamplingRate (index : UInt16) (rate : UInt32)
  | setFormat (d : Direction) (index : UInt16) (format : UInt64)
  | setStreamInfo (d : Direction) (index : UInt16) (info : StreamInfo)
  | setRunning (d : Direction) (index : UInt16) (running : Bool)
  | setConnection (index : UInt16) (connection : ConnectionInfo)
  | clearListeners (index : UInt16)
  | addListener (index : UInt16) (listener : StreamIdentification)
  | removeListener (index : UInt16) (listener : StreamIdentification)
  | setAvbInfo (index : UInt16) (info : AvbInfo)
  | setAsPath (index : UInt16) (path : AsPath)
  | setClockSource (index source : UInt16)
  | setControlValues (index : UInt16) (values : ControlValues)
  | setMemoryLength (configuration index : UInt16) (length : UInt64)
  | setClockSourceIdentifier (index : UInt16) (identifier : Eui64)
  | clearMappings (d : Direction) (index : UInt16)
  | addMappings (d : Direction) (index : UInt16) (ms : List AudioMapping)
  | removeMappings (d : Direction) (index : UInt16) (ms : List AudioMapping)
  | setCounters (counted : RemoteEntity.Counted) (told : Counters)

namespace RemoteEntity

def apply (e : RemoteEntity) : Operation → RemoteEntity
  | .setIdentity identity => { e with identity }
  | .setCompatibility flags => { e with compatibility := flags }
  | .setMilan info => { e with milan := some info }
  | .setAdvertised advertised => { e with isAdvertised := advertised }
  | .ignoreCache => { e with ignoresCache := true }
  | .setSubscribed subscribed => { e with isSubscribed := subscribed }
  | .setAcquireState state => { e with acquireState := state }
  | .setOwningController controller => { e with owningController := controller }
  | .setLockState state => { e with lockState := state }
  | .setLockingController controller => { e with lockingController := controller }
  | .setIdentifyControl index => e.setIdentifyControl index
  | .setLinkStatus index status => (e.setLinkStatus index status).2
  | .setSteps steps => { e with steps }
  | .addSteps steps => e.addSteps steps
  | .clearSteps steps => e.clearSteps steps
  | .fail => e.fail
  | .expect k question => e.expect k (k.pack question)
  | .take k question => (e.take k (k.pack question)).2
  | .clearQueries k => e.clearQueries k
  | .retry k => (e.retry k).2
  | .modifyStatistics f => { e with statistics := f e.statistics }
  | .setModel model => e.setModel model
  | .adopt kept d allConfigurations => (e.adopt kept d allConfigurations).2
  | .setEntityDescriptor d => e.setEntityDescriptor d
  | .setConfigurationDescriptor configuration d => e.setConfigurationDescriptor configuration d
  | .setDescriptor c configuration index d => e.setDescriptor c configuration index d
  | .setStrings configuration index d => e.setStrings configuration index d
  | .modifyStatic c configuration index f => e.modifyStatic c configuration index f
  | .modifyDynamic c configuration index f => e.modifyDynamic c configuration index f
  | .buildGraph => e.buildGraph
  | .finish now => e.finish now
  | .setName name => e.setName name
  | .setGroupName name => e.setGroupName name
  | .setCurrentConfiguration configuration => e.setCurrentConfiguration configuration
  | .setConfigurationName configuration name => e.setConfigurationName configuration name
  | .setObjectName c configuration index name => e.setObjectName c configuration index name
  | .selectLocale configuration base count => e.selectLocale configuration base count
  | .setSamplingRate index rate => e.setSamplingRate index rate
  | .setFormat d index format => e.setFormat d index format
  | .setStreamInfo d index info => e.setStreamInfo d index info
  | .setRunning d index running => e.setRunning d index running
  | .setConnection index connection => (e.setConnection index connection).2
  | .clearListeners index => e.clearListeners index
  | .addListener index listener => (e.addListener index listener).2
  | .removeListener index listener => (e.removeListener index listener).2
  | .setAvbInfo index info => (e.setAvbInfo index info).2
  | .setAsPath index path => (e.setAsPath index path).2
  | .setClockSource index source => e.setClockSource index source
  | .setControlValues index values => e.setControlValues index values
  | .setMemoryLength configuration index length => e.setMemoryLength configuration index length
  | .setClockSourceIdentifier index identifier => e.setClockSourceIdentifier index identifier
  | .clearMappings d index => e.clearMappings d index
  | .addMappings d index ms => e.addMappings d index ms
  | .removeMappings d index ms => e.removeMappings d index ms
  | .setCounters counted told => e.setCounters counted told

def run (e : RemoteEntity) (ops : List Operation) : RemoteEntity := ops.foldl apply e

theorem run_concat (e : RemoteEntity) (ops : List Operation) (op : Operation) :
    e.run (ops ++ [op]) = (e.run ops).apply op := by
  simp [run]

end RemoteEntity

end AvbEntity
