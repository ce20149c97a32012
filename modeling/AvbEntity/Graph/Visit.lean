import AvbEntity.Graph.Basic

namespace AvbEntity

inductive Direction where
  | input
  | output
deriving DecidableEq

/-- One visit of a walk: the node, with the configuration and the node that hold it. -/
inductive Visit where
  | entity (graph : Graph)
  | configuration (c : Graph.Configuration)
  | audioUnit (c : Graph.Configuration) (unit : Graph.AudioUnit)
  | streamPort (d : Direction) (c : Graph.Configuration) (unit : Graph.AudioUnit) (port : Graph.StreamPort)
  | audioCluster (d : Direction) (c : Graph.Configuration) (port : Graph.StreamPort) (index : UInt16)
  | audioMap (d : Direction) (c : Graph.Configuration) (port : Graph.StreamPort) (index : UInt16)
  | stream (d : Direction) (c : Graph.Configuration) (stream : Graph.Stream)
  | avbInterface (c : Graph.Configuration) (index : UInt16)
  | clockSource (c : Graph.Configuration) (index : UInt16)
  | memoryObject (c : Graph.Configuration) (index : UInt16)
  | locale (c : Graph.Configuration) (locale : Graph.Locale)
  | strings (c : Graph.Configuration) (locale : Graph.Locale) (index : UInt16)
  | control (c : Graph.Configuration) (index : UInt16)
  | clockDomain (c : Graph.Configuration) (domain : Graph.ClockDomain)
  | clockDomainSource (c : Graph.Configuration) (domain : Graph.ClockDomain) (index : UInt16)
  | redundantGroup (d : Direction) (c : Graph.Configuration) (group : RedundantGroup)
deriving DecidableEq

namespace Graph.Configuration

def portVisits (c : Graph.Configuration) (d : Direction) (unit : Graph.AudioUnit)
    (port : Graph.StreamPort) : List Visit :=
  .streamPort d c unit port ::
    (port.audioClusters.toList.map (.audioCluster d c port) ++
      port.audioMaps.toList.map (.audioMap d c port))

def audioUnitVisits (c : Graph.Configuration) (unit : Graph.AudioUnit) : List Visit :=
  .audioUnit c unit ::
    (unit.inputPorts.values.flatMap (c.portVisits .input unit) ++
      unit.outputPorts.values.flatMap (c.portVisits .output unit))

def localeVisits (c : Graph.Configuration) (locale : Graph.Locale) : List Visit :=
  .locale c locale :: locale.strings.toList.map (.strings c locale)

def clockDomainVisits (c : Graph.Configuration) (domain : Graph.ClockDomain) : List Visit :=
  .clockDomain c domain :: domain.clockSources.map (.clockDomainSource c domain)

def innerVisits (c : Graph.Configuration) : List Visit :=
  c.audioUnits.values.flatMap c.audioUnitVisits ++
  c.streamInputs.values.map (.stream .input c) ++
  c.streamOutputs.values.map (.stream .output c) ++
  c.avbInterfaces.toList.map (.avbInterface c) ++
  c.clockSources.toList.map (.clockSource c) ++
  c.memoryObjects.toList.map (.memoryObject c) ++
  c.locales.values.flatMap c.localeVisits ++
  c.controls.toList.map (.control c) ++
  c.clockDomains.values.flatMap c.clockDomainVisits ++
  c.redundantInputs.groups.values.map (.redundantGroup .input c) ++
  c.redundantOutputs.groups.values.map (.redundantGroup .output c)

end Graph.Configuration

def Graph.visits (g : Graph) (current : UInt16) (allConfigurations : Bool) :
    List Visit :=
  .entity g :: g.configurations.toList.flatMap fun (index, c) =>
    .configuration c :: if allConfigurations || index == current then c.innerVisits else []

end AvbEntity
