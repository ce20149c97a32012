import AvbEntity.Entity.Read

namespace AvbEntity

namespace RemoteEntity

def modifyModel (e : RemoteEntity) (f : EntityModel → EntityModel) : RemoteEntity :=
  { e with model := f e.model }

def modifyConfiguration (e : RemoteEntity) (configuration : UInt16)
    (f : ConfigurationModel → ConfigurationModel) : RemoteEntity :=
  e.modifyModel fun m => { m with configurations := m.configurations.upsert configuration f }

def modifyDescriptor (e : RemoteEntity) (c : Category) (configuration index : UInt16)
    (f : c.Model → c.Model) : RemoteEntity :=
  e.modifyConfiguration configuration fun m => m.upsert c index f

def modifyStatic (e : RemoteEntity) (c : Category) (configuration index : UInt16)
    (f : c.Static → c.Static) : RemoteEntity :=
  e.modifyDescriptor c configuration index fun m => { m with static := f m.static }

def modifyDynamic (e : RemoteEntity) (c : Category) (configuration index : UInt16)
    (f : c.Dynamic → c.Dynamic) : RemoteEntity :=
  e.modifyDescriptor c configuration index fun m => { m with dynamic := f m.dynamic }

def setModel (e : RemoteEntity) (model : EntityModel) : RemoteEntity :=
  { e with model, graph := none }

def describeEntity (d : EntityDescriptor) (m : EntityModel) : EntityModel :=
  { m with
    static := { vendorName := d.vendorName, modelName := d.modelName }
    dynamic := { m.dynamic with
      firmwareVersion := d.firmwareVersion
      serialNumber := d.serialNumber
      entityName := d.entityName
      groupName := d.groupName
      currentConfiguration := d.currentConfiguration } }

/-- Learns the ENTITY descriptor. If the entity has been advertised already, its model is no longer
to be trusted: it is dropped, and learning the entity has failed. -/
def setEntityDescriptor (e : RemoteEntity) (d : EntityDescriptor) : RemoteEntity :=
  if e.isAdvertised then (e.setModel {}).fail else e.modifyModel (describeEntity d)

def setConfigurationDescriptor (e : RemoteEntity) (configuration : UInt16)
    (d : ConfigurationDescriptor) : RemoteEntity :=
  e.modifyConfiguration configuration fun m =>
    { m with
      static := d.static
      dynamic := { m.dynamic with
        isActive := configuration == e.currentConfiguration
        objectName := d.objectName } }

def setDescriptor (e : RemoteEntity) (c : Category) (configuration index : UInt16)
    (d : c.Descriptor) : RemoteEntity :=
  e.modifyDescriptor c configuration index (c.learn d)

/-- Puts the strings of a descriptor at an offset into the table of localized strings; there is room
for seven of them. -/
def localize (offset : UInt16) (strings : List String) (table : SortedMap UInt16 String) :
    SortedMap UInt16 String :=
  table.insertAll <| ((List.range 7).zip strings).map fun (i, s) =>
    ((StringReference.ofParts offset (UInt8.ofNat i)).globalOffset, s)

/-- Learns a STRINGS descriptor. Its strings are localized if it belongs to the selected locale and
a reference can reach it. -/
def setStrings (e : RemoteEntity) (configuration index : UInt16) (d : StringsStatic) :
    RemoteEntity :=
  (e.setDescriptor .strings configuration index d).modifyConfiguration configuration fun m =>
    let base := m.dynamic.localeBase
    let count := m.dynamic.localeCount
    if count = 0 ∨ index < base ∨ count ≤ index - base ∨
        StringReference.maxOffset < index - base then m
    else { m with dynamic := { m.dynamic with
      localizedStrings := localize (index - base) d.strings m.dynamic.localizedStrings } }

def hasExpectedConfigurations (kept : EntityModel) (d : EntityDescriptor)
    (allConfigurations : Bool) : Bool :=
  if allConfigurations then kept.isComplete d.configurationsCount
  else match kept.configurations.get? d.currentConfiguration with
    | some c => c.isComplete
    | none => false

/-- Whether a configuration has declared descriptor counts, and the configuration of the same index
of a kept model declares other ones. -/
def contradicts (kept : EntityModel) (configuration : UInt16) (own : ConfigurationModel) : Bool :=
  !own.static.descriptorCounts.isEmpty &&
    match kept.configurations.get? configuration with
    | some other => other.static.descriptorCounts != own.static.descriptorCounts
    | none => false

def accepts (e : RemoteEntity) (kept : EntityModel) (d : EntityDescriptor)
    (allConfigurations : Bool) : Bool :=
  kept.static.vendorName == d.vendorName && kept.static.modelName == d.modelName &&
    hasExpectedConfigurations kept d allConfigurations &&
    !(e.model.configurations.toList.any fun c => contradicts kept c.1 c.2)

def adopt (e : RemoteEntity) (kept : EntityModel) (d : EntityDescriptor)
    (allConfigurations : Bool) : Bool × RemoteEntity :=
  if e.accepts kept d allConfigurations then (true, (e.setModel kept).setEntityDescriptor d)
  else (false, e)

def buildGraph (e : RemoteEntity) : RemoteEntity := { e with graph := some (e.model.toGraph e.id) }

def finish (e : RemoteEntity) (now : Duration) : RemoteEntity :=
  let e := { e with statistics := e.statistics.endEnumeration now }
  if e.identity.supportsAem then e.buildGraph else e

end RemoteEntity

end AvbEntity
