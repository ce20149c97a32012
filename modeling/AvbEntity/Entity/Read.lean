import AvbEntity.Entity.Basic
import AvbEntity.Model.Error

namespace AvbEntity

namespace RemoteEntity

def readModel (e : RemoteEntity) : Except ModelError EntityModel :=
  if e.isFatal then .error (.enumerationFailed e.id)
  else if !e.identity.supportsAem then .error (.aemUnsupported "entity model access")
  else .ok e.model

def readConfiguration (e : RemoteEntity) (configuration : UInt16) :
    Except ModelError ConfigurationModel := do
  match (← e.readModel).configurations.get? configuration with
  | some c => .ok c
  | none => .error (.unknownConfiguration configuration)

def knowsConfiguration (e : RemoteEntity) (configuration : UInt16) : Bool :=
  e.model.configurations.contains configuration

def knowsAnyConfiguration (e : RemoteEntity) : Bool := !e.model.isEmpty

def models (e : RemoteEntity) (c : Category) (configuration : UInt16) : c.ModelMap :=
  match e.model.configurations.get? configuration with
  | some m => m.models c
  | none => ∅

def readDescriptor (e : RemoteEntity) (c : Category) (configuration index : UInt16) :
    Except ModelError c.Model := do
  match ((← e.readConfiguration configuration).models c).get? index with
  | some m => .ok m
  | none => .error (.unknownDescriptor c.descriptorType configuration index)

def readStatic (e : RemoteEntity) (c : Category) (configuration index : UInt16) :
    Except ModelError c.Static :=
  (e.readDescriptor c configuration index).map (·.static)

def readDynamic (e : RemoteEntity) (c : Category) (configuration index : UInt16) :
    Except ModelError c.Dynamic :=
  (e.readDescriptor c configuration index).map (·.dynamic)

def readCurrent (e : RemoteEntity) (c : Category) (index : UInt16) : Except ModelError c.Dynamic :=
  e.readDynamic c e.currentConfiguration index

def readObjectName (e : RemoteEntity) (c : Category) (configuration index : UInt16) :
    Except ModelError String :=
  (e.readDynamic c configuration index).map fun m => (c.objectName? m).getD ""

def hasDescriptor (e : RemoteEntity) (c : Category) (configuration index : UInt16) : Bool :=
  (e.readDescriptor c configuration index).isOk

def identifyingValue : UInt64 := 255

def isIdentifying (e : RemoteEntity) : Bool :=
  match e.identity.identifyControl with
  | none => false
  | some index =>
    match e.readCurrent .control index with
    | .ok m => m.values.current? == some identifyingValue
    | .error _ => false

def inputConnection (e : RemoteEntity) (index : UInt16) : Except ModelError ConnectionInfo :=
  (e.readCurrent .streamInput index).map (·.connection)

def outputConnections (e : RemoteEntity) (index : UInt16) :
    Except ModelError (SortedSet StreamIdentification) :=
  (e.readCurrent .streamOutput index).map (·.connections)

def isInputRunning (e : RemoteEntity) (index : UInt16) : Bool :=
  match e.readCurrent .streamInput index with
  | .ok m => m.isRunning.getD true
  | .error _ => true

def isOutputRunning (e : RemoteEntity) (index : UInt16) : Bool :=
  match e.readCurrent .streamOutput index with
  | .ok m => m.isRunning.getD true
  | .error _ => true

def localizedString (e : RemoteEntity) (configuration : UInt16) (r : StringReference) : String :=
  if r.isNull then ""
  else match e.readConfiguration configuration with
    | .ok m => m.dynamic.localizedStrings.getD r.globalOffset ""
    | .error _ => ""

def sameName (a b : String) : Bool := a.toList.map Char.toLower == b.toList.map Char.toLower

def findLocale (e : RemoteEntity) (configuration : UInt16) (name : String) :
    Except ModelError (UInt16 × LocaleStatic) := do
  let locales := (← e.readConfiguration configuration).locales.toList
  match (locales.find? fun l => sameName l.2.static.name name) <|> locales.head? with
  | some (index, locale) => .ok (index, locale.static)
  | none => .error (.unknownLocale name)

/-- Whether all that has been learned is fit for the cache: there is a configuration, and every
configuration is complete. -/
def isCacheable (e : RemoteEntity) : Bool :=
  !e.isFatal && !e.model.isEmpty && e.model.allComplete

theorem isCacheable_iff {e : RemoteEntity} : e.isCacheable = true ↔
    e.isFatal = false ∧ e.model.isEmpty = false ∧
      ∀ i m, e.model.configurations.get? i = some m → m.isComplete = true := by
  simp only [isCacheable, Bool.and_eq_true, Bool.not_eq_true', EntityModel.allComplete_iff, and_assoc]

def readGraph (e : RemoteEntity) : Except ModelError Graph := do
  let _ ← e.readModel
  match e.graph with
  | some g => .ok g
  | none => .error (.notFound "entity model graph" e.id.display)

def readConfigurationGraph (e : RemoteEntity) (configuration : UInt16) :
    Except ModelError Graph.Configuration := do
  match (← e.readGraph).configurations.get? configuration with
  | some c => .ok c
  | none => .error (.unknownConfiguration configuration)

def readCurrentGraph (e : RemoteEntity) : Except ModelError Graph.Configuration :=
  e.readConfigurationGraph e.currentConfiguration

def redundancy (e : RemoteEntity) (d : Direction) : Redundancy :=
  match e.readCurrentGraph, d with
  | .ok c, .input => c.redundantInputs
  | .ok c, .output => c.redundantOutputs
  | .error _, _ => {}

def visits (e : RemoteEntity) (allConfigurations : Bool) : List Visit :=
  match e.readGraph with
  | .ok g => g.visits e.currentConfiguration allConfigurations
  | .error _ => []

def portCategory : Direction → Category
  | .input => .streamPortInput
  | .output => .streamPortOutput

def readPort (e : RemoteEntity) (d : Direction) (index : UInt16) :
    Except ModelError (DescriptorModel StreamPortStatic StreamPortDynamic) :=
  match d with
  | .input => e.readDescriptor .streamPortInput e.currentConfiguration index
  | .output => e.readDescriptor .streamPortOutput e.currentConfiguration index

def mappings (e : RemoteEntity) (d : Direction) (index : UInt16) :
    Except ModelError (List AudioMapping) := do
  let port ← e.readPort d index
  if port.static.hasDynamicMap then .ok port.dynamic.mappings
  else .error (.unsupported ((portCategory d).descriptorType.name ++ " " ++
    toString index.toNat ++ " audio mappings") "dynamic audio map")

def nonRedundantMappings (e : RemoteEntity) (d : Direction) (index : UInt16) :
    Except ModelError (List AudioMapping) := do
  let redundancy := e.redundancy d
  return (← e.mappings d index).filter fun m => !redundancy.isSecondary m.streamIndex

end RemoteEntity

end AvbEntity
