import AvbEntity.Eui64
import AvbEntity.Descriptor.Type

namespace AvbEntity

inductive ModelError where
  | enumerationFailed (entity : Eui64)
  | unknownConfiguration (configuration : UInt16)
  | unknownDescriptor (type : DescriptorType) (configuration index : UInt16)
  | unknownLocale (name : String)
  | notFound (what identifier : String)
  | unsupported (operation required : String)
  | malformed
  | internal (text : String)
deriving DecidableEq

namespace ModelError

def aemUnsupported (operation : String) : ModelError := .unsupported operation "AEM support"

def isNotFound : ModelError → Bool
  | .unknownConfiguration _ | .unknownDescriptor .. | .unknownLocale _ | .notFound .. => true
  | _ => false

def message : ModelError → String
  | .enumerationFailed entity =>
    "Entity " ++ entity.display ++ " has a fatal enumeration error, model is unavailable"
  | .unknownConfiguration configuration =>
    "Invalid configuration index: " ++ toString configuration.toNat
  | .unknownDescriptor type configuration index =>
    "Invalid descriptor index: " ++ type.name ++ " " ++ toString index.toNat ++
      " in configuration " ++ toString configuration.toNat
  | .unknownLocale name => "Invalid locale: " ++ name
  | .notFound what identifier => "Entity not found: " ++ what ++ " with id " ++ identifier
  | .unsupported operation required =>
    "Operation not supported: " ++ operation ++ " (requires " ++ required ++ ")"
  | .malformed => "Serialization error"
  | .internal text => "Internal error: " ++ text

end ModelError

end AvbEntity
