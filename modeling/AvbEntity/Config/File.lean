import AvbEntity.Config.Carrier
import AvbEntity.Config.Environment
import AvbEntity.Config.Validation
import AvbEntity.Toml.Document
import AvbEntity.Toml.Writer

namespace AvbEntity

def joinPath (directory name : String) : String :=
  if directory = "" ∨ directory.toList.getLast? = some '/' then directory ++ name
  else directory ++ "/" ++ name

/-- The path of the file of the configuration. The directory for configurations counts only if its
path is absolute; otherwise it is one in the home directory. -/
def Config.path (home configHome : String) : String :=
  let directory :=
    if configHome.toList.head? = some '/' then configHome else joinPath home ".config"
  joinPath (joinPath directory "avdecc") "config.toml"

inductive FilePlace where
  | free
  | file (text : String)
  | directory
  | blocked
deriving DecidableEq

def FilePlace.text? : FilePlace → Option String
  | file text => some text
  | _ => none

namespace Config

def load (file : Option String) (environment : List Variable) : Except ConfigError Config := do
  let fileLayer ←
    match file with
    | none => .ok (.table [])
    | some text =>
      match (Toml.parse? text).bind ConfigValue.ofFile? with
      | some v => .ok v
      | none => .error .unreadable
  match ofValue? (.layered [toValue {}, fileLayer, Variable.layer environment]) with
  | some c => .ok c
  | none => .error .unreadable

def loadOrDefault (file : Option String) (environment : List Variable) : Config :=
  match load file environment with
  | .ok c => c
  | .error _ => {}

def retrySection (k : QueryKind) (r : RetryConfig) : Toml.Section where
  header := ["retries", k.configName]
  entries := [("max_attempts", .integer r.maxAttempts.toNat),
    ("delay_ms", .integer r.delayMillis.toNat), ("backoff", .word r.backoff.name)] ++
    (r.maxDelayMillis.toList.map fun n => ("max_delay_ms", .integer n.toNat))

def sections (c : Config) : List Toml.Section :=
  (QueryKind.all.map fun k => retrySection k (c.retries.get k)) ++
    [⟨["cache"], [("enabled", .bool c.cacheEnabled)]⟩]

def toText? (c : Config) : Option String := Toml.write? c.sections

/-- Saves a configuration at a place, and gives what is there afterwards. The directories come
first, then the text, and the file last; an error leaves a file as it was. -/
def save (c : Config) (place : FilePlace) : Except ConfigError Unit × FilePlace :=
  match place, c.toText? with
  | .blocked, _ => (.error .inaccessible, .blocked)
  | place, none => (.error .unwritable, place)
  | .directory, some _ => (.error .inaccessible, .directory)
  | _, some text => (.ok (), .file text)

end Config

end AvbEntity
