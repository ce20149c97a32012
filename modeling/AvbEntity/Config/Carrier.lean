import AvbEntity.Config.Value

namespace AvbEntity

namespace ConfigValue

def carriedName : String := "___figment_value_value"

def carriedNumberName : String := "___figment_value_id"

def isInteger : ConfigValue → Bool
  | integer _ => true
  | _ => false

mutual

/-- What a value below the top of a file stands for; none if a number in it is no integer. -/
def carried? : ConfigValue → Option ConfigValue
  | list items => (carriedItems? items).map list
  | table entries => (carriedEntries? entries).map fun entries =>
    match entryOf? carriedName entries with
    | some v => v
    | none => table entries
  | bool b => some (bool b)
  | integer n => some (integer n)
  | float literal => some (float literal)
  | text s => some (text s)
  | character c => some (character c)

def carriedItems? : List ConfigValue → Option (List ConfigValue)
  | [] => some []
  | v :: rest => do return (← carried? v) :: (← carriedItems? rest)

def carriedEntries? : List (String × ConfigValue) → Option (List (String × ConfigValue))
  | [] => some []
  | (name, v) :: rest =>
    if name = carriedNumberName then if v.isInteger then carriedEntries? rest else none
    else do return (name, ← carried? v) :: (← carriedEntries? rest)

end

def ofFile? : ConfigValue → Option ConfigValue
  | table entries =>
    (entries.mapM fun e => (carried? e.2).map fun v => (e.1, v)).map table
  | v => carried? v

end ConfigValue

end AvbEntity
