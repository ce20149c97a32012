import AvbEntity.Config.Value

namespace AvbEntity.Toml

structure KeyPath where
  parents : List String
  name : String
deriving DecidableEq

def KeyPath.names (k : KeyPath) : List String := k.parents ++ [k.name]

inductive Origin where
  | header
  | implied
  | dotted
deriving DecidableEq

inductive Node where
  | value (v : ConfigValue)
  | table (origin : Origin) (entries : List (String × Node))
  | tables (items : List (List (String × Node)))

abbrev Entries := List (String × Node)

def setEntry (name : String) (n : Node) (entries : Entries) : Entries :=
  alterEntry name (fun _ => n) entries

/-- Changes the table at the end of a path. Tables that are not there come to exist with the given
origin. A path of dotted keys does not enter tables that have a header, and no path enters a value. -/
def descend (origin : Origin) (f : Origin → Entries → Option Entries) :
    List String → Origin → Entries → Option Entries
  | [], o, entries => f o entries
  | name :: path, _, entries =>
    match entryOf? name entries with
    | none =>
      (descend origin f path origin []).map fun inner =>
        setEntry name (.table origin inner) entries
    | some (.value _) => none
    | some (.table o inner) =>
      if origin = .dotted ∧ o = .header then none
      else (descend origin f path o inner).map fun inner =>
        setEntry name (.table o inner) entries
    | some (.tables items) =>
      match items.getLast? with
      | none => none
      | some last => (descend origin f path .header last).map fun inner =>
        setEntry name (.tables (items.dropLast ++ [inner])) entries

def addValue (name : String) (v : ConfigValue) (entries : Entries) : Option Entries :=
  match entryOf? name entries with
  | none => some (setEntry name (.value v) entries)
  | some _ => none

/-- Adds a value under a key. A key of several names ends in a table that dotted keys made, and a
key of one name in one that they did not make. -/
def addKey (key : KeyPath) (v : ConfigValue) (o : Origin) (entries : Entries) : Option Entries :=
  descend .dotted (fun o entries =>
    if (o == .dotted) == key.parents.isEmpty then none else addValue key.name v entries)
    key.parents o entries

def openTable (name : String) (entries : Entries) : Option Entries :=
  match entryOf? name entries with
  | none => some (setEntry name (.table .header []) entries)
  | some (.table .implied inner) => some (setEntry name (.table .header inner) entries)
  | some _ => none

def openItem (name : String) (entries : Entries) : Option Entries :=
  match entryOf? name entries with
  | none => some (setEntry name (.tables [[]]) entries)
  | some (.tables items) => some (setEntry name (.tables (items ++ [[]])) entries)
  | some _ => none

def openAt (openLast : String → Entries → Option Entries) (header : KeyPath) (entries : Entries) :
    Option Entries :=
  descend .implied (fun _ entries => openLast header.name entries) header.parents .header entries

mutual

def Node.toValue : Node → ConfigValue
  | .value v => v
  | .table _ entries => .table (entryValues entries)
  | .tables items => .list (itemValues items)

def entryValues : List (String × Node) → List (String × ConfigValue)
  | [] => []
  | (name, n) :: rest => (name, n.toValue) :: entryValues rest

def itemValues : List (List (String × Node)) → List ConfigValue
  | [] => []
  | entries :: rest => .table (entryValues entries) :: itemValues rest

end

end AvbEntity.Toml
