import AvbEntity.Text.Items
import AvbEntity.Toml.Scalar
import AvbEntity.Toml.Tree

namespace AvbEntity.Toml

def skipBlanks (cs : List Char) : List Char := cs.dropWhile isBlank

def skipComment : List Char → List Char
  | '#' :: rest => rest.dropWhile Text.isPlain
  | cs => cs

def afterLineEnd? : List Char → Option (List Char)
  | [] => some []
  | '\n' :: rest => some rest
  | '\x0d' :: '\n' :: rest => some rest
  | _ => none

def endLine? (cs : List Char) : Option (List Char) := afterLineEnd? (skipComment (skipBlanks cs))

/-- Passes over blanks, line ends and comments; the flag says that the text begins in a comment. -/
def skipLines (inComment : Bool) : List Char → List Char
  | '\x0d' :: '\n' :: rest => skipLines false rest
  | c :: rest =>
    if c = '\n' then skipLines false rest
    else if inComment then if Text.isPlain c then skipLines true rest else c :: rest
    else if isBlank c then skipLines false rest
    else if c = '#' then skipLines true rest
    else c :: rest
  | [] => []

/-- How deep a document may nest: the most names of a key, and the most lists and tables of a value
that stand one in the other. -/
def maxDepth : Nat := 79

def isNameChar (c : Char) : Bool := c.isAlphanum || c == '_' || c == '-'

def name? : Reader String
  | '"' :: rest => (Text.quoted? rest).map fun (cs, rest) => (String.ofList cs, rest)
  | '\'' :: rest => (literal? rest).map fun (cs, rest) => (String.ofList cs, rest)
  | cs =>
    let word := cs.takeWhile isNameChar
    if word.isEmpty then none else some (String.ofList word, cs.dropWhile isNameChar)

def spacedName? (cs : List Char) : Option (String × List Char) :=
  (name? (skipBlanks cs)).map fun (name, rest) => (name, skipBlanks rest)

def key? (cs : List Char) : Option (KeyPath × List Char) := do
  let (names, rest) ← Text.itemsBy? '.' spacedName? cs
  if names.length ≤ maxDepth then return (⟨names.dropLast, ← names.getLast?⟩, rest) else none

def assignment? (value? : Reader ConfigValue) (cs : List Char) :
    Option ((KeyPath × ConfigValue) × List Char) := do
  let (key, rest) ← key? cs
  match rest with
  | '=' :: rest =>
    let (v, rest) ← value? (skipBlanks rest)
    return ((key, v), skipBlanks rest)
  | _ => none

def inlineTable? (assignments : List (KeyPath × ConfigValue)) : Option ConfigValue :=
  (assignments.foldlM (fun entries a => addKey a.1 a.2 .header entries) []).map fun entries =>
    .table (entryValues entries)

def value? : Nat → Reader ConfigValue
  | 0, cs => scalar? cs
  | depth + 1, '[' :: rest =>
    (Text.itemsUntil? ']' ',' (skipLines false) (value? depth) rest).map fun (items, rest) =>
      (.list items, rest)
  | depth + 1, '\x7b' :: rest =>
    match skipBlanks rest with
    | '\x7d' :: rest => some (.table [], rest)
    | rest => do
      let (assignments, rest) ← Text.itemsBy? ',' (assignment? (value? depth)) rest
      match rest with
      | '\x7d' :: rest => return (← inlineTable? assignments, rest)
      | _ => none
  | _, cs => scalar? cs

inductive Statement where
  | table (header : KeyPath)
  | item (header : KeyPath)
  | assign (key : KeyPath) (value : ConfigValue)

def statement? : Reader Statement
  | '[' :: '[' :: rest => do
    let (header, rest) ← key? rest
    match rest with
    | ']' :: ']' :: rest => return (.item header, ← endLine? rest)
    | _ => none
  | '[' :: rest => do
    let (header, rest) ← key? rest
    match rest with
    | ']' :: rest => return (.table header, ← endLine? rest)
    | _ => none
  | cs => do
    let ((key, v), rest) ← assignment? (value? maxDepth) cs
    return (.assign key v, ← endLine? rest)

def statements? (cs : List Char) : Option (List Statement) :=
  if cs.isEmpty then some []
  else match endLine? cs with
    | some rest => if rest.length < cs.length then statements? rest else none
    | none =>
      match statement? (skipBlanks cs) with
      | none => none
      | some (s, rest) =>
        if rest.length < cs.length then (statements? rest).map (s :: ·) else none
termination_by cs.length

structure Build where
  entries : Entries := []
  header : List String := []

def Build.add (b : Build) : Statement → Option Build
  | .table header => (openAt openTable header b.entries).map fun entries => ⟨entries, header.names⟩
  | .item header => (openAt openItem header b.entries).map fun entries => ⟨entries, header.names⟩
  | .assign key v =>
    (descend .implied (addKey key v) b.header .header b.entries).map fun entries =>
      { b with entries }

def build? (statements : List Statement) : Option ConfigValue :=
  (statements.foldlM Build.add {}).map fun b => .table (entryValues b.entries)

def dropByteOrderMark : List Char → List Char
  | '\ufeff' :: rest => rest
  | cs => cs

def parse? (text : String) : Option ConfigValue :=
  (statements? (dropByteOrderMark text.toList)).bind build?

end AvbEntity.Toml
