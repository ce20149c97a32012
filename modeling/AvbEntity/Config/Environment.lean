import AvbEntity.Config.Value
import AvbEntity.Text.Blank
import AvbEntity.Text.Items
import AvbEntity.Text.Quoted

namespace AvbEntity

structure Variable where
  name : String
  text : String
deriving DecidableEq

namespace Variable

def mark : List Char := "AVDECC_".toList

def afterMark? (cs : List Char) : Option (List Char) :=
  if (cs.take mark.length).map Char.toUpper = mark then some (cs.drop mark.length) else none

def pointed : List Char → List Char
  | '_' :: '_' :: rest => '.' :: pointed rest
  | c :: rest => c :: pointed rest
  | [] => []

/-- The path that the name of a variable gives: the names, in lower case, between pairs of
underscores after the mark. A variable with an empty name in its path gives none. -/
def path? (v : Variable) : Option (List String) :=
  (afterMark? (Text.trim v.name.toList)).bind fun cs =>
    let names := Text.splitAt '.' (Text.trim (pointed cs))
    if names.any List.isEmpty then none
    else some (names.map fun name => String.ofList (name.map Char.toLower))

def isBlank (c : Char) : Bool :=
  c == ' ' || c == '\t' || c == '\n' || c == '\x0c' || c == '\x0d'

def skipBlanks (cs : List Char) : List Char := cs.dropWhile isBlank

def number? (cs : List Char) : Option Nat :=
  if cs ≠ [] ∧ cs.all Char.isDigit then some (Nat.ofDigitChars 10 cs 0) else none

/-- The integer of a word: digits with an optional sign, below 2^64 and not below -2^63. -/
def integer? : List Char → Option Int
  | '-' :: cs => (number? cs).bind fun n => if n ≤ 0x8000000000000000 then some (-n) else none
  | '+' :: cs => (number? cs).bind fun n => if n < UInt64.size then some n else none
  | cs => (number? cs).bind fun n => if n < UInt64.size then some n else none

def wordValue (cs : List Char) : ConfigValue :=
  match integer? cs with
  | some n => .integer n
  | none => .text (String.ofList cs)

def isWordChar (c : Char) : Bool := c != ',' && c != '{' && c != '}' && c != '[' && c != ']'

def isNameChar (c : Char) : Bool := c.isAlphanum || c == '_' || c == '-'

def name? : List Char → Option (List Char × List Char)
  | '"' :: rest => Text.quoted? rest
  | cs =>
    let word := cs.takeWhile isNameChar
    if word.isEmpty then none else some (word, cs.dropWhile isNameChar)

def assignment? (value? : List Char → Option (ConfigValue × List Char)) (cs : List Char) :
    Option ((String × ConfigValue) × List Char) := do
  let (name, rest) ← name? (skipBlanks cs)
  match skipBlanks rest with
  | '=' :: rest =>
    let (v, rest) ← value? rest
    return ((String.ofList name, v), rest)
  | _ => none

def value? (depth : Nat) (cs : List Char) : Option (ConfigValue × List Char) :=
  let read : Option (ConfigValue × List Char) :=
    match depth, skipBlanks cs with
    | _, 't' :: 'r' :: 'u' :: 'e' :: rest => some (.bool true, rest)
    | _, 'f' :: 'a' :: 'l' :: 's' :: 'e' :: rest => some (.bool false, rest)
    | 0, '{' :: _ => none
    | 0, '[' :: _ => none
    | depth + 1, '{' :: rest =>
      (Text.itemsUntil? '}' ',' id (assignment? (value? depth)) rest).map fun (entries, rest) =>
        (.table (entries.foldl (fun t e => alterEntry e.1 (fun _ => e.2) t) []), rest)
    | depth + 1, '[' :: rest =>
      (Text.itemsUntil? ']' ',' id (value? depth) rest).map fun (items, rest) =>
        (.list items, rest)
    | _, '"' :: rest => (Text.quoted? rest).map fun (cs, rest) => (.text (String.ofList cs), rest)
    | _, '\'' :: c :: '\'' :: rest => some (.character c, rest)
    | _, '\'' :: _ => none
    | _, cs => some (wordValue (Text.trim (cs.takeWhile isWordChar)), cs.dropWhile isWordChar)
  read.map fun (v, rest) => (v, skipBlanks rest)
termination_by structural depth

/-- The value of a variable; a text that is no value stands for itself. -/
def value (v : Variable) : ConfigValue :=
  let text := v.text.toList
  match value? text.length text with
  | some (value, []) => value
  | _ => .text v.text

def layer? (v : Variable) : Option ConfigValue := v.path?.map fun path => .nest path v.value

def layer (environment : List Variable) : ConfigValue := .layered (environment.filterMap layer?)

end Variable

end AvbEntity
