import AvbEntity.Text.Blank
import AvbEntity.Toml.Scalar

namespace AvbEntity.Toml

inductive Plain where
  | bool (value : Bool)
  | integer (value : Nat)
  | word (value : String)
deriving DecidableEq

structure Section where
  header : List String
  entries : List (String × Plain)
deriving DecidableEq

def Plain.fits : Plain → Bool
  | integer n => n < integerBound
  | _ => true

def Plain.render : Plain → List Char
  | bool true => ['t', 'r', 'u', 'e']
  | bool false => ['f', 'a', 'l', 's', 'e']
  | integer n => Text.decimal n
  | word s => '"' :: (s.toList ++ ['"'])

def renderEntry (e : String × Plain) : List Char :=
  e.1.toList ++ ' ' :: '=' :: ' ' :: (e.2.render ++ ['\n'])

def Section.render (s : Section) : List Char :=
  '[' :: (Text.joinWith ['.'] (s.header.map String.toList) ++
    ']' :: '\n' :: s.entries.flatMap renderEntry)

def write? (sections : List Section) : Option String :=
  if sections.all fun s => s.entries.all fun e => e.2.fits then
    some (String.ofList (Text.joinWith ['\n'] (sections.map Section.render)))
  else none

end AvbEntity.Toml
