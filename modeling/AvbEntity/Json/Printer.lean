import AvbEntity.Json.Parser

namespace AvbEntity.Json

def newline (depth : Nat) : List Char := '\n' :: List.replicate (2 * depth) ' '

mutual

def render (depth : Nat) : Json → List Char
  | .null => ['n', 'u', 'l', 'l']
  | .bool true => ['t', 'r', 'u', 'e']
  | .bool false => ['f', 'a', 'l', 's', 'e']
  | .number l => l
  | .string r => '"' :: (r ++ ['"'])
  | .array [] => ['[', ']']
  | .array (v :: vs) =>
    '[' :: (newline (depth + 1) ++ (render (depth + 1) v ++ renderItems depth vs))
  | .object [] => ['{', '}']
  | .object ((name, v) :: ms) =>
    '{' :: (newline (depth + 1) ++ '"' :: (name ++ '"' :: ':' :: ' ' ::
      (render (depth + 1) v ++ renderMembers depth ms)))

def renderItems (depth : Nat) : List Json → List Char
  | [] => newline depth ++ [']']
  | v :: vs => ',' :: (newline (depth + 1) ++ (render (depth + 1) v ++ renderItems depth vs))

def renderMembers (depth : Nat) : List (List Char × Json) → List Char
  | [] => newline depth ++ ['}']
  | (name, v) :: ms =>
    ',' :: (newline (depth + 1) ++ '"' :: (name ++ '"' :: ':' :: ' ' ::
      (render (depth + 1) v ++ renderMembers depth ms)))

end

def pretty (v : Json) : String := String.ofList (render 0 v)

def unitEscape (n : Nat) : List Char := '\\' :: 'u' :: Text.padded 4 (Text.hex n)

def asciiChar (c : Char) : List Char :=
  let n := c.toNat
  if n < 0x80 then [c]
  else if n < 0x10000 then unitEscape n
  else unitEscape (0xD800 + (n - 0x10000) / 0x400) ++ unitEscape (0xDC00 + (n - 0x10000) % 0x400)

def Token.render : Token → List Char
  | .openBrace => ['{']
  | .closeBrace => ['}']
  | .openBracket => ['[']
  | .closeBracket => [']']
  | .colon => [':']
  | .comma => [',']
  | .null => ['n', 'u', 'l', 'l']
  | .bool true => ['t', 'r', 'u', 'e']
  | .bool false => ['f', 'a', 'l', 's', 'e']
  | .number l => l
  | .string r => '"' :: (r.flatMap asciiChar ++ ['"'])

def line (v : Json) : String := String.ofList (v.tokens.flatMap Token.render)

def ofText? (s : String) : Option Json := parse? s.toList

end AvbEntity.Json
