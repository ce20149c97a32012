import AvbEntity.Text.Digits

namespace AvbEntity

/-- A JSON value as written: numbers and strings keep their characters, and an object keeps its
members in order with repetitions. -/
inductive Json where
  | null
  | bool (value : Bool)
  | number (literal : List Char)
  | string (raw : List Char)
  | array (items : List Json)
  | object (members : List (List Char × Json))

namespace Json

instance : Inhabited Json := ⟨.null⟩

def shortEscape? : Char → Option Char
  | '"' => some '"'
  | '\\' => some '\\'
  | '\x08' => some 'b'
  | '\x09' => some 't'
  | '\x0a' => some 'n'
  | '\x0c' => some 'f'
  | '\x0d' => some 'r'
  | _ => none

def escapeChar (c : Char) : List Char :=
  match shortEscape? c with
  | some e => ['\\', e]
  | none => if c.toNat < 0x20 then '\\' :: 'u' :: Text.padded 4 (Text.hex c.toNat) else [c]

def escape (cs : List Char) : List Char := cs.flatMap escapeChar

def unescapeShort? : Char → Option Char
  | '"' => some '"'
  | '\\' => some '\\'
  | '/' => some '/'
  | 'b' => some '\x08'
  | 't' => some '\x09'
  | 'n' => some '\x0a'
  | 'f' => some '\x0c'
  | 'r' => some '\x0d'
  | _ => none

def units? : List Char → Option (List Nat)
  | [] => some []
  | '\\' :: 'u' :: a :: b :: c :: d :: rest => do
    let u ← Text.hex? [a, b, c, d]
    return u :: (← units? rest)
  | '\\' :: e :: rest => do
    let c ← unescapeShort? e
    return c.toNat :: (← units? rest)
  | c :: rest => do
    return c.toNat :: (← units? rest)

def isHighSurrogate (u : Nat) : Bool := 0xD800 ≤ u && u < 0xDC00

def isLowSurrogate (u : Nat) : Bool := 0xDC00 ≤ u && u < 0xE000

/-- The text of a list of units: two surrogate halves in order are one character, and a half that
stands alone denotes nothing. -/
def joinSurrogates? : List Nat → Option (List Char)
  | [] => some []
  | [u] => if isHighSurrogate u || isLowSurrogate u then none else some [Char.ofNat u]
  | u :: v :: rest =>
    if isLowSurrogate u then none
    else if isHighSurrogate u then
      if isLowSurrogate v then do
        return Char.ofNat (0x10000 + (u - 0xD800) * 0x400 + (v - 0xDC00)) :: (← joinSurrogates? rest)
      else none
    else do return Char.ofNat u :: (← joinSurrogates? (v :: rest))

def unescape? (raw : List Char) : Option (List Char) := units? raw >>= joinSurrogates?

def ofString (s : String) : Json := .string (escape s.toList)

def ofNat (n : Nat) : Json := .number (Text.decimal n)

def ofMembers (members : List (String × Json)) : Json :=
  .object (members.map fun m => (escape m.1.toList, m.2))

def nat? : Json → Option Nat
  | .number literal => Text.decimal? literal
  | _ => none

def text? : Json → Option String
  | .string raw => (unescape? raw).map String.ofList
  | _ => none

end Json

end AvbEntity
