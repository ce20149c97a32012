import AvbEntity.Json.Basic

namespace AvbEntity.Json

inductive Token where
  | openBrace
  | closeBrace
  | openBracket
  | closeBracket
  | colon
  | comma
  | null
  | bool (value : Bool)
  | number (literal : List Char)
  | string (raw : List Char)
deriving DecidableEq

def isBlank (c : Char) : Bool := c == ' ' || c == '\n' || c == '\t' || c == '\r'

def isNumberChar (c : Char) : Bool :=
  c.isDigit || c == '-' || c == '+' || c == '.' || c == 'e' || c == 'E'

def isDigits (cs : List Char) : Bool := !cs.isEmpty && cs.all Char.isDigit

def isExponent : List Char → Bool
  | '+' :: cs | '-' :: cs => isDigits cs
  | cs => isDigits cs

def isNumberTail : List Char → Bool
  | [] => true
  | '.' :: cs =>
    let rest := cs.dropWhile Char.isDigit
    isDigits (cs.takeWhile Char.isDigit) &&
      match rest with
      | [] => true
      | e :: cs => (e == 'e' || e == 'E') && isExponent cs
  | e :: cs => (e == 'e' || e == 'E') && isExponent cs

def isUnsignedNumber (cs : List Char) : Bool :=
  Text.isDecimal (cs.takeWhile Char.isDigit) && isNumberTail (cs.dropWhile Char.isDigit)

def isNumber : List Char → Bool
  | '-' :: cs => isUnsignedNumber cs
  | cs => isUnsignedNumber cs

def wordToken? (cs : List Char) : Option Token :=
  if cs = ['n', 'u', 'l', 'l'] then some .null
  else if cs = ['t', 'r', 'u', 'e'] then some (.bool true)
  else if cs = ['f', 'a', 'l', 's', 'e'] then some (.bool false)
  else none

def numberToken? (cs : List Char) : Option Token :=
  if isNumber cs then some (.number cs) else none

inductive LexMode where
  | between
  | word (seen : List Char)
  | number (seen : List Char)
  | string (seen : List Char)
  | escape (seen : List Char)
  | unicode (seen : List Char) (missing : Nat)

/-- The tokens read so far, last first, and what is read of the next one. -/
structure LexState where
  tokens : List Token
  mode : LexMode

def LexState.start (tokens : List Token) (c : Char) : Option LexState :=
  if isBlank c then some ⟨tokens, .between⟩
  else if isNumberChar c then some ⟨tokens, .number [c]⟩
  else if c.isAlpha then some ⟨tokens, .word [c]⟩
  else match c with
    | '{' => some ⟨.openBrace :: tokens, .between⟩
    | '}' => some ⟨.closeBrace :: tokens, .between⟩
    | '[' => some ⟨.openBracket :: tokens, .between⟩
    | ']' => some ⟨.closeBracket :: tokens, .between⟩
    | ':' => some ⟨.colon :: tokens, .between⟩
    | ',' => some ⟨.comma :: tokens, .between⟩
    | '"' => some ⟨tokens, .string []⟩
    | _ => none

def LexState.step : LexState → Char → Option LexState
  | ⟨tokens, .between⟩, c => start tokens c
  | ⟨tokens, .word seen⟩, c =>
    if c.isAlpha then some ⟨tokens, .word (c :: seen)⟩
    else (wordToken? seen.reverse).bind fun t => start (t :: tokens) c
  | ⟨tokens, .number seen⟩, c =>
    if isNumberChar c then some ⟨tokens, .number (c :: seen)⟩
    else (numberToken? seen.reverse).bind fun t => start (t :: tokens) c
  | ⟨tokens, .string seen⟩, c =>
    if c = '"' then some ⟨.string seen.reverse :: tokens, .between⟩
    else if c = '\\' then some ⟨tokens, .escape (c :: seen)⟩
    else if c.toNat < 0x20 then none
    else some ⟨tokens, .string (c :: seen)⟩
  | ⟨tokens, .escape seen⟩, c =>
    if c = 'u' then some ⟨tokens, .unicode (c :: seen) 4⟩
    else if (unescapeShort? c).isSome then some ⟨tokens, .string (c :: seen)⟩
    else none
  | ⟨tokens, .unicode seen missing⟩, c =>
    if Text.isHexDigit c then
      if missing ≤ 1 then some ⟨tokens, .string (c :: seen)⟩
      else some ⟨tokens, .unicode (c :: seen) (missing - 1)⟩
    else none

def LexState.run (s : LexState) : List Char → Option LexState
  | [] => some s
  | c :: cs => (s.step c).bind fun s => s.run cs

def LexState.finish : LexState → Option (List Token)
  | ⟨tokens, .between⟩ => some tokens.reverse
  | ⟨tokens, .word seen⟩ => (wordToken? seen.reverse).map fun t => (t :: tokens).reverse
  | ⟨tokens, .number seen⟩ => (numberToken? seen.reverse).map fun t => (t :: tokens).reverse
  | _ => none

def tokenize? (cs : List Char) : Option (List Token) :=
  (LexState.run ⟨[], .between⟩ cs).bind LexState.finish

theorem LexState.run_append (s : LexState) (cs ds : List Char) :
    s.run (cs ++ ds) = (s.run cs).bind fun s => s.run ds := by
  induction cs generalizing s with
  | nil => rfl
  | cons c cs ih =>
    simp only [List.cons_append, run]
    cases s.step c with
    | none => rfl
    | some s' => exact ih s'

end AvbEntity.Json
