import AvbEntity.Text.Digits

namespace AvbEntity.Text

def isPlain (c : Char) : Bool := c == '\t' || (0x20 ≤ c.toNat && c.toNat ≠ 0x7F)

def unescape? : Char → Option Char
  | 'b' => some '\x08'
  | 't' => some '\t'
  | 'n' => some '\n'
  | 'f' => some '\x0c'
  | 'r' => some '\x0d'
  | '"' => some '"'
  | '\\' => some '\\'
  | _ => none

def scalarOf? (digits : List Char) : Option Char :=
  (hex? digits).bind fun n => if n.isValidChar then some (Char.ofNat n) else none

def quoted? : List Char → Option (List Char × List Char)
  | [] => none
  | '"' :: rest => some ([], rest)
  | '\\' :: 'u' :: a :: b :: c :: d :: rest => do
    let ch ← scalarOf? [a, b, c, d]
    let (cs, rest) ← quoted? rest
    return (ch :: cs, rest)
  | '\\' :: 'U' :: a :: b :: c :: d :: e :: f :: g :: h :: rest => do
    let ch ← scalarOf? [a, b, c, d, e, f, g, h]
    let (cs, rest) ← quoted? rest
    return (ch :: cs, rest)
  | '\\' :: e :: rest => do
    let ch ← unescape? e
    let (cs, rest) ← quoted? rest
    return (ch :: cs, rest)
  | ch :: rest => if isPlain ch then (quoted? rest).map fun (cs, rest) => (ch :: cs, rest) else none

end AvbEntity.Text
