import AvbEntity.Config.Value
import AvbEntity.Text.Quoted
import AvbEntity.Toml.DateTime

namespace AvbEntity.Toml

abbrev Reader (α : Type) := List Char → Option (α × List Char)

def isBlank (c : Char) : Bool := c == ' ' || c == '\t'

def literal? : Reader (List Char)
  | [] => none
  | '\'' :: rest => some ([], rest)
  | ch :: rest =>
    if Text.isPlain ch then (literal? rest).map fun (cs, rest) => (ch :: cs, rest) else none

/-- Up to two quotes more after the three that close a string of several lines belong to it. -/
def closing (quote : Char) : List Char → List Char × List Char
  | c :: d :: rest =>
    if c = quote then if d = quote then ([c, d], rest) else ([c], d :: rest) else ([], c :: d :: rest)
  | [c] => if c = quote then ([c], []) else ([], [c])
  | [] => ([], [])

def endsLine (cs : List Char) : Bool :=
  match cs.dropWhile isBlank with
  | '\n' :: _ | '\x0d' :: '\n' :: _ => true
  | _ => false

/-- The characters of a basic string of several lines. A backslash at the end of a line takes away
all blanks and line ends that follow; `joining` says that one has. -/
def multiBasic? (joining : Bool) : Reader (List Char)
  | [] => none
  | '"' :: '"' :: '"' :: rest => some (closing '"' rest)
  | '\x0d' :: '\n' :: rest =>
    if joining then multiBasic? true rest
    else (multiBasic? false rest).map fun (cs, rest) => ('\n' :: cs, rest)
  | '\\' :: 'u' :: a :: b :: c :: d :: rest => do
    let ch ← Text.scalarOf? [a, b, c, d]
    let (cs, rest) ← multiBasic? false rest
    return (ch :: cs, rest)
  | '\\' :: 'U' :: a :: b :: c :: d :: e :: f :: g :: h :: rest => do
    let ch ← Text.scalarOf? [a, b, c, d, e, f, g, h]
    let (cs, rest) ← multiBasic? false rest
    return (ch :: cs, rest)
  | '\\' :: e :: rest =>
    if endsLine (e :: rest) then multiBasic? true (e :: rest)
    else do
      let ch ← Text.unescape? e
      let (cs, rest) ← multiBasic? false rest
      return (ch :: cs, rest)
  | ch :: rest =>
    if joining && (isBlank ch || ch == '\n') then multiBasic? true rest
    else if Text.isPlain ch || ch == '\n' then
      (multiBasic? false rest).map fun (cs, rest) => (ch :: cs, rest)
    else none

def multiLiteral? : Reader (List Char)
  | [] => none
  | '\'' :: '\'' :: '\'' :: rest => some (closing '\'' rest)
  | '\x0d' :: '\n' :: rest => (multiLiteral? rest).map fun (cs, rest) => ('\n' :: cs, rest)
  | ch :: rest =>
    if Text.isPlain ch || ch == '\n' then
      (multiLiteral? rest).map fun (cs, rest) => (ch :: cs, rest)
    else none

def dropFirstLineEnd : List Char → List Char
  | '\n' :: rest => rest
  | '\x0d' :: '\n' :: rest => rest
  | cs => cs

def string? : Reader (List Char)
  | '"' :: '"' :: '"' :: rest => multiBasic? false (dropFirstLineEnd rest)
  | '"' :: rest => Text.quoted? rest
  | '\'' :: '\'' :: '\'' :: rest => multiLiteral? (dropFirstLineEnd rest)
  | '\'' :: rest => literal? rest
  | _ => none

def isLiteralChar (c : Char) : Bool :=
  c.isAlphanum || c == '_' || c == '+' || c == '-' || c == '.'

def digits? (isDigit : Char → Bool) : List Char → Option (List Char)
  | [] => none
  | [c] => if isDigit c then some [c] else none
  | c :: '_' :: rest => if isDigit c then (digits? isDigit rest).map (c :: ·) else none
  | c :: rest => if isDigit c then (digits? isDigit rest).map (c :: ·) else none

def isDigitTo (base : Nat) (c : Char) : Bool :=
  match Text.hexValue? c with
  | some v => v < base
  | none => false

def numeral? (base : Nat) (cs : List Char) : Option Nat :=
  (digits? (isDigitTo base) cs).map fun ds =>
    ds.foldl (fun n c => base * n + (Text.hexValue? c).getD 0) 0

def signed : List Char → Bool × List Char
  | '-' :: cs => (true, cs)
  | '+' :: cs => (false, cs)
  | cs => (false, cs)

def integerBound : Nat := 0x8000000000000000

def fitted? (n : Int) : Option Int :=
  if -(integerBound : Int) ≤ n ∧ n < integerBound then some n else none

def wholeDigits? (cs : List Char) : Option (List Char) :=
  (digits? Char.isDigit cs).bind fun ds => if Text.isDecimal ds then some ds else none

def integer? : List Char → Option Int
  | '0' :: 'x' :: cs => (numeral? 16 cs).bind fun n => fitted? n
  | '0' :: 'o' :: cs => (numeral? 8 cs).bind fun n => fitted? n
  | '0' :: 'b' :: cs => (numeral? 2 cs).bind fun n => fitted? n
  | cs =>
    let (negative, cs) := signed cs
    (wholeDigits? cs).bind fun ds =>
      let n : Int := Nat.ofDigitChars 10 ds 0
      fitted? (if negative then -n else n)

def isFinite (digits : List Char) (power : Int) : Bool :=
  let n := Nat.ofDigitChars 10 digits 0
  let magnitude : Int := (Text.decimal n).length + power
  n == 0 || magnitude < 300 ||
    (magnitude < 310 &&
      n * Nat.pow 10 power.toNat <
        (Nat.pow 2 1024 - Nat.pow 2 970) * Nat.pow 10 (-power).toNat)

def exponent? (cs : List Char) : Option Int :=
  let (negative, cs) := signed cs
  (digits? Char.isDigit cs).map fun ds =>
    let n : Int := Nat.ofDigitChars 10 ds 0
    if negative then -n else n

def isFloat (cs : List Char) : Bool :=
  let (negative, cs) := signed cs
  if cs = ['i', 'n', 'f'] ∨ cs = ['n', 'a', 'n'] then true
  else
    let mantissa := cs.takeWhile fun c => c != 'e' && c != 'E'
    let power := cs.dropWhile fun c => c != 'e' && c != 'E'
    let whole := mantissa.takeWhile (· != '.')
    let fraction := mantissa.dropWhile (· != '.')
    let parts : Option (List Char × List Char × Int) := do
      let w ← wholeDigits? whole
      let f ← if fraction.isEmpty then some [] else digits? Char.isDigit (fraction.drop 1)
      let p ← if power.isEmpty then some 0 else exponent? (power.drop 1)
      return (w, f, p)
    match parts with
    | none => false
    | some (w, f, p) =>
      !(fraction.isEmpty && power.isEmpty) && (negative || isFinite (w ++ f) (p - f.length))

def literalValue? (cs : List Char) : Option ConfigValue :=
  if cs = ['t', 'r', 'u', 'e'] then some (.bool true)
  else if cs = ['f', 'a', 'l', 's', 'e'] then some (.bool false)
  else match integer? cs with
    | some n => some (.integer n)
    | none => if isFloat cs then some (.float cs) else none

/-- The value of a date-time: a table of its own, with a name that no setting has. -/
def dateTime? : Reader ConfigValue := fun cs =>
  (afterDateTime? cs).map fun rest =>
    (.table [("date-time", .text (String.ofList (cs.take (cs.length - rest.length))))], rest)

def scalar? : Reader ConfigValue
  | '"' :: rest => (string? ('"' :: rest)).map fun (cs, rest) => (.text (String.ofList cs), rest)
  | '\'' :: rest => (string? ('\'' :: rest)).map fun (cs, rest) => (.text (String.ofList cs), rest)
  | cs =>
    match dateTime? cs with
    | some read => some read
    | none => (literalValue? (cs.takeWhile isLiteralChar)).map fun v =>
      (v, cs.dropWhile isLiteralChar)

end AvbEntity.Toml
