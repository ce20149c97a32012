import AvbEntity.Json.Form
import AvbEntity.Text.Blank
import AvbEntity.Time.Date

namespace AvbEntity

/-- A point of universal time. Second 60 is a leap second. -/
structure Timestamp where
  date : Date
  minute : Nat
  second : Nat
  nanos : Nat
  minute_lt : minute < 1440
  second_le : second ≤ 60
  nanos_lt : nanos < 1000000000
deriving DecidableEq

namespace Timestamp

def isSupportedYear (year : Int) : Bool := -262143 ≤ year && year ≤ 262142

/-- A year of up to four digits is written with four digits, any other with its sign and at least
four digits. -/
def yearText (year : Int) : List Char :=
  let digits := Text.padded 4 (Text.decimal year.natAbs)
  if 0 ≤ year ∧ year ≤ 9999 then digits
  else (if year < 0 then '-' else '+') :: digits

/-- A fraction of a second has as few of 0, 3, 6 or 9 digits as hold it. -/
def fractionText (nanos : Nat) : List Char :=
  if nanos = 0 then []
  else if nanos % 1000000 = 0 then '.' :: Text.padded 3 (Text.decimal (nanos / 1000000))
  else if nanos % 1000 = 0 then '.' :: Text.padded 6 (Text.decimal (nanos / 1000))
  else '.' :: Text.padded 9 (Text.decimal nanos)

def twoDigits (n : Nat) : List Char := Text.padded 2 (Text.decimal n)

def write (t : Timestamp) : List Char :=
  yearText t.date.year ++ '-' :: (twoDigits t.date.month ++ '-' :: (twoDigits t.date.day ++ 'T' ::
    (twoDigits (t.minute / 60) ++ ':' :: (twoDigits (t.minute % 60) ++ ':' ::
      (twoDigits t.second ++ (fractionText t.nanos ++ ['Z']))))))

def digits? (most : Nat) (cs : List Char) : Option (Nat × List Char) :=
  let ds := (cs.take most).takeWhile Char.isDigit
  if ds.isEmpty then none else some (Nat.ofDigitChars 10 ds 0, cs.drop ds.length)

def field? (cs : List Char) : Option (Nat × List Char) := digits? 2 (Text.trimStart cs)

def year? (cs : List Char) : Option (Int × List Char) :=
  match Text.trimStart cs with
  | '-' :: rest => (digits? rest.length rest).map fun (n, rest) => (-(n : Int), rest)
  | '+' :: rest => (digits? rest.length rest).map fun (n, rest) => ((n : Int), rest)
  | rest => (digits? 4 rest).map fun (n, rest) => ((n : Int), rest)

def separator? (c : Char) (cs : List Char) : Option (List Char) :=
  match Text.trimStart cs with
  | d :: rest => if d = c then some rest else none
  | [] => none

def fraction? : List Char → Option (Nat × List Char)
  | '.' :: cs =>
    let ds := (cs.take 9).takeWhile Char.isDigit
    if ds.isEmpty then none
    else some (Nat.ofDigitChars 10 ds 0 * Nat.pow 10 (9 - ds.length), cs.dropWhile Char.isDigit)
  | cs => some (0, cs)

def pair? (a b : Char) : Option Nat :=
  if a.isDigit ∧ b.isDigit then some (Nat.ofDigitChars 10 [a, b] 0) else none

def offset? (cs : List Char) : Option (Int × List Char) :=
  match cs with
  | 'Z' :: rest | 'z' :: rest => some (0, rest)
  | _ =>
    if (cs.take 3).map Char.toUpper = ['U', 'T', 'C'] then some (0, cs.drop 3)
    else match cs with
      | sign :: a :: b :: rest =>
        if sign = '+' ∨ sign = '-' ∨ sign = '\u2212' then do
          let hours ← pair? a b
          match rest.dropWhile fun c => c = ':' || Text.isBlank c with
          | c :: d :: rest =>
            let minutes ← pair? c d
            if hours < 24 ∧ minutes < 60 then
              let offset : Int := hours * 60 + minutes
              return (if sign = '+' then offset else -offset, rest)
            else none
          | _ => none
        else none
      | _ => none

def ofLocal? (date : Date) (minute : Nat) (second nanos : Nat) (offset : Int) :
    Option Timestamp :=
  let universal := (minute : Int) - offset
  let (date, universal) :=
    if universal < 0 then (date.previous, universal + 1440)
    else if 1440 ≤ universal then (date.next, universal - 1440)
    else (date, universal)
  if h : universal.toNat < 1440 ∧ second ≤ 60 ∧ nanos < 1000000000 ∧ isSupportedYear date.year then
    some ⟨date, universal.toNat, second, nanos, h.1, h.2.1, h.2.2.1⟩
  else none

def read? (cs : List Char) : Option Timestamp := do
  let (year, cs) ← year? cs
  let cs ← separator? '-' cs
  let (month, cs) ← field? cs
  let cs ← separator? '-' cs
  let (day, cs) ← field? cs
  let cs ← match cs with
    | 'T' :: rest | 't' :: rest | ' ' :: rest => some rest
    | _ => none
  let (hour, cs) ← field? cs
  let cs ← separator? ':' cs
  let (minute, cs) ← field? cs
  let cs ← separator? ':' cs
  let (second, cs) ← field? cs
  let (nanos, cs) ← fraction? cs
  let (offset, cs) ← offset? (Text.trimStart cs)
  if (Text.trimStart cs).isEmpty ∧ isSupportedYear year ∧ hour < 24 ∧ minute < 60 then
    ofLocal? (← Date.ofParts? year month day) (hour * 60 + minute) second nanos offset
  else none

instance : Json.Encode Timestamp := ⟨fun t => .ofString (String.ofList t.write)⟩

instance : Json.Decode Timestamp := ⟨fun j => j.text?.bind fun s => read? s.toList, none⟩

end Timestamp

end AvbEntity
