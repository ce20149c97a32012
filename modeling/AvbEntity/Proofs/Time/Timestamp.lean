import AvbEntity.Time.Timestamp
import Mathlib.Data.List.TakeWhile

namespace AvbEntity.Timestamp

open Text

theorem trimStart_digits {ds : List Char} (present : ds ≠ []) (digits : ∀ c ∈ ds, c.isDigit = true)
    (rest : List Char) : trimStart (ds ++ rest) = ds ++ rest := by
  obtain ⟨d, ds, rfl⟩ := List.exists_cons_of_ne_nil present
  have range := toNat_of_isDigit (digits d List.mem_cons_self)
  exact trimStart_cons (isBlank_eq_false (by omega)) _

theorem takeWhile_take_digits {most : Nat} {ds rest : List Char} (digits : ∀ c ∈ ds, c.isDigit = true)
    (fits : ds.length ≤ most) (stops : ds.length = most ∨ rest.takeWhile Char.isDigit = []) :
    ((ds ++ rest).take most).takeWhile Char.isDigit = ds := by
  have nothing : (rest.take (most - ds.length)).takeWhile Char.isDigit = [] := by
    rcases stops with full | stops
    · rw [full, Nat.sub_self, List.take_zero, List.takeWhile_nil]
    · rw [← List.take_takeWhile, stops, List.take_nil]
  rw [List.take_append, List.take_of_length_le fits, List.takeWhile_append_of_pos digits, nothing,
    List.append_nil]

theorem digits?_append {most : Nat} {ds rest : List Char} (present : ds ≠ [])
    (digits : ∀ c ∈ ds, c.isDigit = true) (fits : ds.length ≤ most)
    (stops : ds.length = most ∨ rest.takeWhile Char.isDigit = []) :
    digits? most (ds ++ rest) = some (Nat.ofDigitChars 10 ds 0, rest) := by
  rw [digits?, takeWhile_take_digits digits fits stops, if_neg (by simpa using present), List.drop_left]

theorem field?_twoDigits {n : Nat} (bound : n < 100) (rest : List Char) :
    field? (twoDigits n ++ rest) = some (n, rest) := by
  have present := padded_decimal_ne_nil 2 n
  have digits := all_isDigit_padded_decimal 2 n
  have length : (twoDigits n).length = 2 := length_padded_decimal (by decide) bound
  rw [field?, twoDigits, trimStart_digits present digits,
    digits?_append present digits length.le (.inl length), ofDigitChars_padded_decimal]

theorem separator?_self {c : Char} (visible : isBlank c = false) (rest : List Char) :
    separator? c (c :: rest) = some rest := by
  rw [separator?, trimStart_cons visible]
  exact if_pos rfl

theorem year?_unsigned {n : Nat} (short : n ≤ 9999) (rest : List Char) :
    year? (padded 4 (decimal n) ++ '-' :: rest) = some ((n : Int), '-' :: rest) := by
  have present := padded_decimal_ne_nil 4 n
  have digits := all_isDigit_padded_decimal 4 n
  have length : (padded 4 (decimal n)).length = 4 :=
    length_padded_decimal (by decide) (show n < 10000 by omega)
  have read : digits? 4 (padded 4 (decimal n) ++ '-' :: rest) = some (n, '-' :: rest) := by
    rw [digits?_append present digits length.le (.inl length), ofDigitChars_padded_decimal]
  -- the first character is a digit, so the year is not taken for one with a sign
  have unsigned : year? (padded 4 (decimal n) ++ '-' :: rest) =
      (digits? 4 (padded 4 (decimal n) ++ '-' :: rest)).map fun r => ((r.1 : Int), r.2) := by
    obtain ⟨d, ds, same⟩ := List.exists_cons_of_ne_nil present
    have digit := digits d (same ▸ List.mem_cons_self)
    rw [year?, trimStart_digits present digits, same]
    split
    next minus =>
      cases minus
      cases digit
    next plus =>
      cases plus
      cases digit
    · rfl
  rw [unsigned, read, Option.map_some]

theorem digits?_length (n : Nat) (rest : List Char) :
    digits? (padded 4 (decimal n) ++ '-' :: rest).length (padded 4 (decimal n) ++ '-' :: rest) =
      some (n, '-' :: rest) := by
  rw [digits?_append (padded_decimal_ne_nil 4 n) (all_isDigit_padded_decimal 4 n) (by simp) (.inr rfl),
    ofDigitChars_padded_decimal]

theorem year?_yearText (year : Int) (rest : List Char) :
    year? (yearText year ++ '-' :: rest) = some (year, '-' :: rest) := by
  have read := digits?_length year.natAbs rest
  unfold yearText
  split
  next short =>
    rw [year?_unsigned (by omega), Int.natAbs_of_nonneg short.1]
  · split
    next negative =>
      have signed : year? ('-' :: (padded 4 (decimal year.natAbs) ++ '-' :: rest)) =
          (digits? _ (padded 4 (decimal year.natAbs) ++ '-' :: rest)).map
            fun r => (-(r.1 : Int), r.2) := rfl
      have value : -(year.natAbs : Int) = year := by omega
      rw [List.cons_append, signed, read, Option.map_some]
      exact congrArg (fun y => some (y, '-' :: rest)) value
    next positive =>
      have signed : year? ('+' :: (padded 4 (decimal year.natAbs) ++ '-' :: rest)) =
          (digits? _ (padded 4 (decimal year.natAbs) ++ '-' :: rest)).map
            fun r => ((r.1 : Int), r.2) := rfl
      have value : (year.natAbs : Int) = year := by omega
      rw [List.cons_append, signed, read, Option.map_some]
      exact congrArg (fun y => some (y, '-' :: rest)) value

theorem fraction?_digits {width n : Nat} (positive : 0 < width) (most : width ≤ 9)
    (fits : n < Nat.pow 10 width) :
    fraction? ('.' :: padded width (decimal n) ++ ['Z']) = some (n * Nat.pow 10 (9 - width), ['Z']) := by
  have present := padded_decimal_ne_nil width n
  have digits := all_isDigit_padded_decimal width n
  have length : (padded width (decimal n)).length = width := length_padded_decimal positive fits
  have rest : (padded width (decimal n) ++ ['Z']).dropWhile Char.isDigit = ['Z'] :=
    List.dropWhile_append_of_pos digits
  rw [List.cons_append, fraction?, takeWhile_take_digits digits (length.le.trans most) (.inr rfl),
    if_neg (by simpa using present), ofDigitChars_padded_decimal, length, rest]

theorem fraction?_fractionText {nanos : Nat} (bound : nanos < 1000000000) :
    fraction? (fractionText nanos ++ ['Z']) = some (nanos, ['Z']) := by
  unfold fractionText
  split
  next zero => rw [zero]; rfl
  · split
    next millis =>
      rw [fraction?_digits (by decide) (by decide) (show nanos / 1000000 < 1000 by omega)]
      exact congrArg (fun n => some (n, ['Z'])) (Nat.div_mul_cancel (Nat.dvd_of_mod_eq_zero millis))
    · split
      next micros =>
        rw [fraction?_digits (by decide) (by decide) (show nanos / 1000 < 1000000 by omega)]
        exact congrArg (fun n => some (n, ['Z'])) (Nat.div_mul_cancel (Nat.dvd_of_mod_eq_zero micros))
      · rw [fraction?_digits (by decide) (by decide) bound]
        exact congrArg (fun n => some (n, ['Z'])) (Nat.mul_one nanos)

theorem ofLocal?_parts {t : Timestamp} (supported : isSupportedYear t.date.year = true) :
    ofLocal? t.date t.minute t.second t.nanos 0 = some t := by
  have minute := t.minute_lt
  have early : ¬ (t.minute : Int) < 0 := by omega
  have late : ¬ (1440 : Int) ≤ t.minute := by omega
  simp only [ofLocal?, Int.sub_zero, if_neg early, if_neg late, Int.toNat_natCast]
  rw [dif_pos ⟨t.minute_lt, t.second_le, t.nanos_lt, supported⟩]

theorem bind_eq_some {α β : Type} {o : Option α} {f : α → Option β} {a : α} {b : β} (first : o = some a)
    (rest : f a = some b) : (o >>= f) = some b := by
  rw [first]
  exact rest

theorem read?_write {t : Timestamp} (supported : isSupportedYear t.date.year = true) :
    read? t.write = some t := by
  have month := t.date.month_le
  have day := t.date.day_le.trans (daysInMonth_le _ _)
  have minute := t.minute_lt
  have second := t.second_le
  have hours : t.minute / 60 < 24 := by omega
  have minutes : t.minute % 60 < 60 := Nat.mod_lt _ (by decide)
  have together : t.minute / 60 * 60 + t.minute % 60 = t.minute := Nat.div_add_mod' ..
  have dash : ∀ rest, separator? '-' ('-' :: rest) = some rest := separator?_self (by decide)
  have colon : ∀ rest, separator? ':' (':' :: rest) = some rest := separator?_self (by decide)
  refine bind_eq_some (year?_yearText t.date.year _) (bind_eq_some (dash _) ?_)
  refine bind_eq_some (field?_twoDigits (by omega) _) (bind_eq_some (dash _) ?_)
  refine bind_eq_some (field?_twoDigits (by omega) _) (bind_eq_some rfl ?_)
  refine bind_eq_some (field?_twoDigits (by omega) _) (bind_eq_some (colon _) ?_)
  refine bind_eq_some (field?_twoDigits (by omega) _) (bind_eq_some (colon _) ?_)
  refine bind_eq_some (field?_twoDigits (by omega) _) ?_
  refine bind_eq_some (fraction?_fractionText t.nanos_lt) (bind_eq_some rfl ?_)
  change (if _ then _ else _) = _
  rw [if_pos ⟨rfl, supported, hours, minutes⟩]
  refine bind_eq_some t.date.ofParts?_parts ?_
  rw [together]
  exact ofLocal?_parts supported

end AvbEntity.Timestamp
