namespace AvbEntity.Text

def hexValue? (c : Char) : Option Nat :=
  if c.isDigit then some (c.toNat - '0'.toNat)
  else if 'a' ≤ c ∧ c ≤ 'f' then some (c.toNat - 'a'.toNat + 10)
  else if 'A' ≤ c ∧ c ≤ 'F' then some (c.toNat - 'A'.toNat + 10)
  else none

def isHexDigit (c : Char) : Bool := (hexValue? c).isSome

def ofHexDigits (cs : List Char) : Nat :=
  cs.foldl (fun n c => 16 * n + (hexValue? c).getD 0) 0

def hex? (cs : List Char) : Option Nat :=
  if cs ≠ [] ∧ cs.all isHexDigit then some (ofHexDigits cs) else none

def decimal (n : Nat) : List Char := Nat.toDigits 10 n

def hex (n : Nat) : List Char := Nat.toDigits 16 n

def padded (width : Nat) (cs : List Char) : List Char :=
  List.replicate (width - cs.length) '0' ++ cs

def isDecimal : List Char → Bool
  | [] => false
  | ['0'] => true
  | '0' :: _ => false
  | cs => cs.all Char.isDigit

def decimal? (cs : List Char) : Option Nat :=
  if isDecimal cs then some (Nat.ofDigitChars 10 cs 0) else none

theorem all_isDigit_decimal (n : Nat) : (decimal n).all Char.isDigit := by
  simp only [decimal, List.all_eq_true]
  exact fun c hc => Nat.isDigit_of_mem_toDigits (by decide) (by decide) hc

theorem isDigit_of_mem_decimal {n : Nat} {c : Char} (member : c ∈ decimal n) : c.isDigit = true :=
  List.all_eq_true.mp (all_isDigit_decimal n) c member

theorem toNat_of_isDigit {c : Char} (digit : c.isDigit = true) : 48 ≤ c.toNat ∧ c.toNat ≤ 57 := by
  simpa [Char.isDigit, UInt32.le_iff_toNat_le] using digit

@[elab_as_elim]
theorem of_isDigit {motive : Char → Prop} {c : Char} (digit : c.isDigit = true)
    (each : ∀ d < 10, motive (Nat.digitChar d)) : motive c := by
  obtain ⟨lower, upper⟩ := toNat_of_isDigit digit
  have value : ∀ d < 10, (Nat.digitChar d).toNat = d + 48 := by decide
  have same : c = Nat.digitChar (c.toNat - 48) := by
    apply Char.toNat_inj.mp
    rw [value _ (by omega)]
    omega
  rw [same]
  exact each _ (by omega)

theorem decimal_ne_nil (n : Nat) : decimal n ≠ [] := Nat.toDigits_ne_nil

theorem decimal_ne_cons (n : Nat) {c : Char} (other : c.isDigit = false) (cs : List Char) :
    decimal n ≠ c :: cs := by
  intro numeral
  have digit : c.isDigit = true := isDigit_of_mem_decimal (numeral ▸ List.mem_cons_self)
  exact Bool.false_ne_true (other.symm.trans digit)

theorem digitChar_ne_zero {n : Nat} (h : n ≠ 0) (h' : n < 10) : n.digitChar ≠ '0' := by
  match n, h, h' with
  | 1, _, _ | 2, _, _ | 3, _, _ | 4, _, _ | 5, _, _ | 6, _, _ | 7, _, _ | 8, _, _ | 9, _, _ => decide

theorem head?_decimal_ne_zero (n : Nat) (h : n ≠ 0) : (decimal n).head? ≠ some '0' := by
  induction n using Nat.strongRecOn with
  | ind n ih =>
    unfold decimal at ih ⊢
    rw [Nat.toDigits_eq_if (by decide)]
    split
    · rename_i hlt
      simpa using digitChar_ne_zero h hlt
    · rename_i hge
      have hne : n / 10 ≠ 0 := by omega
      have := ih (n / 10) (by omega) hne
      cases hd : Nat.toDigits 10 (n / 10) with
      | nil => exact absurd hd Nat.toDigits_ne_nil
      | cons c cs => simpa [hd] using this

theorem isDecimal_decimal (n : Nat) : isDecimal (decimal n) := by
  by_cases h : n = 0
  · subst h; rfl
  · have hz := head?_decimal_ne_zero n h
    have ha := all_isDigit_decimal n
    have hn := decimal_ne_nil n
    revert hz ha hn
    generalize decimal n = cs
    intro hz ha hn
    unfold isDecimal
    split
    · exact absurd rfl hn
    · rfl
    · simp at hz
    · exact ha

@[simp] theorem decimal?_decimal (n : Nat) : decimal? (decimal n) = some n := by
  rw [decimal?, if_pos (isDecimal_decimal n), decimal, Nat.ofDigitChars_ten_toDigits]

theorem length_padded {width : Nat} {cs : List Char} (fits : cs.length ≤ width) :
    (padded width cs).length = width := by
  simp [padded]
  omega

theorem all_isDigit_padded_decimal (width n : Nat) :
    ∀ c ∈ padded width (decimal n), c.isDigit = true := by
  intro c member
  rcases List.mem_append.mp member with zero | digit
  · rw [List.eq_of_mem_replicate zero]
    decide
  · exact isDigit_of_mem_decimal digit

theorem ofDigitChars_padded_decimal (width n : Nat) :
    Nat.ofDigitChars 10 (padded width (decimal n)) 0 = n := by
  rw [padded, Nat.ofDigitChars_append, Nat.ofDigitChars_replicate_zero, Nat.mul_zero, decimal,
    Nat.ofDigitChars_ten_toDigits]

theorem padded_decimal_ne_nil (width n : Nat) : padded width (decimal n) ≠ [] := by
  simp [padded, decimal_ne_nil]

theorem length_padded_decimal {width n : Nat} (positive : 0 < width) (fits : n < Nat.pow 10 width) :
    (padded width (decimal n)).length = width :=
  length_padded ((Nat.length_toDigits_le_iff (by decide) positive).mpr fits)

theorem hexValue?_digitChar : ∀ {d : Nat}, d < 16 → hexValue? d.digitChar = some d := by
  decide

theorem all_isHexDigit_hex (n : Nat) : (hex n).all isHexDigit := by
  induction n using Nat.strongRecOn with
  | ind n ih =>
    unfold hex at ih ⊢
    rw [Nat.toDigits_eq_if (by decide)]
    split
    next small => simp [isHexDigit, hexValue?_digitChar small]
    next large =>
      have last : n % 16 < 16 := Nat.mod_lt _ (by decide)
      have front := ih (n / 16) (by omega)
      simpa [isHexDigit, hexValue?_digitChar last] using front

theorem toNat_of_isHexDigit {c : Char} (h : isHexDigit c = true) : 48 ≤ c.toNat ∧ c.toNat ≤ 102 := by
  unfold isHexDigit hexValue? at h
  split at h
  next digit =>
    have range := toNat_of_isDigit digit
    omega
  · split at h
    next lower =>
      have range : 97 ≤ c.toNat ∧ c.toNat ≤ 102 := by
        simpa [Char.le_def, UInt32.le_iff_toNat_le] using lower
      omega
    · split at h
      next upper =>
        have range : 65 ≤ c.toNat ∧ c.toNat ≤ 70 := by
          simpa [Char.le_def, UInt32.le_iff_toNat_le] using upper
        omega
      · cases h

theorem ofHexDigits_hex (n : Nat) : ofHexDigits (hex n) = n := by
  induction n using Nat.strongRecOn with
  | ind n ih =>
    unfold hex at ih ⊢
    rw [Nat.toDigits_eq_if (by decide)]
    split
    next small => simp [ofHexDigits, hexValue?_digitChar small]
    next large =>
      have last : n % 16 < 16 := Nat.mod_lt _ (by decide)
      have front : ofHexDigits (Nat.toDigits 16 (n / 16)) = n / 16 := ih (n / 16) (by omega)
      rw [ofHexDigits] at front
      rw [ofHexDigits, List.foldl_append, front, List.foldl_cons, List.foldl_nil,
        hexValue?_digitChar last, Option.getD_some, Nat.div_add_mod]

theorem ofHexDigits_padded (width : Nat) (cs : List Char) :
    ofHexDigits (padded width cs) = ofHexDigits cs := by
  have zeros : ∀ k, (List.replicate k '0').foldl (fun n c => 16 * n + (hexValue? c).getD 0) 0 = 0 := by
    intro k
    induction k with
    | zero => rfl
    | succ k ih => exact ih
  rw [padded, ofHexDigits, List.foldl_append, zeros, ofHexDigits]

theorem hex?_padded_hex (width n : Nat) : hex? (padded width (hex n)) = some n := by
  have digits : (padded width (hex n)).all isHexDigit := by
    have zero : isHexDigit '0' := by decide
    simp [padded, all_isHexDigit_hex n, zero]
  have present : padded width (hex n) ≠ [] := by simp [padded, hex]
  rw [hex?, if_pos ⟨present, digits⟩, ofHexDigits_padded, ofHexDigits_hex]

@[simp] theorem hex?_hex (n : Nat) : hex? (hex n) = some n := by
  simpa [padded] using hex?_padded_hex 0 n

end AvbEntity.Text
