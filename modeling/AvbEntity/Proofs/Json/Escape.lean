import AvbEntity.Json.Printer

namespace AvbEntity.Json

theorem unescapeShort?_of_shortEscape? {c e : Char} (short : shortEscape? c = some e) :
    e ≠ 'u' ∧ unescapeShort? e = some c := by
  unfold shortEscape? at short
  split at short <;> cases short <;> exact ⟨by decide, rfl⟩

def IsPlain (c : Char) : Prop := c ≠ '"' ∧ c ≠ '\\' ∧ 0x20 ≤ c.toNat

theorem exists_of_length_eq_four {cs : List Char} (four : cs.length = 4) :
    ∃ w x y z, cs = [w, x, y, z] := by
  obtain ⟨w, cs, rfl⟩ := List.exists_cons_of_length_eq_add_one four
  obtain ⟨x, cs, rfl⟩ := List.exists_cons_of_length_eq_add_one (Nat.succ.inj four)
  obtain ⟨y, cs, rfl⟩ := List.exists_cons_of_length_eq_add_one (Nat.succ.inj (Nat.succ.inj four))
  obtain ⟨z, rfl⟩ := List.length_eq_one_iff.mp (Nat.succ.inj (Nat.succ.inj (Nat.succ.inj four)))
  exact ⟨w, x, y, z, rfl⟩

theorem escapeChar_cases (c : Char) :
    (∃ e, escapeChar c = ['\\', e] ∧ e ≠ 'u' ∧ unescapeShort? e = some c) ∨
      (∃ w x y z, escapeChar c = ['\\', 'u', w, x, y, z] ∧ Text.hex? [w, x, y, z] = some c.toNat) ∨
      escapeChar c = [c] ∧ IsPlain c := by
  unfold escapeChar
  split
  next e short => exact .inl ⟨e, rfl, unescapeShort?_of_shortEscape? short⟩
  next long =>
    split
    next control =>
      have digits : (Text.padded 4 (Text.hex c.toNat)).length = 4 := by
        apply Text.length_padded
        rw [Text.hex, Nat.length_toDigits_le_iff (by decide) (by decide)]
        omega
      have number := Text.hex?_padded_hex 4 c.toNat
      obtain ⟨w, x, y, z, same⟩ := exists_of_length_eq_four digits
      rw [same] at number ⊢
      exact .inr (.inl ⟨w, x, y, z, rfl, number⟩)
    next visible =>
      refine .inr (.inr ⟨rfl, ?_, ?_, by omega⟩)
      · rintro rfl
        cases long
      · rintro rfl
        cases long

theorem units?_escapeChar (c : Char) (rest : List Char) :
    units? (escapeChar c ++ rest) = (units? rest).map (c.toNat :: ·) := by
  rcases escapeChar_cases c with ⟨e, form, notLong, short⟩ | ⟨w, x, y, z, form, number⟩ | ⟨form, plain⟩
  · simp only [form, List.cons_append, List.nil_append]
    rw [units?, short]
    · cases units? rest <;> rfl
    · intro _ _ _ _ _ long
      exact absurd long notLong
  · simp only [form, List.cons_append, List.nil_append, units?, number]
    cases units? rest <;> rfl
  · simp only [form, List.cons_append, List.nil_append]
    rw [units?]
    · cases units? rest <;> rfl
    all_goals
      intros
      exact plain.2.1 ‹_›

theorem units?_escape (cs : List Char) : units? (escape cs) = some (cs.map Char.toNat) := by
  induction cs with
  | nil => rfl
  | cons c cs ih =>
    rw [escape, List.flatMap_cons, units?_escapeChar, ← escape, ih]
    rfl

theorem not_isSurrogate_toNat (c : Char) :
    isHighSurrogate c.toNat = false ∧ isLowSurrogate c.toNat = false := by
  have valid : c.toNat < 0xD800 ∨ 0xDFFF < c.toNat ∧ c.toNat < 0x110000 := c.valid
  simp only [isHighSurrogate, isLowSurrogate, Bool.and_eq_false_iff, decide_eq_false_iff_not]
  omega

theorem joinSurrogates?_cons (c : Char) (us : List Nat) :
    joinSurrogates? (c.toNat :: us) = (joinSurrogates? us).map (c :: ·) := by
  obtain ⟨notHigh, notLow⟩ := not_isSurrogate_toNat c
  cases us with
  | nil => simp [joinSurrogates?, notHigh, notLow, Char.ofNat_toNat]
  | cons u us =>
    simp only [joinSurrogates?, notHigh, notLow, Char.ofNat_toNat, Bool.false_eq_true, if_false]
    cases joinSurrogates? (u :: us) <;> rfl

theorem joinSurrogates?_map_toNat (cs : List Char) : joinSurrogates? (cs.map Char.toNat) = some cs := by
  induction cs with
  | nil => rfl
  | cons c cs ih => rw [List.map_cons, joinSurrogates?_cons, ih, Option.map_some]

theorem unescape?_escape (cs : List Char) : unescape? (escape cs) = some cs := by
  rw [unescape?, units?_escape]
  exact joinSurrogates?_map_toNat cs

theorem text?_ofString (s : String) : (ofString s).text? = some s := by
  rw [ofString, text?, unescape?_escape, Option.map_some, String.ofList_toList]

def IsBody (raw : List Char) : Prop :=
  ∀ tokens seen, LexState.run ⟨tokens, .string seen⟩ raw = some ⟨tokens, .string (raw.reverse ++ seen)⟩

theorem IsBody.append {raw more : List Char} (front : IsBody raw) (back : IsBody more) :
    IsBody (raw ++ more) := by
  intro tokens seen
  rw [LexState.run_append, front, Option.bind_some, back, List.reverse_append, List.append_assoc]

theorem isBody_singleton {c : Char} (plain : IsPlain c) : IsBody [c] := by
  intro tokens seen
  obtain ⟨notQuote, notBackslash, visible⟩ := plain
  simp [LexState.run, LexState.step, notQuote, notBackslash, Nat.not_lt.mpr visible]

theorem isBody_of_isPlain {raw : List Char} (plain : ∀ c ∈ raw, IsPlain c) : IsBody raw := by
  induction raw with
  | nil => exact fun _ _ => rfl
  | cons c raw ih =>
    have back := ih fun d member => plain d (List.mem_cons_of_mem _ member)
    exact .append (isBody_singleton (plain c List.mem_cons_self)) back

theorem isBody_escapeChar (c : Char) : IsBody (escapeChar c) := by
  rcases escapeChar_cases c with ⟨e, form, notLong, short⟩ | ⟨w, x, y, z, form, number⟩ | ⟨form, plain⟩
  · intro tokens seen
    simp [form, LexState.run, LexState.step, notLong, short]
  · intro tokens seen
    have digits : [w, x, y, z].all Text.isHexDigit := by
      unfold Text.hex? at number
      split at number
      next both => exact both.2
      · cases number
    simp only [List.all_cons, Bool.and_eq_true] at digits
    obtain ⟨hw, hx, hy, hz, -⟩ := digits
    simp [form, LexState.run, LexState.step, hw, hx, hy, hz]
  · rw [form]
    exact isBody_singleton plain

theorem isBody_escape (cs : List Char) : IsBody (escape cs) := by
  induction cs with
  | nil => exact fun _ _ => rfl
  | cons c cs ih => exact .append (isBody_escapeChar c) ih

theorem isBody_decimal (n : Nat) : IsBody (Text.decimal n) := by
  refine isBody_of_isPlain fun c member => ?_
  have range := Text.toNat_of_isDigit (Text.isDigit_of_mem_decimal member)
  refine ⟨?_, ?_, by omega⟩
  · rintro rfl
    exact absurd range.1 (by decide)
  · rintro rfl
    exact absurd range.2 (by decide)

end AvbEntity.Json
