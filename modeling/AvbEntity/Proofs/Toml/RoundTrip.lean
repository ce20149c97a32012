import AvbEntity.Toml.Document
import AvbEntity.Toml.Writer
import Mathlib.Data.List.TakeWhile

namespace AvbEntity

section Words

variable {p : Char → Bool} {word : List Char} {c : Char}

theorem takeWhile_word (all : ∀ a ∈ word, p a = true) (stop : p c = false) (rest : List Char) :
    (word ++ c :: rest).takeWhile p = word := by
  rw [List.takeWhile_append_of_pos all, List.takeWhile_cons_of_neg (by simp [stop]), List.append_nil]

theorem dropWhile_word (all : ∀ a ∈ word, p a = true) (stop : p c = false) (rest : List Char) :
    (word ++ c :: rest).dropWhile p = c :: rest := by
  rw [List.dropWhile_append_of_pos all, List.dropWhile_cons_of_neg (by simp [stop])]

end Words

/-- Items with separators between them are read one by one, and after the last one what stands behind it. -/
theorem Text.itemsBy?_joinWith {α : Type} {separator c : Char} (other : c ≠ separator)
    {item? : List Char → Option (α × List Char)} {write : α → List Char} {as : List α}
    {behind rest : List Char}
    (each : ∀ a ∈ as, ∀ rest, item? (write a ++ separator :: rest) = some (a, separator :: rest))
    (last : ∀ a ∈ as, item? (write a ++ behind) = some (a, c :: rest)) (present : as ≠ []) :
    itemsBy? separator item? (joinWith [separator] (as.map write) ++ behind) = some (as, c :: rest) := by
  induction as with
  | nil => exact absurd rfl present
  | cons a as ih =>
    obtain ⟨first, others⟩ := List.forall_mem_cons.mp each
    obtain ⟨final, ends⟩ := List.forall_mem_cons.mp last
    cases as with
    | nil =>
      show itemsBy? separator item? (write a ++ behind) = _
      rw [itemsBy?, final]
      exact if_neg other
    | cons b as =>
      have read := ih others ends nofun
      have text : joinWith [separator] ((a :: b :: as).map write) ++ behind =
          write a ++ separator :: (joinWith [separator] ((b :: as).map write) ++ behind) := by
        simp [joinWith]
      have shorter : (joinWith [separator] ((b :: as).map write) ++ behind).length <
          (write a ++ separator :: (joinWith [separator] ((b :: as).map write) ++ behind)).length := by
        simp only [List.length_append, List.length_cons]
        omega
      rw [text, itemsBy?, first]
      show (if separator = separator then _ else _) = _
      rw [if_pos rfl, if_pos shorter, read]
      rfl

namespace Toml

def isBare (s : String) : Bool := !s.toList.isEmpty && s.toList.all isNameChar

theorem ne_of_isNameChar {c d : Char} (name : isNameChar c = true) (other : isNameChar d = false) : c ≠ d :=
  fun same => Bool.false_ne_true (other.symm.trans (same ▸ name))

theorem isBlank_of_isNameChar {c : Char} (name : isNameChar c = true) : isBlank c = false := by
  have space : c ≠ ' ' := ne_of_isNameChar name rfl
  have tab : c ≠ '\t' := ne_of_isNameChar name rfl
  simp [isBlank, space, tab]

theorem skipBlanks_cons {c : Char} (visible : isBlank c = false) (cs : List Char) :
    skipBlanks (c :: cs) = c :: cs :=
  List.dropWhile_cons_of_neg (by simp [visible])

section Names

variable {s : String}

theorem isNameChar_of_isBare (bare : isBare s = true) : ∀ c ∈ s.toList, isNameChar c = true := by
  simp only [isBare, Bool.and_eq_true, List.all_eq_true] at bare
  exact bare.2

theorem exists_cons_of_isBare (bare : isBare s = true) :
    ∃ c cs, s.toList = c :: cs ∧ isNameChar c = true := by
  have all := isNameChar_of_isBare bare
  cases chars : s.toList with
  | nil => simp [isBare, chars] at bare
  | cons c cs => exact ⟨c, cs, rfl, all c (chars ▸ List.mem_cons_self)⟩

theorem name?_word (bare : isBare s = true) {c : Char} (stop : isNameChar c = false) (rest : List Char) :
    name? (s.toList ++ c :: rest) = some (s, c :: rest) := by
  have all := isNameChar_of_isBare bare
  have word := takeWhile_word all stop rest
  have left := dropWhile_word all stop rest
  obtain ⟨d, ds, chars, named⟩ := exists_cons_of_isBare bare
  have nonempty : s.toList.isEmpty = false := by rw [chars]; rfl
  unfold name?
  split
  next quote =>
    rw [chars] at quote
    exact absurd (List.cons.inj quote).1 (ne_of_isNameChar named rfl)
  next quote =>
    rw [chars] at quote
    exact absurd (List.cons.inj quote).1 (ne_of_isNameChar named rfl)
  next => simp [word, left, nonempty]

theorem spacedName?_word (bare : isBare s = true) {c : Char} (stop : isNameChar c = false)
    (rest : List Char) : spacedName? (s.toList ++ c :: rest) = some (s, skipBlanks (c :: rest)) := by
  obtain ⟨d, ds, chars, named⟩ := exists_cons_of_isBare bare
  have unspaced : skipBlanks (s.toList ++ c :: rest) = s.toList ++ c :: rest := by
    rw [chars]
    exact skipBlanks_cons (isBlank_of_isNameChar named) _
  rw [spacedName?, unspaced, name?_word bare stop, Option.map_some]

end Names

def keyOf (names : List String) : KeyPath := ⟨names.dropLast, names.getLast?.getD ""⟩

theorem key?_joinWith {names : List String} (bare : ∀ name ∈ names, isBare name = true)
    (present : names ≠ []) (short : names.length ≤ maxDepth) {d c : Char} (stop : isNameChar d = false)
    {behind rest : List Char} (left : skipBlanks (d :: behind) = c :: rest) (other : c ≠ '.') :
    key? (Text.joinWith ['.'] (names.map String.toList) ++ d :: behind) = some (keyOf names, c :: rest) := by
  have each : ∀ name ∈ names, ∀ rest,
      spacedName? (name.toList ++ '.' :: rest) = some (name, '.' :: rest) :=
    fun name member rest => spacedName?_word (bare name member) rfl rest
  have last : ∀ name ∈ names, spacedName? (name.toList ++ d :: behind) = some (name, c :: rest) :=
    fun name member => left ▸ spacedName?_word (bare name member) stop behind
  obtain ⟨name, final⟩ : ∃ name, names.getLast? = some name :=
    ⟨_, List.getLast?_eq_some_getLast present⟩
  rw [key?, Text.itemsBy?_joinWith other each last present]
  show (if names.length ≤ maxDepth then _ else _) = _
  rw [if_pos short, keyOf, final]
  rfl

def Plain.isLegible : Plain → Bool
  | word s => isBare s
  | v => v.fits

def Plain.toValue : Plain → ConfigValue
  | bool b => .bool b
  | integer n => .integer n
  | word s => .text s

theorem isPlain_of_isNameChar {c : Char} (name : isNameChar c = true) : Text.isPlain c = true := by
  have controls : ∀ n < 0x20, isNameChar (Char.ofNat n) = false := by decide
  have delete : isNameChar (Char.ofNat 0x7F) = false := by decide
  have visible : 0x20 ≤ c.toNat := by
    by_contra below
    have control := controls c.toNat (by omega)
    rw [Char.ofNat_toNat, name] at control
    cases control
  have kept : c.toNat ≠ 0x7F := by
    intro same
    rw [← same, Char.ofNat_toNat, name] at delete
    cases delete
  simp [Text.isPlain, visible, kept]

theorem quoted?_word {word : List Char} (all : ∀ c ∈ word, isNameChar c = true) (rest : List Char) :
    Text.quoted? (word ++ '"' :: rest) = some (word, rest) := by
  induction word with
  | nil => rfl
  | cons c word ih =>
    obtain ⟨named, others⟩ := List.forall_mem_cons.mp all
    have quote : c ≠ '"' := ne_of_isNameChar named rfl
    have escape : c ≠ '\\' := ne_of_isNameChar named rfl
    rw [List.cons_append, Text.quoted?.eq_def]
    split
    next nothing => cases nothing
    next same => exact absurd (List.cons.inj same).1 quote
    next same => exact absurd (List.cons.inj same).1 escape
    next same => exact absurd (List.cons.inj same).1 escape
    next same => exact absurd (List.cons.inj same).1 escape
    next same =>
      cases same
      rw [if_pos (isPlain_of_isNameChar named), ih others]
      rfl

theorem string?_word {s : String} (bare : isBare s = true) (rest : List Char) :
    string? ('"' :: (s.toList ++ '"' :: rest)) = some (s.toList, rest) := by
  have read := quoted?_word (isNameChar_of_isBare bare) rest
  obtain ⟨c, cs, chars, named⟩ := exists_cons_of_isBare bare
  have quote : c ≠ '"' := ne_of_isNameChar named rfl
  have single : ∀ tail, string? ('"' :: c :: tail) = Text.quoted? (c :: tail) := by
    intro tail
    unfold string?
    split <;> simp_all
  rw [chars] at read ⊢
  exact (single _).trans read

theorem digits?_of_isDigit {cs : List Char} (digits : ∀ c ∈ cs, c.isDigit = true) (present : cs ≠ []) :
    digits? Char.isDigit cs = some cs := by
  fun_induction digits? Char.isDigit cs with
  | case1 => exact absurd rfl present
  | case2 c digit => rfl
  | case3 c other => exact absurd (digits c List.mem_cons_self) other
  | case4 c rest digit => exact absurd (digits '_' (by simp)) (by decide)
  | case5 c rest other => exact absurd (digits c List.mem_cons_self) other
  | case6 c rest more unmarked digit ih =>
    have later := ih (List.forall_mem_cons.mp digits).2 more
    rw [later, Option.map_some]
  | case7 c rest more unmarked other => exact absurd (digits c List.mem_cons_self) other

theorem fitted?_natCast {n : Nat} (small : n < integerBound) : fitted? (n : Int) = some (n : Int) := by
  have between : -(integerBound : Int) ≤ n ∧ (n : Int) < integerBound := by
    generalize integerBound = bound at small ⊢
    omega
  rw [fitted?, if_pos between]

theorem integer?_decimal {n : Nat} (small : n < integerBound) : integer? (Text.decimal n) = some (n : Int) := by
  have digits : ∀ c ∈ Text.decimal n, c.isDigit = true := fun _ => Text.isDigit_of_mem_decimal
  have whole : wholeDigits? (Text.decimal n) = some (Text.decimal n) := by
    rw [wholeDigits?, digits?_of_isDigit digits (Text.decimal_ne_nil n), Option.bind_some,
      if_pos (Text.isDecimal_decimal n)]
  have unsigned : signed (Text.decimal n) = (false, Text.decimal n) := by
    unfold signed
    split
    next sign => exact absurd sign (Text.decimal_ne_cons n rfl _)
    next sign => exact absurd sign (Text.decimal_ne_cons n rfl _)
    next => rfl
  have number : ((Nat.ofDigitChars 10 (Text.decimal n) 0 : Nat) : Int) = n := by
    rw [Text.decimal, Nat.ofDigitChars_ten_toDigits]
  unfold integer?
  split
  next mark => exact absurd (digits 'x' (mark ▸ by simp)) (by decide)
  next mark => exact absurd (digits 'o' (mark ▸ by simp)) (by decide)
  next mark => exact absurd (digits 'b' (mark ▸ by simp)) (by decide)
  next =>
    rw [unsigned]
    dsimp only
    rw [whole, Option.bind_some, if_neg Bool.false_ne_true, number, fitted?_natCast small]

theorem literalValue?_decimal {n : Nat} (small : n < integerBound) :
    literalValue? (Text.decimal n) = some (.integer n) := by
  have notTrue : Text.decimal n ≠ ['t', 'r', 'u', 'e'] := Text.decimal_ne_cons n rfl _
  have notFalse : Text.decimal n ≠ ['f', 'a', 'l', 's', 'e'] := Text.decimal_ne_cons n rfl _
  rw [literalValue?, if_neg notTrue, if_neg notFalse, integer?_decimal small]

section Numeral

variable {cs rest : List Char} (left : cs.dropWhile Char.isDigit = '\n' :: rest)

include left

theorem afterDate?_eq_none : afterDate? cs = none := by
  unfold afterDate?
  split
  next a b c d e f g h behind =>
    refine if_neg fun date => ?_
    simp only [isDate, List.all_append, List.all_cons, List.all_nil, Bool.and_true, Bool.and_eq_true] at date
    obtain ⟨⟨⟨⟨first, second, third, fourth⟩, -⟩, -⟩, -⟩ := date
    have dash : ('-' : Char).isDigit = false := rfl
    simp [first, second, third, fourth, dash] at left
  next => rfl

theorem afterMinutes?_eq_none : afterMinutes? cs = none := by
  unfold afterMinutes?
  split
  next a b c d behind =>
    refine if_neg fun time => ?_
    simp only [isBelow, List.all_cons, List.all_nil, Bool.and_true, Bool.and_eq_true] at time
    obtain ⟨⟨⟨first, second⟩, -⟩, -⟩ := time
    have colon : (':' : Char).isDigit = false := rfl
    simp [first, second, colon] at left
  next => rfl

/-- A numeral at the end of a line is no date-time: no dash and no colon follows its digits. -/
theorem dateTime?_eq_none : dateTime? cs = none := by
  rw [dateTime?, afterDateTime?, afterDate?_eq_none left]
  dsimp only
  rw [afterTime?, afterMinutes?_eq_none left]
  rfl

end Numeral

theorem scalar?_render {v : Plain} (legible : v.isLegible = true) (rest : List Char) :
    scalar? (v.render ++ '\n' :: rest) = some (v.toValue, '\n' :: rest) := by
  cases v with
  | bool b => cases b <;> rfl
  | integer n =>
    have digits : ∀ c ∈ Text.decimal n, c.isDigit = true := fun _ => Text.isDigit_of_mem_decimal
    have literal : ∀ c ∈ Text.decimal n, isLiteralChar c = true := fun c member =>
      Text.of_isDigit (digits c member) (by decide)
    have moment : dateTime? (Text.decimal n ++ '\n' :: rest) = none :=
      dateTime?_eq_none (dropWhile_word digits rfl rest)
    have value : literalValue? (Text.decimal n) = some (.integer n) :=
      literalValue?_decimal (of_decide_eq_true legible)
    have first : ∀ c tail, Text.decimal n ++ '\n' :: rest = c :: tail → c.isDigit = true := by
      intro c tail same
      obtain ⟨d, ds, numeral⟩ := List.exists_cons_of_ne_nil (Text.decimal_ne_nil n)
      rw [numeral] at same digits
      exact (List.cons.inj same).1 ▸ digits d List.mem_cons_self
    rw [Plain.render]
    unfold scalar?
    split
    next quote => exact absurd (first _ _ quote) (by decide)
    next quote => exact absurd (first _ _ quote) (by decide)
    next =>
      rw [moment, takeWhile_word literal rfl, dropWhile_word literal rfl, value]
      rfl
  | word s =>
    have text : (Plain.word s).render ++ '\n' :: rest = '"' :: (s.toList ++ '"' :: '\n' :: rest) := by
      simp [Plain.render]
    rw [text, scalar?, string?_word legible, Option.map_some]
    dsimp only
    rw [String.ofList_toList, Plain.toValue]

theorem exists_cons_render (v : Plain) :
    ∃ c cs, v.render = c :: cs ∧ c ≠ '[' ∧ c ≠ '\x7b' ∧ isBlank c = false := by
  cases v with
  | bool b => cases b <;> exact ⟨_, _, rfl, by decide, by decide, rfl⟩
  | integer n =>
    obtain ⟨c, cs, numeral⟩ := List.exists_cons_of_ne_nil (Text.decimal_ne_nil n)
    have digit : c.isDigit = true := Text.isDigit_of_mem_decimal (numeral ▸ List.mem_cons_self)
    have other : c ≠ '[' ∧ c ≠ '\x7b' ∧ isBlank c = false := Text.of_isDigit digit (by decide)
    exact ⟨c, cs, numeral, other⟩
  | word s => exact ⟨_, _, rfl, by decide, by decide, rfl⟩

theorem value?_render {v : Plain} (legible : v.isLegible = true) (depth : Nat) (rest : List Char) :
    value? depth (v.render ++ '\n' :: rest) = some (v.toValue, '\n' :: rest) := by
  have scalar := scalar?_render legible rest
  obtain ⟨c, cs, text, list, table, -⟩ := exists_cons_render v
  rw [text] at scalar ⊢
  cases depth with
  | zero => exact scalar
  | succ depth =>
    unfold value?
    split
    next nothing => cases nothing
    next same => exact absurd (List.cons.inj same).1 list
    next same => exact absurd (List.cons.inj same).1 table
    next => exact scalar

def Section.statements (s : Section) : List Statement :=
  .table (keyOf s.header) :: s.entries.map fun e => .assign ⟨[], e.1⟩ e.2.toValue

structure Section.Legible (s : Section) : Prop where
  headed : s.header ≠ []
  short : s.header.length ≤ maxDepth
  names : ∀ name ∈ s.header, isBare name = true
  entries : ∀ e ∈ s.entries, isBare e.1 = true ∧ e.2.isLegible = true

theorem endLine?_newline (rest : List Char) : endLine? ('\n' :: rest) = some rest := rfl

theorem assignment?_entry {e : String × Plain} (bare : isBare e.1 = true) (legible : e.2.isLegible = true)
    (rest : List Char) :
    assignment? (value? maxDepth) (renderEntry e ++ rest) =
      some ((⟨[], e.1⟩, e.2.toValue), '\n' :: rest) := by
  have text : renderEntry e ++ rest =
      Text.joinWith ['.'] ([e.1].map String.toList) ++ ' ' :: '=' :: ' ' :: (e.2.render ++ '\n' :: rest) := by
    simp [renderEntry, Text.joinWith]
  have key := key?_joinWith (List.forall_mem_singleton.mpr bare) (List.cons_ne_nil _ _)
    (by decide : 1 ≤ maxDepth)
    (rfl : isNameChar ' ' = false) (rfl : skipBlanks (' ' :: '=' :: ' ' :: (e.2.render ++ '\n' :: rest)) = _)
    (by decide : '=' ≠ '.')
  have value : value? maxDepth (skipBlanks (' ' :: (e.2.render ++ '\n' :: rest))) =
      some (e.2.toValue, '\n' :: rest) := by
    have read := value?_render legible maxDepth rest
    obtain ⟨c, cs, chars, -, -, visible⟩ := exists_cons_render e.2
    rw [chars] at read ⊢
    have skipped : skipBlanks (' ' :: (c :: cs ++ '\n' :: rest)) = c :: cs ++ '\n' :: rest :=
      skipBlanks_cons visible _
    rw [skipped, read]
  rw [text, assignment?, key]
  show (value? maxDepth (skipBlanks (' ' :: (e.2.render ++ '\n' :: rest)))).bind _ = _
  rw [value]
  rfl

theorem statement?_entry {e : String × Plain} (bare : isBare e.1 = true) (legible : e.2.isLegible = true)
    (rest : List Char) :
    statement? (renderEntry e ++ rest) = some (.assign ⟨[], e.1⟩ e.2.toValue, rest) := by
  have assignment := assignment?_entry bare legible rest
  obtain ⟨c, cs, chars, named⟩ := exists_cons_of_isBare bare
  have bracket : c ≠ '[' := ne_of_isNameChar named rfl
  rw [renderEntry, chars] at assignment ⊢
  unfold statement?
  split
  next same => exact absurd (List.cons.inj same).1 bracket
  next same => exact absurd (List.cons.inj same).1 bracket
  next =>
    rw [assignment]
    rfl

theorem statement?_header {names : List String} (bare : ∀ name ∈ names, isBare name = true)
    (present : names ≠ []) (short : names.length ≤ maxDepth) (rest : List Char) :
    statement? ('[' :: (Text.joinWith ['.'] (names.map String.toList) ++ ']' :: '\n' :: rest)) =
      some (.table (keyOf names), rest) := by
  have key := key?_joinWith bare present short (rfl : isNameChar ']' = false)
    (rfl : skipBlanks (']' :: '\n' :: rest) = _) (by decide : ']' ≠ '.')
  have single : ∀ tail,
      Text.joinWith ['.'] (names.map String.toList) ++ ']' :: '\n' :: rest ≠ '[' :: tail := by
    intro tail same
    obtain ⟨name, names, rfl⟩ := List.exists_cons_of_ne_nil present
    obtain ⟨c, cs, chars, named⟩ := exists_cons_of_isBare (bare name List.mem_cons_self)
    obtain ⟨behind, joined⟩ := Text.exists_joinWith_cons ['.'] name.toList (names.map String.toList)
    rw [List.map_cons, joined, chars] at same
    exact ne_of_isNameChar named rfl (List.cons.inj same).1
  unfold statement?
  split
  next same => exact absurd (List.cons.inj same).2 (single _)
  next same =>
    cases same
    rw [key]
    rfl
  next other => exact absurd rfl (other _ : ¬ _)

def beginsStatement (c : Char) : Bool := isNameChar c || c == '['

theorem endLine?_eq_none {c : Char} (begins : beginsStatement c = true) (cs : List Char) :
    skipBlanks (c :: cs) = c :: cs ∧ endLine? (c :: cs) = none := by
  have other : ∀ d, beginsStatement d = false → c ≠ d := fun d ends same =>
    Bool.false_ne_true (ends.symm.trans (same ▸ begins))
  have space : c ≠ ' ' := other _ rfl
  have tab : c ≠ '\t' := other _ rfl
  have hash : c ≠ '#' := other _ rfl
  have newline : c ≠ '\n' := other _ rfl
  have carriage : c ≠ '\x0d' := other _ rfl
  have unspaced : skipBlanks (c :: cs) = c :: cs := skipBlanks_cons (by simp [isBlank, space, tab]) cs
  have comment : skipComment (c :: cs) = c :: cs := by
    unfold skipComment
    split
    next same => exact absurd (List.cons.inj same).1 hash
    next => rfl
  refine ⟨unspaced, ?_⟩
  rw [endLine?, unspaced, comment]
  unfold afterLineEnd?
  split
  next nothing => cases nothing
  next same => exact absurd (List.cons.inj same).1 newline
  next same => exact absurd (List.cons.inj same).1 carriage
  next => rfl

theorem statements?_line {cs rest : List Char} {s : Statement}
    (begins : ∃ c, cs.head? = some c ∧ beginsStatement c = true)
    (read : statement? cs = some (s, rest)) (shorter : rest.length < cs.length) :
    statements? cs = (statements? rest).map (s :: ·) := by
  obtain ⟨c, head, begins⟩ := begins
  obtain ⟨tail, rfl⟩ := List.head?_eq_some_iff.mp head
  obtain ⟨unspaced, present⟩ := endLine?_eq_none begins tail
  rw [statements?, List.isEmpty_cons, if_neg Bool.false_ne_true, present]
  dsimp only
  rw [unspaced, read]
  dsimp only
  rw [if_pos shorter]

theorem statements?_newline (rest : List Char) : statements? ('\n' :: rest) = statements? rest := by
  have shorter : rest.length < ('\n' :: rest).length := Nat.lt_succ_self _
  rw [statements?, List.isEmpty_cons, if_neg Bool.false_ne_true, endLine?_newline]
  dsimp only
  rw [if_pos shorter]

theorem statements?_entries {entries : List (String × Plain)}
    (legible : ∀ e ∈ entries, isBare e.1 = true ∧ e.2.isLegible = true) (rest : List Char) :
    statements? (entries.flatMap renderEntry ++ rest) =
      (statements? rest).map ((entries.map fun e => .assign ⟨[], e.1⟩ e.2.toValue) ++ ·) := by
  induction entries with
  | nil => exact Option.map_id'.symm
  | cons e entries ih =>
    obtain ⟨⟨bare, value⟩, others⟩ := List.forall_mem_cons.mp legible
    have begins : ∃ c, (renderEntry e ++ (entries.flatMap renderEntry ++ rest)).head? = some c ∧
        beginsStatement c = true := by
      obtain ⟨c, cs, chars, named⟩ := exists_cons_of_isBare bare
      exact ⟨c, by simp [renderEntry, chars], by simp [beginsStatement, named]⟩
    have shorter : (entries.flatMap renderEntry ++ rest).length <
        (renderEntry e ++ (entries.flatMap renderEntry ++ rest)).length := by
      simp [renderEntry]
      omega
    rw [List.flatMap_cons, List.append_assoc, statements?_line begins (statement?_entry bare value _) shorter,
      ih others, Option.map_map]
    rfl

theorem statements?_section {s : Section} (legible : s.Legible) (rest : List Char) :
    statements? (s.render ++ rest) = (statements? rest).map (s.statements ++ ·) := by
  have text : s.render ++ rest = '[' :: (Text.joinWith ['.'] (s.header.map String.toList) ++
      ']' :: '\n' :: (s.entries.flatMap renderEntry ++ rest)) := by
    simp [Section.render]
  have header := statement?_header legible.names legible.headed legible.short
    (s.entries.flatMap renderEntry ++ rest)
  have shorter : (s.entries.flatMap renderEntry ++ rest).length < (s.render ++ rest).length := by
    simp [text]
    omega
  rw [text] at shorter ⊢
  rw [statements?_line ⟨_, rfl, rfl⟩ header shorter, statements?_entries legible.entries, Option.map_map]
  rfl

theorem statements?_render {sections : List Section} (legible : ∀ s ∈ sections, s.Legible) :
    statements? (Text.joinWith ['\n'] (sections.map Section.render)) =
      some (sections.flatMap Section.statements) := by
  have nothing : statements? [] = some [] := by
    rw [statements?]
    rfl
  induction sections with
  | nil => exact nothing
  | cons s sections ih =>
    obtain ⟨first, others⟩ := List.forall_mem_cons.mp legible
    cases sections with
    | nil =>
      have single := statements?_section first []
      rw [List.append_nil, nothing] at single
      exact single
    | cons t sections =>
      have text : Text.joinWith ['\n'] ((s :: t :: sections).map Section.render) =
          s.render ++ '\n' :: Text.joinWith ['\n'] ((t :: sections).map Section.render) :=
        List.append_assoc ..
      rw [text, statements?_section first, statements?_newline, ih others]
      rfl

end Toml

end AvbEntity
