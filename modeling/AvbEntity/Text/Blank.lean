namespace AvbEntity.Text

def isBlank (c : Char) : Bool :=
  let n := c.toNat
  (0x09 ≤ n && n ≤ 0x0D) || n == 0x20 || n == 0x85 || n == 0xA0 || n == 0x1680 ||
    (0x2000 ≤ n && n ≤ 0x200A) || n == 0x2028 || n == 0x2029 || n == 0x202F || n == 0x205F ||
    n == 0x3000

def trimStart (cs : List Char) : List Char := cs.dropWhile isBlank

def trimEnd (cs : List Char) : List Char := (cs.reverse.dropWhile isBlank).reverse

def trim (cs : List Char) : List Char := trimEnd (trimStart cs)

def splitAt (separator : Char) : List Char → List (List Char)
  | [] => [[]]
  | c :: cs =>
    let parts := splitAt separator cs
    if c = separator then [] :: parts
    else match parts with
      | part :: rest => (c :: part) :: rest
      | [] => [[c]]

def joinWith (separator : List Char) : List (List Char) → List Char
  | [] => []
  | [part] => part
  | part :: rest => part ++ separator ++ joinWith separator rest

theorem splitAt_ne_nil (separator : Char) (cs : List Char) : splitAt separator cs ≠ [] := by
  cases cs with
  | nil => simp [splitAt]
  | cons c cs =>
    simp only [splitAt]
    split
    · simp
    · split <;> simp

theorem splitAt_of_not_mem {separator : Char} {cs : List Char} (h : separator ∉ cs) :
    splitAt separator cs = [cs] := by
  induction cs with
  | nil => rfl
  | cons c cs ih =>
    have hc : c ≠ separator := fun e => h (e ▸ List.mem_cons_self)
    have hcs : separator ∉ cs := fun m => h (List.mem_cons_of_mem _ m)
    simp [splitAt, hc, ih hcs]

theorem splitAt_append_cons {separator : Char} {cs : List Char} (h : separator ∉ cs)
    (rest : List Char) : splitAt separator (cs ++ separator :: rest) = cs :: splitAt separator rest := by
  induction cs with
  | nil => simp [splitAt]
  | cons c cs ih =>
    have hc : c ≠ separator := fun e => h (e ▸ List.mem_cons_self)
    have hcs : separator ∉ cs := fun m => h (List.mem_cons_of_mem _ m)
    simp [splitAt, hc, ih hcs]

theorem exists_joinWith_cons (separator part : List Char) (parts : List (List Char)) :
    ∃ behind, joinWith separator (part :: parts) = part ++ behind := by
  cases parts with
  | nil => exact ⟨[], (List.append_nil part).symm⟩
  | cons next parts => exact ⟨separator ++ joinWith separator (next :: parts), List.append_assoc ..⟩

theorem forall_mem_joinWith {P : Char → Prop} {separator : List Char} (between : ∀ c ∈ separator, P c)
    {parts : List (List Char)} (each : ∀ part ∈ parts, ∀ c ∈ part, P c) :
    ∀ c ∈ joinWith separator parts, P c := by
  induction parts with
  | nil => exact nofun
  | cons part parts ih =>
    obtain ⟨first, others⟩ := List.forall_mem_cons.mp each
    cases parts with
    | nil => exact first
    | cons next parts =>
      have joined : joinWith separator (part :: next :: parts) =
          part ++ separator ++ joinWith separator (next :: parts) := rfl
      rw [joined, List.forall_mem_append, List.forall_mem_append]
      exact ⟨⟨first, between⟩, ih others⟩

theorem splitAt_joinWith {separator : Char} {parts : List (List Char)} (present : parts ≠ [])
    (apart : ∀ part ∈ parts, separator ∉ part) :
    splitAt separator (joinWith [separator] parts) = parts := by
  induction parts with
  | nil => exact absurd rfl present
  | cons part parts ih =>
    have first := apart part List.mem_cons_self
    cases parts with
    | nil => exact splitAt_of_not_mem first
    | cons next parts =>
      have joined : joinWith [separator] (part :: next :: parts) =
          part ++ separator :: joinWith [separator] (next :: parts) := List.append_assoc ..
      rw [joined, splitAt_append_cons first,
        ih (List.cons_ne_nil _ _) fun other member => apart other (List.mem_cons_of_mem _ member)]

theorem isBlank_eq_false {c : Char} (range : 0x21 ≤ c.toNat ∧ c.toNat ≤ 0x7E) : isBlank c = false := by
  simp only [isBlank, Bool.or_eq_false_iff, Bool.and_eq_false_iff, decide_eq_false_iff_not,
    beq_eq_false_iff_ne]
  omega

theorem trimStart_cons {c : Char} (h : isBlank c = false) (cs : List Char) :
    trimStart (c :: cs) = c :: cs :=
  List.dropWhile_cons_of_neg (by simp [h])

theorem trim_cons_blank {c : Char} (h : isBlank c = true) (cs : List Char) : trim (c :: cs) = trim cs := by
  rw [trim, trimStart, List.dropWhile_cons_of_pos h]
  rfl

theorem dropWhile_isBlank_eq_self {cs : List Char} (h : ∀ c ∈ cs, isBlank c = false) :
    cs.dropWhile isBlank = cs := by
  cases cs with
  | nil => rfl
  | cons c cs => exact List.dropWhile_cons_of_neg (by simp [h c List.mem_cons_self])

theorem trim_append_blanks {cs bs : List Char} (h : ∀ c ∈ cs, isBlank c = false)
    (hb : ∀ b ∈ bs, isBlank b = true) : trim (cs ++ bs) = cs := by
  have ends : trimEnd (cs ++ bs) = cs := by
    rw [trimEnd, List.reverse_append, List.dropWhile_append_of_pos (by simpa using hb),
      dropWhile_isBlank_eq_self (by simpa using h), List.reverse_reverse]
  cases cs with
  | nil =>
    have starts : (bs ++ []).dropWhile isBlank = [] := List.dropWhile_append_of_pos hb
    rw [List.append_nil] at starts
    rw [trim, trimStart, List.nil_append, starts]
    rfl
  | cons c cs =>
    have starts : trimStart (c :: cs ++ bs) = c :: cs ++ bs := trimStart_cons (h c List.mem_cons_self) _
    rw [trim, starts, ends]

theorem trim_eq_self {cs : List Char} (h : ∀ c ∈ cs, isBlank c = false) : trim cs = cs := by
  have trimmed : trim (cs ++ []) = cs := trim_append_blanks h nofun
  rwa [List.append_nil] at trimmed

end AvbEntity.Text
