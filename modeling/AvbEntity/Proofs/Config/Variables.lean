import AvbEntity.Proofs.Config.Environment
import AvbEntity.Text.Digits
import Mathlib.Data.List.TakeWhile

namespace AvbEntity

namespace Variable

def spell (name : String) : List Char := name.toList.map Char.toUpper

def nameOf (path : List String) : String :=
  .ofList (mark ++ Text.joinWith ['_', '_'] (path.map spell))

/-- Whether a name is read back from the name of a variable: two underscores after it are those that end it. -/
structure IsSegment (name : String) : Prop where
  present : spell name ≠ []
  visible : (spell name).all (fun c => !Text.isBlank c && c != '.') = true
  ended : ∀ rest, pointed (spell name ++ '_' :: '_' :: rest) = spell name ++ '.' :: pointed rest
  alone : pointed (spell name) = spell name
  lower : String.ofList ((spell name).map Char.toLower) = name

theorem pointed_joinWith {path : List String} (each : ∀ name ∈ path, IsSegment name) :
    pointed (Text.joinWith ['_', '_'] (path.map spell)) = Text.joinWith ['.'] (path.map spell) := by
  induction path with
  | nil => rfl
  | cons name path ih =>
    obtain ⟨first, others⟩ := List.forall_mem_cons.mp each
    cases path with
    | nil => exact first.alone
    | cons next path =>
      have joined : Text.joinWith ['_', '_'] ((name :: next :: path).map spell) =
          spell name ++ '_' :: '_' :: Text.joinWith ['_', '_'] ((next :: path).map spell) :=
        List.append_assoc ..
      have dotted : Text.joinWith ['.'] ((name :: next :: path).map spell) =
          spell name ++ '.' :: Text.joinWith ['.'] ((next :: path).map spell) := List.append_assoc ..
      rw [joined, first.ended, ih others, dotted]

theorem afterMark?_mark (rest : List Char) : afterMark? (mark ++ rest) = some rest := by
  have upper : mark.map Char.toUpper = mark := by decide
  rw [afterMark?, List.take_left, List.drop_left, if_pos upper]

theorem path?_nameOf {path : List String} (present : path ≠ []) (each : ∀ name ∈ path, IsSegment name)
    (text : String) : path? ⟨nameOf path, text⟩ = some path := by
  have clear : ∀ w ∈ path.map spell, ∀ c ∈ w, Text.isBlank c = false ∧ c ≠ '.' := by
    refine List.forall_mem_map.mpr fun name member c inside => ?_
    simpa using List.all_eq_true.mp (each name member).visible c inside
  have visible : ∀ w ∈ path.map spell, ∀ c ∈ w, Text.isBlank c = false := fun w member c inside =>
    (clear w member c inside).1
  have unpointed : ∀ w ∈ path.map spell, '.' ∉ w := fun w member inside =>
    (clear w member '.' inside).2 rfl
  have trimmed : Text.trim (mark ++ Text.joinWith ['_', '_'] (path.map spell)) =
      mark ++ Text.joinWith ['_', '_'] (path.map spell) := by
    have before : ∀ c ∈ mark, Text.isBlank c = false := by
      have all : mark.all (fun c => !Text.isBlank c) = true := by decide
      simpa using List.all_eq_true.mp all
    have between : ∀ c ∈ ['_', '_'], Text.isBlank c = false :=
      List.forall_mem_cons.mpr ⟨rfl, List.forall_mem_singleton.mpr rfl⟩
    exact Text.trim_eq_self (List.forall_mem_append.mpr ⟨before, Text.forall_mem_joinWith between visible⟩)
  have names := Text.splitAt_joinWith (List.map_eq_nil_iff.not.mpr present) unpointed
  have dotted : Text.trim (Text.joinWith ['.'] (path.map spell)) = Text.joinWith ['.'] (path.map spell) := by
    have between : ∀ c ∈ ['.'], Text.isBlank c = false := List.forall_mem_singleton.mpr rfl
    exact Text.trim_eq_self (Text.forall_mem_joinWith between visible)
  have spelled : (path.map spell).any List.isEmpty = false := by
    rw [List.any_eq_false]
    exact List.forall_mem_map.mpr fun name member empty =>
      (each name member).present (List.isEmpty_iff.mp empty)
  have lowered : ((path.map spell).map fun name => String.ofList (name.map Char.toLower)) = path := by
    rw [List.map_map]
    exact (List.map_congr_left fun name member => (each name member).lower).trans (List.map_id' path)
  rw [path?, nameOf, String.toList_ofList, trimmed, afterMark?_mark, Option.bind_some, pointed_joinWith each,
    dotted, names]
  dsimp only
  rw [if_neg (Bool.eq_false_iff.mp spelled), lowered]

theorem value_of_value? {v : Variable} {w : ConfigValue}
    (read : value? v.text.toList.length v.text.toList = some (w, [])) : v.value = w := by
  simp only [value, read]

/-- A text that begins with a digit is a word, as far as the characters of words go. -/
theorem value?_of_isDigit {c : Char} (digit : c.isDigit = true) (depth : Nat) (cs : List Char) :
    value? depth (c :: cs) =
      some (wordValue (Text.trim ((c :: cs).takeWhile isWordChar)),
        skipBlanks ((c :: cs).dropWhile isWordChar)) := by
  have visible : isBlank c = false := Text.of_isDigit digit (by decide)
  have skipped : skipBlanks (c :: cs) = c :: cs := List.dropWhile_cons_of_neg (by simp [visible])
  unfold value?
  rw [skipped]
  dsimp only
  split
  case h_10 => rfl
  all_goals
    rename_i first
    cases first
    exact absurd digit (by decide)

theorem wordValue_decimal {n : Nat} (small : n < UInt64.size) :
    wordValue (Text.decimal n) = .integer n := by
  have number : number? (Text.decimal n) = some n := by
    rw [number?, if_pos ⟨Text.decimal_ne_nil n, Text.all_isDigit_decimal n⟩, Text.decimal,
      Nat.ofDigitChars_ten_toDigits]
  have unsigned : integer? (Text.decimal n) = some (n : Int) := by
    unfold integer?
    split
    next sign => exact absurd sign (Text.decimal_ne_cons n rfl _)
    next sign => exact absurd sign (Text.decimal_ne_cons n rfl _)
    next => rw [number, Option.bind_some, if_pos small]
  rw [wordValue, unsigned]

theorem value?_decimal (depth n : Nat) (small : n < UInt64.size) :
    value? depth (Text.decimal n) = some (.integer n, []) := by
  have digits : ∀ c ∈ Text.decimal n, c.isDigit = true := fun c => Text.isDigit_of_mem_decimal
  have word : ∀ c ∈ Text.decimal n, isWordChar c = true := fun c member =>
    Text.of_isDigit (digits c member) (by decide)
  have visible : ∀ c ∈ Text.decimal n, Text.isBlank c = false := fun c member =>
    Text.of_isDigit (digits c member) (by decide)
  have whole : (Text.decimal n).takeWhile isWordChar = Text.decimal n := List.takeWhile_eq_self_iff.mpr word
  have nothing : (Text.decimal n).dropWhile isWordChar = [] := List.dropWhile_eq_nil_iff.mpr word
  have number := wordValue_decimal small
  obtain ⟨c, cs, numeral⟩ := List.exists_cons_of_ne_nil (Text.decimal_ne_nil n)
  rw [numeral] at digits whole nothing visible number ⊢
  rw [value?_of_isDigit (digits c List.mem_cons_self), whole, nothing, Text.trim_eq_self visible, number]
  rfl

end Variable

namespace Setting

def all : List Setting := QueryKind.all.flatMap ofKind ++ [cacheEnabled]

theorem mem_all (s : Setting) : s ∈ all := by
  cases s with
  | cacheEnabled => decide
  | maxAttempts k | delayMillis k | backoff k | maxDelayMillis k => cases k <;> decide

theorem nodup_all : all.Nodup := by decide

def variableName (s : Setting) : String := Variable.nameOf s.path

def variableText : (s : Setting) → s.Value → String
  | maxAttempts _, n => .ofList (Text.decimal n.toNat)
  | delayMillis _, n => .ofList (Text.decimal n.toNat)
  | backoff _, m => m.name
  | maxDelayMillis _, n => .ofList (Text.decimal n.toNat)
  | cacheEnabled, b => if b then "true" else "false"

def variableOf (s : Setting) (x : s.Value) : Variable := ⟨s.variableName, s.variableText x⟩

theorem isSegment_of_mem_path (s : Setting) : ∀ name ∈ s.path, Variable.IsSegment name := by
  have headers : ∀ name ∈ ["retries", "cache"], Variable.IsSegment name := by
    rw [List.forall_mem_cons, List.forall_mem_singleton]
    constructor <;> exact ⟨by decide, by decide, fun _ => rfl, rfl, by decide⟩
  have kinds : ∀ k : QueryKind, Variable.IsSegment k.configName := by
    intro k
    cases k <;> exact ⟨by decide, by decide, fun _ => rfl, rfl, by decide⟩
  have names : ∀ name ∈ ["max_attempts", "delay_ms", "backoff", "max_delay_ms", "enabled"],
      Variable.IsSegment name := by
    simp only [List.forall_mem_cons, List.not_mem_nil, false_implies, implies_true, and_true]
    refine ⟨?_, ?_, ?_, ?_, ?_⟩ <;> exact ⟨by decide, by decide, fun _ => rfl, rfl, by decide⟩
  rw [path, List.forall_mem_append, List.forall_mem_singleton]
  refine ⟨?_, names _ s.name_cases⟩
  cases s with
  | cacheEnabled => exact List.forall_mem_singleton.mpr (headers "cache" (by decide))
  | maxAttempts k | delayMillis k | backoff k | maxDelayMillis k =>
    exact List.forall_mem_cons.mpr ⟨headers "retries" (by decide), List.forall_mem_singleton.mpr (kinds k)⟩

theorem path?_variableOf (s : Setting) (x : s.Value) : (s.variableOf x).path? = some s.path :=
  Variable.path?_nameOf (by cases s <;> exact List.cons_ne_nil _ _) s.isSegment_of_mem_path _

theorem value_variableOf (s : Setting) (x : s.Value) : (s.variableOf x).value = s.toValue x := by
  have numeral : ∀ s n, n < UInt64.size →
      (⟨s, .ofList (Text.decimal n)⟩ : Variable).value = .integer n := by
    intro s n small
    apply Variable.value_of_value?
    rw [String.toList_ofList, Variable.value?_decimal _ n small]
  have mode : ∀ s (m : BackoffMode), (⟨s, m.name⟩ : Variable).value = .text m.name := by
    intro s m
    apply Variable.value_of_value?
    have word : Variable.value? m.name.toList.length m.name.toList =
        some (.text (String.ofList m.name.toList), []) := by cases m <;> rfl
    rw [word, String.ofList_toList]
  cases s with
  | cacheEnabled => cases x <;> rfl
  | backoff k => exact mode _ x
  | maxAttempts k => exact numeral _ _ (Nat.lt_trans x.toNat_lt (by decide))
  | delayMillis k => exact numeral _ _ x.toNat_lt
  | maxDelayMillis k => exact numeral _ _ x.toNat_lt

end Setting

namespace Given

variable (g : Given)

def environment : List Variable := Setting.all.filterMap fun s => (g s).map s.variableOf

theorem withPath_variables {ss : List Setting} (once : ss.Nodup) (s : Setting) :
    Variable.withPath s.path (ss.filterMap fun t => (g t).map t.variableOf) =
      if s ∈ ss then ((g s).map s.variableOf).toList else [] := by
  induction ss with
  | nil => rfl
  | cons t ss ih =>
    obtain ⟨fresh, once⟩ := List.nodup_cons.mp once
    have rest := ih once
    rw [List.filterMap_cons]
    by_cases same : t = s
    · subst same
      rw [if_neg fresh] at rest
      rw [if_pos List.mem_cons_self]
      cases g t with
      | none => exact rest
      | some x =>
        exact (Variable.withPath_cons_self (t.path?_variableOf x) _).trans
          (congrArg (t.variableOf x :: ·) rest)
    · have later : s ∈ t :: ss ↔ s ∈ ss := List.mem_cons.trans (or_iff_right (Ne.symm same))
      rw [if_congr later rfl rfl]
      cases g t with
      | none => exact rest
      | some x =>
        have elsewhere : (t.variableOf x).path? ≠ some s.path := by
          rw [t.path?_variableOf x]
          exact fun paths => same (Setting.eq_of_path_isPrefix (Option.some.inj paths ▸ List.prefix_rfl))
        exact (Variable.withPath_cons_ne elsewhere _).trans rest

/-- Whatever settings are to be given, there are variables that give them. -/
theorem environmentGives_environment : EnvironmentGives g.environment g := by
  constructor
  · intro s v member path named meets
    obtain ⟨t, -, given⟩ := List.mem_filterMap.mp member
    obtain ⟨x, -, rfl⟩ := Option.map_eq_some_iff.mp given
    cases (t.path?_variableOf x).symm.trans named
    rcases meets with front | front
    · rw [Setting.eq_of_path_isPrefix front]
    · rw [Setting.eq_of_path_isPrefix front]
  · intro s
    rw [environment, g.withPath_variables Setting.nodup_all, if_pos s.mem_all]
    cases g s with
    | none => rfl
    | some x => exact congrArg some (s.value_variableOf x)

end Given

end AvbEntity
