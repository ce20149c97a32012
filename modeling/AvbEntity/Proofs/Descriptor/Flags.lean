import AvbEntity.Descriptor.Values
import AvbEntity.Proofs.Json.RoundTrip
import Mathlib.Data.List.Nodup

namespace AvbEntity

open Text

def isFlagChar (c : Char) : Bool := ('A'.toNat ≤ c.toNat && c.toNat ≤ 'Z'.toNat) || c == '_'

class FlagFamily.Legible (family : FlagFamily) : Prop where
  nodup : family.names.Nodup
  words : family.names.all (fun name => !name.toList.isEmpty && name.toList.all isFlagChar) = true

theorem FlagFamily.Legible.word {family : FlagFamily} [legible : family.Legible] {name : String}
    (known : name ∈ family.names) : name.toList ≠ [] ∧ ∀ c ∈ name.toList, isFlagChar c = true := by
  have word := List.all_eq_true.mp legible.words name known
  simp only [Bool.and_eq_true, Bool.not_eq_true', List.isEmpty_eq_false_iff, List.all_eq_true] at word
  exact word

instance : FlagFamily.stream.Legible := ⟨by decide, by decide⟩

instance : FlagFamily.clockSource.Legible := ⟨by decide, by decide⟩

instance : FlagFamily.avbInfo.Legible := ⟨by decide, by decide⟩

namespace FlagSet

structure IsPart (part : List Char) : Prop where
  ne_nil : part ≠ []
  visible : ∀ c ∈ part, isBlank c = false
  noBar : '|' ∉ part

theorem isPart_of_range {part : List Char} (present : part ≠ [])
    (range : ∀ c ∈ part, 48 ≤ c.toNat ∧ c.toNat ≤ 122) : IsPart part where
  ne_nil := present
  visible c member := isBlank_eq_false (by have bounds := range c member; omega)
  noBar member := absurd (range _ member).2 (by decide)

theorem splitAt_bar {part : List Char} (isPart : IsPart part) (rest : List Char) :
    splitAt '|' (part ++ [' ', '|', ' '] ++ rest) = (part ++ [' ']) :: splitAt '|' (' ' :: rest) := by
  have noBar : '|' ∉ part ++ [' '] := by simpa using isPart.noBar
  have regrouped : part ++ [' ', '|', ' '] ++ rest = (part ++ [' ']) ++ '|' :: ' ' :: rest := by simp
  rw [regrouped, splitAt_append_cons noBar]

theorem map_trim_splitAt_blank (cs : List Char) :
    (splitAt '|' (' ' :: cs)).map trim = (splitAt '|' cs).map trim := by
  cases inner : splitAt '|' cs with
  | nil => exact absurd inner (splitAt_ne_nil _ _)
  | cons part rest =>
    have front : splitAt '|' (' ' :: cs) = (' ' :: part) :: rest := by simp [splitAt, inner]
    rw [front, List.map_cons, List.map_cons, trim_cons_blank (by decide)]

theorem map_trim_splitAt_joinWith {parts : List (List Char)} (present : parts ≠ [])
    (arePart : ∀ part ∈ parts, IsPart part) :
    (splitAt '|' (joinWith [' ', '|', ' '] parts)).map trim = parts := by
  induction parts with
  | nil => exact absurd rfl present
  | cons part parts ih =>
    have first := arePart part List.mem_cons_self
    have others : ∀ other ∈ parts, IsPart other := fun other member =>
      arePart other (List.mem_cons_of_mem _ member)
    cases parts with
    | nil =>
      have single : joinWith [' ', '|', ' '] [part] = part := rfl
      rw [single, splitAt_of_not_mem first.noBar, List.map_singleton, trim_eq_self first.visible]
    | cons next parts =>
      have joined : joinWith [' ', '|', ' '] (part :: next :: parts) =
          part ++ [' ', '|', ' '] ++ joinWith [' ', '|', ' '] (next :: parts) := rfl
      -- the blank before the bar stays with this part, the one after it goes to the next part
      rw [joined, splitAt_bar first, List.map_cons, map_trim_splitAt_blank, ih (by simp) others,
        trim_append_blanks first.visible (List.forall_mem_singleton.mpr (by decide))]

theorem trim_cons_ne_nil {c : Char} (visible : isBlank c = false) (cs : List Char) :
    trim (c :: cs) ≠ [] := by
  rw [trim, trimStart_cons visible, trimEnd]
  intro blank
  have allBlank := List.dropWhile_eq_nil_iff.mp (List.reverse_eq_nil_iff.mp blank)
  exact Bool.eq_false_iff.mp visible (allBlank c (by simp))

theorem trim_joinWith_ne_nil {part : List Char} (isPart : IsPart part) (parts : List (List Char)) :
    trim (joinWith [' ', '|', ' '] (part :: parts)) ≠ [] := by
  obtain ⟨c, cs, rfl⟩ := List.exists_cons_of_ne_nil isPart.ne_nil
  have visible := isPart.visible c List.mem_cons_self
  cases parts with
  | nil => exact trim_cons_ne_nil visible cs
  | cons next parts => exact trim_cons_ne_nil visible _

variable {family : FlagFamily}

theorem setNames_eq (s : FlagSet family) (names : List String) (position : Nat) :
    s.setNames names position =
      ((names.zipIdx position).filter fun n => s.bits.getLsbD n.2).map Prod.fst := by
  induction names generalizing position with
  | nil => rfl
  | cons name names ih =>
    rw [setNames, List.zipIdx_cons, List.filter_cons]
    split
    · rw [List.map_cons, ih]
    · rw [ih]

theorem readPart?_name [family.Legible] {n : String × Nat} (member : n ∈ family.names.zipIdx) :
    readPart? n.1.toList = some (single n.2 : FlagSet family) := by
  obtain ⟨name, position⟩ := n
  obtain ⟨bound, found⟩ := List.mem_zipIdx' member
  have letters := (FlagFamily.Legible.word (found ▸ List.getElem_mem bound : name ∈ family.names)).2
  have first : (family.names.findIdx? fun other => other.toList = name.toList) = some position := by
    rw [List.findIdx?_eq_some_iff_getElem]
    refine ⟨bound, decide_eq_true (congrArg String.toList found.symm), fun earlier before same => ?_⟩
    have equal := (String.toList_inj.mp (of_decide_eq_true same)).trans found
    have there := (List.Nodup.getElem_inj_iff FlagFamily.Legible.nodup).mp equal
    omega
  unfold readPart?
  split
  next hex =>
    have letter := letters '0' (hex ▸ List.mem_cons_self)
    exact absurd letter (by decide)
  · rw [first, Option.map_some]

theorem readPart?_hex (bits : BitVec family.width) :
    readPart? ('0' :: 'x' :: hex bits.toNat) = some (⟨bits⟩ : FlagSet family) := by
  have digits := all_isHexDigit_hex bits.toNat
  have unsigned : readPart? ('0' :: 'x' :: hex bits.toNat) = (hex? (hex bits.toNat)).bind fun n =>
      let bits := BitVec.ofNat family.width n
      if bits.toNat = n then some (⟨bits⟩ : FlagSet family) else Option.none := by
    rw [readPart?]
    intro rest plus
    rw [plus] at digits
    exact absurd (List.all_eq_true.mp digits '+' List.mem_cons_self) (by decide)
  rw [unsigned, hex?_hex, Option.bind_some, BitVec.ofNat_toNat, BitVec.setWidth_eq, if_pos rfl]

def namedFlags (s : FlagSet family) : List (String × Nat) :=
  family.names.zipIdx.filter fun n => s.bits.getLsbD n.2

def unnamedBits (s : FlagSet family) : BitVec family.width := s.bits &&& ~~~namedBits family

def parts (s : FlagSet family) : List (List Char) :=
  s.namedFlags.map (·.1.toList) ++
    if s.unnamedBits = 0 then [] else ['0' :: 'x' :: hex s.unnamedBits.toNat]

theorem write_eq_joinWith (s : FlagSet family) : s.write = joinWith [' ', '|', ' '] s.parts := by
  rw [write, setNames_eq, List.map_map]
  rfl

theorem isPart_of_mem_parts [family.Legible] {s : FlagSet family} {part : List Char}
    (member : part ∈ s.parts) : IsPart part := by
  rcases List.mem_append.mp member with member | member
  · obtain ⟨n, named, rfl⟩ := List.mem_map.mp member
    have known : n.1 ∈ family.names := List.fst_mem_of_mem_zipIdx (List.mem_filter.mp named).1
    obtain ⟨present, letters⟩ := FlagFamily.Legible.word known
    refine isPart_of_range present fun c inside => ?_
    have letter := letters c inside
    simp only [isFlagChar, Bool.or_eq_true, Bool.and_eq_true, decide_eq_true_eq, beq_iff_eq] at letter
    rcases letter with capital | rfl
    · have range : 65 ≤ c.toNat ∧ c.toNat ≤ 90 := capital
      omega
    · decide
  · split at member
    · cases member
    · obtain rfl := List.mem_singleton.mp member
      refine isPart_of_range (List.cons_ne_nil _ _) fun c inside => ?_
      rcases List.mem_cons.mp inside with rfl | inside
      · decide
      · rcases List.mem_cons.mp inside with rfl | inside
        · decide
        · have digits := List.all_eq_true.mp (all_isHexDigit_hex s.unnamedBits.toNat)
          have range := toNat_of_isHexDigit (digits c inside)
          omega

def denoted (s : FlagSet family) : List (FlagSet family) :=
  s.namedFlags.map (single ·.2) ++ if s.unnamedBits = 0 then [] else [⟨s.unnamedBits⟩]

theorem mapM_readPart?_parts [family.Legible] (s : FlagSet family) :
    s.parts.mapM readPart? = some s.denoted := by
  have named : (s.namedFlags.map (·.1.toList)).mapM readPart? =
      some (s.namedFlags.map (single ·.2 : String × Nat → FlagSet family)) :=
    Json.mapM_map_eq_some fun n member => readPart?_name (List.mem_filter.mp member).1
  rw [parts, denoted, List.mapM_append, named]
  split
  · rfl
  · simp [readPart?_hex]

theorem getLsbD_foldl_union (sets : List (FlagSet family)) (s : FlagSet family) (i : Nat) :
    (sets.foldl union s).bits.getLsbD i = (s.bits.getLsbD i || sets.any fun t => t.bits.getLsbD i) := by
  induction sets generalizing s with
  | nil => simp
  | cons t sets ih => simp [ih, union, Bool.or_assoc]

theorem getLsbD_namedBits (i : Nat) :
    (namedBits family).getLsbD i = (decide (i < family.width) && decide (i < family.names.length)) := by
  simp [namedBits]

theorem getLsbD_of_mem_denoted {s t : FlagSet family} (member : t ∈ s.denoted) {i : Nat}
    (set : t.bits.getLsbD i = true) : s.bits.getLsbD i = true := by
  rcases List.mem_append.mp member with member | member
  · obtain ⟨n, named, rfl⟩ := List.mem_map.mp member
    have here : s.bits.getLsbD n.2 = true := (List.mem_filter.mp named).2
    simp only [single, BitVec.getLsbD_twoPow, Bool.and_eq_true, decide_eq_true_eq] at set
    exact set.2 ▸ here
  · split at member
    · cases member
    · obtain rfl := List.mem_singleton.mp member
      simp only [unnamedBits, BitVec.getLsbD_and, Bool.and_eq_true] at set
      exact set.1

theorem exists_mem_denoted {s : FlagSet family} {i : Nat} (set : s.bits.getLsbD i = true) :
    ∃ t ∈ s.denoted, t.bits.getLsbD i = true := by
  have bound : i < family.width := BitVec.lt_of_getLsbD set
  by_cases named : i < family.names.length
  · have known : (family.names[i], i) ∈ family.names.zipIdx := by
      simp [List.mk_mem_zipIdx_iff_getElem?, named]
    have flag : (family.names[i], i) ∈ s.namedFlags := List.mem_filter.mpr ⟨known, set⟩
    refine ⟨single i, List.mem_append_left _ (List.mem_map.mpr ⟨_, flag, rfl⟩), ?_⟩
    simp [single, bound]
  · have unnamed : s.unnamedBits.getLsbD i = true := by
      rw [unnamedBits, BitVec.getLsbD_and, BitVec.getLsbD_not, getLsbD_namedBits]
      simp [set, bound, named]
    refine ⟨⟨s.unnamedBits⟩, List.mem_append_right _ ?_, unnamed⟩
    rw [if_neg]
    · exact List.mem_singleton_self _
    · intro zero
      simp [zero] at unnamed

theorem foldl_union_denoted (s : FlagSet family) : s.denoted.foldl union none = s := by
  have bits : (s.denoted.foldl union none).bits = s.bits := by
    apply BitVec.eq_of_getLsbD_eq
    intro i _
    have empty : (none : FlagSet family).bits.getLsbD i = false := by simp [none]
    rw [getLsbD_foldl_union, empty, Bool.false_or, Bool.eq_iff_iff, List.any_eq_true]
    constructor
    · rintro ⟨t, member, set⟩
      exact getLsbD_of_mem_denoted member set
    · exact exists_mem_denoted
  exact congrArg mk bits

theorem read?_write [family.Legible] (s : FlagSet family) : read? s.write = some s := by
  rw [write_eq_joinWith, read?]
  cases found : s.parts with
  | nil =>
    have read := mapM_readPart?_parts s
    rw [found] at read
    have whole := foldl_union_denoted s
    rw [← Option.some.inj read] at whole
    exact congrArg some whole
  | cons part parts =>
    have arePart : ∀ other ∈ part :: parts, IsPart other := fun other member =>
      isPart_of_mem_parts (found ▸ member)
    rw [if_neg]
    · have split := map_trim_splitAt_joinWith (List.cons_ne_nil part parts) arePart
      have read := mapM_readPart?_parts s
      rw [found, ← split, List.mapM_map] at read
      change Option.map _ (List.mapM (readPart? ∘ trim) _) = _
      rw [read, Option.map_some, foldl_union_denoted]
    · simpa using trim_joinWith_ne_nil (arePart part List.mem_cons_self) parts

end FlagSet

end AvbEntity
