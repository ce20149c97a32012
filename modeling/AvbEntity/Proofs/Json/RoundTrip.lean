import AvbEntity.Json.Form
import AvbEntity.Proofs.Json.Text
import Mathlib.Data.List.TakeWhile

namespace AvbEntity.Json

structure Survives {α : Type} [Encode α] [Decode α] (a : α) : Prop where
  decode : decode? (encode a) = some a
  well : WellWritten (encode a)

class Faithful (α : Type) [Encode α] [Decode α] : Prop where
  survives : ∀ a : α, Survives a

class NeverNull (α : Type) [Encode α] : Prop where
  ne_null : ∀ a : α, encode a ≠ .null

theorem Survives.map {α β : Type} [Encode α] [Decode α] [Encode β] [Decode β] {a : α} {b : β}
    (survives : Survives a) (wrap : α → β) (written : encode b = encode a)
    (read : (decode? (encode a) : Option β) = (decode? (encode a)).map wrap) (wrapped : wrap a = b) :
    Survives b where
  decode := by rw [written, read, survives.decode, Option.map_some, wrapped]
  well := written ▸ survives.well

theorem ofText?_bind_decode? {α : Type} [Encode α] [Decode α] {a : α} (survives : Survives a) :
    ofText? (encode a).pretty >>= decode? = some a := by
  rw [ofText?_pretty survives.well, Option.bind_eq_bind, Option.bind_some, survives.decode]

instance : Faithful Unit := ⟨fun _ => ⟨rfl, .null⟩⟩

instance : Faithful Bool := ⟨fun b => ⟨rfl, .bool b⟩⟩

instance : NeverNull Bool := ⟨fun _ => nofun⟩

theorem wellWritten_ofString (s : String) : WellWritten (ofString s) := .string (isBody_escape s.toList)

instance : Faithful String := ⟨fun s => ⟨text?_ofString s, wellWritten_ofString s⟩⟩

theorem survives_of_text {α : Type} [Encode α] [Decode α] {a : α} {cs : List Char}
    {read? : List Char → Option α} (written : encode a = ofString (String.ofList cs))
    (read : decode? (encode a) = (encode a).text?.bind fun s => read? s.toList)
    (back : read? cs = some a) : Survives a where
  decode := by rw [read, written, text?_ofString, Option.bind_some, String.toList_ofList, back]
  well := written ▸ wellWritten_ofString _

theorem takeWhile_decimal (n : Nat) :
    (Text.decimal n).takeWhile Char.isDigit = Text.decimal n ∧
      (Text.decimal n).dropWhile Char.isDigit = [] := by
  have digits : ∀ c ∈ Text.decimal n, c.isDigit = true := fun _ => Text.isDigit_of_mem_decimal
  exact ⟨List.takeWhile_eq_self_iff.mpr digits, List.dropWhile_eq_nil_iff.mpr digits⟩

theorem isNumber_decimal (n : Nat) : isNumber (Text.decimal n) = true := by
  have unsigned : isUnsignedNumber (Text.decimal n) = true := by
    rw [isUnsignedNumber, (takeWhile_decimal n).1, (takeWhile_decimal n).2, Text.isDecimal_decimal n]
    rfl
  unfold isNumber
  split
  next minus =>
    have first : '-' ∈ Text.decimal n := minus ▸ List.mem_cons_self
    exact absurd (Text.isDigit_of_mem_decimal first) (by decide)
  · exact unsigned

theorem wellWritten_ofNat (n : Nat) : WellWritten (ofNat n) := by
  refine .number (isNumber_decimal n) fun c member => ?_
  simp [isNumberChar, Text.isDigit_of_mem_decimal member]

theorem natBelow?_ofNat {n bound : Nat} (below : n < bound) : natBelow? bound (ofNat n) = some n := by
  rw [natBelow?, ofNat, nat?, Text.decimal?_decimal, Option.bind_some, if_pos below]

theorem survives_of_nat {α : Type} [Encode α] [Decode α] {a : α} {n bound : Nat} {wrap : Nat → α}
    (written : encode a = ofNat n)
    (read : decode? (encode a) = (natBelow? bound (encode a)).map wrap) (below : n < bound)
    (back : wrap n = a) : Survives a where
  decode := by rw [read, written, natBelow?_ofNat below, Option.map_some, back]
  well := written ▸ wellWritten_ofNat n

instance : Faithful UInt8 := ⟨fun n => survives_of_nat rfl rfl n.toNat_lt n.ofNat_toNat⟩

instance : Faithful UInt16 := ⟨fun n => survives_of_nat rfl rfl n.toNat_lt n.ofNat_toNat⟩

instance : Faithful UInt32 := ⟨fun n => survives_of_nat rfl rfl n.toNat_lt n.ofNat_toNat⟩

instance : Faithful UInt64 := ⟨fun n => survives_of_nat rfl rfl n.toNat_lt n.ofNat_toNat⟩

instance {α : Type} [Encode α] [Decode α] [Faithful α] [NeverNull α] : Faithful (Option α) where
  survives
    | none => ⟨rfl, .null⟩
    | some a => by
      have inner := Faithful.survives a
      refine ⟨?_, inner.well⟩
      have present : (decode? (encode (some a)) : Option (Option α)) = (decode? (encode a)).map some := by
        change (match encode a with
          | .null => some none
          | j => (decode? j).map some) = _
        split
        next null => exact absurd null (NeverNull.ne_null a)
        · rfl
      rw [present, inner.decode, Option.map_some]

theorem mapM_map_eq_some {α β γ : Type} {write : α → β} {read : β → Option γ} {value : α → γ}
    {l : List α} (back : ∀ a ∈ l, read (write a) = some (value a)) :
    (l.map write).mapM read = some (l.map value) := by
  induction l with
  | nil => rfl
  | cons a l ih =>
    have rest := ih fun b member => back b (List.mem_cons_of_mem _ member)
    simp [back a List.mem_cons_self, rest]

theorem mapM_map_eq_some_self {α β : Type} {write : α → β} {read : β → Option α} {l : List α}
    (back : ∀ a ∈ l, read (write a) = some a) : (l.map write).mapM read = some l := by
  have values : (l.map write).mapM read = some (l.map id) := mapM_map_eq_some back
  rwa [List.map_id] at values

instance {α : Type} [Encode α] [Decode α] [Faithful α] : Faithful (List α) where
  survives l := by
    refine ⟨mapM_map_eq_some_self fun a _ => (Faithful.survives a).decode, .array fun v member => ?_⟩
    obtain ⟨a, -, rfl⟩ := List.mem_map.mp member
    exact (Faithful.survives a).well

instance {κ : Type} [OrderedKey κ] [Encode κ] [Decode κ] [Faithful κ] : Faithful (SortedSet κ) where
  survives s := (Faithful.survives s.toList).map SortedSet.ofList rfl rfl s.ofList_toList

instance {α : Type} {n : Nat} [Encode α] [Decode α] [Faithful α] : Faithful (Vector α n) where
  survives v := by
    have items := Faithful.survives v.toList
    refine ⟨?_, items.well⟩
    change (decode? (encode v.toList)).bind _ = some v
    rw [items.decode, Option.bind_some, dif_pos v.length_toList]
    exact congrArg some (Vector.toArray_inj.mp v.toArray.toArray_toList)

class FaithfulKey (κ : Type) [KeyForm κ] : Prop where
  read_write : ∀ k : κ, KeyForm.read? (KeyForm.write k) = some k
  body : ∀ k : κ, IsBody (KeyForm.write k)

theorem FaithfulKey.of_survives {κ : Type} [KeyForm κ] [Encode κ] [Decode κ] [Faithful κ]
    {number : κ → Nat} (written : ∀ k, KeyForm.write k = Text.decimal (number k))
    (plain : ∀ k, encode k = ofNat (number k))
    (read : ∀ cs, (KeyForm.read? cs : Option κ) = decode? (.number cs)) : FaithfulKey κ where
  read_write k := by
    rw [read, written, ← ofNat, ← plain]
    exact (Faithful.survives k).decode
  body k := written k ▸ isBody_decimal _

instance : FaithfulKey UInt16 := .of_survives (fun _ => rfl) (fun _ => rfl) fun _ => rfl

instance : FaithfulKey UInt32 := .of_survives (fun _ => rfl) (fun _ => rfl) fun _ => rfl

section Maps

variable {κ α : Type} [KeyForm κ] [FaithfulKey κ] [Encode α] [Decode α] [Faithful α]

theorem binding?_written (e : κ × α) : binding? (KeyForm.write e.1, encode e.2) = some e := by
  simp [binding?, FaithfulKey.read_write, (Faithful.survives e.2).decode]

instance [OrderedKey κ] : Faithful (SortedMap κ α) where
  survives m := by
    constructor
    · change ((m.toList.map fun e => (KeyForm.write e.1, encode e.2)).mapM binding?).map
        SortedMap.ofList = some m
      rw [mapM_map_eq_some_self fun e _ => binding?_written e, Option.map_some, SortedMap.ofList_toList]
    · refine .object (fun member inside => ?_) fun member inside => ?_
      all_goals obtain ⟨e, -, rfl⟩ := List.mem_map.mp inside
      · exact FaithfulKey.body e.1
      · exact (Faithful.survives e.2).well

end Maps

instance {κ α : Type} [OrderedKey κ] [KeyForm κ] [Encode α] : NeverNull (SortedMap κ α) :=
  ⟨fun _ => nofun⟩

class FaithfulNames (α : Type) [Named α] : Prop where
  find_name : ∀ a : α, (Named.all.find? fun b => (Named.name b).toList = (Named.name a).toList) = some a

theorem ofName?_escape {α : Type} [Named α] [FaithfulNames α] (a : α) :
    ofName? Named.all Named.name (escape (Named.name a).toList) = some a := by
  rw [ofName?, unescape?_escape, Option.bind_some, FaithfulNames.find_name]

instance {α : Type} [Named α] [FaithfulNames α] : Faithful α where
  survives a := ⟨ofName?_escape a, wellWritten_ofString _⟩

instance {α : Type} [Named α] : NeverNull α := ⟨fun _ => nofun⟩

def Slot.ofWritten : Option Json → Slot
  | some j => .present j
  | none => .absent

structure MemberSurvives {α : Type} [MemberForm α] (a : α) : Prop where
  read : MemberForm.read? (Slot.ofWritten (MemberForm.write a)) = some a
  well : ∀ j, MemberForm.write a = some j → WellWritten j

structure MembersSurvive {τ : Type} [Members τ] (p : τ) : Prop where
  read : Members.read? ((Members.write p).map Slot.ofWritten) = some p
  well : ∀ j, some j ∈ Members.write p → WellWritten j

class FaithfulMember (α : Type) [MemberForm α] : Prop where
  survives : ∀ a : α, MemberSurvives a

class FaithfulMembers (τ : Type) [Members τ] : Prop where
  survives : ∀ p : τ, MembersSurvive p

theorem Survives.member {α : Type} [Encode α] [Decode α] {a : α} (survives : Survives a) :
    MemberSurvives a where
  read := survives.decode
  well _ written := Option.some.inj written ▸ survives.well

instance {α : Type} [Encode α] [Decode α] [Faithful α] : FaithfulMember α :=
  ⟨fun a => (Faithful.survives a).member⟩

instance {α : Type} [Encode α] [Decode α] [Inhabited α] [Faithful α] : FaithfulMember (Lenient α) where
  survives a := by
    have inner := Faithful.survives a.value
    refine ⟨?_, fun j written => Option.some.inj written ▸ inner.well⟩
    change (decode? (encode a.value)).map Lenient.mk = some a
    rw [inner.decode, Option.map_some]

instance {κ α : Type} [OrderedKey κ] [KeyForm κ] [FaithfulKey κ] [Encode α] [Decode α] [Faithful α] :
    FaithfulMember (Sparse κ α) where
  survives m := by
    have inner := Faithful.survives m.value
    by_cases empty : m.value.isEmpty = true
    · have written : MemberForm.write m = none := if_pos empty
      rw [SortedMap.isEmpty_iff] at empty
      obtain ⟨value⟩ := m
      obtain rfl : value = ∅ := empty
      exact ⟨rfl, fun j there => by cases written.symm.trans there⟩
    · have written : MemberForm.write m = some (encode m.value) := if_neg empty
      constructor
      · rw [written]
        change (decode? (encode m.value)).map Sparse.mk = some m
        rw [inner.decode, Option.map_some]
      · intro j there
        cases written.symm.trans there
        exact inner.well

instance : FaithfulMembers Unit := ⟨fun _ => ⟨rfl, nofun⟩⟩

theorem MembersSurvive.cons {α τ : Type} [MemberForm α] [Members τ] {a : α} {p : τ}
    (first : MemberSurvives a) (rest : MembersSurvive p) : MembersSurvive (a, p) where
  read := by
    change (MemberForm.read? (Slot.ofWritten (MemberForm.write a))).bind (fun x =>
      (Members.read? ((Members.write p).map Slot.ofWritten)).bind fun y => some (x, y)) = some (a, p)
    rw [first.read, rest.read, Option.bind_some, Option.bind_some]
  well j written := by
    rcases List.mem_cons.mp written with here | there
    · exact first.well j here.symm
    · exact rest.well j there

instance {α τ : Type} [MemberForm α] [FaithfulMember α] [Members τ] [FaithfulMembers τ] :
    FaithfulMembers (α × τ) :=
  ⟨fun p => .cons (FaithfulMember.survives p.1) (FaithfulMembers.survives p.2)⟩

theorem mem_writtenMembers {names : List String} {js : List (Option Json)} {m : String × Json}
    (member : m ∈ writtenMembers names js) : m.1 ∈ names ∧ some m.2 ∈ js := by
  induction names generalizing js with
  | nil => cases js <;> cases member
  | cons name names ih =>
    match js with
    | [] => cases member
    | none :: js =>
      obtain ⟨known, there⟩ := ih member
      exact ⟨List.mem_cons_of_mem _ known, List.mem_cons_of_mem _ there⟩
    | some j :: js =>
      rcases List.mem_cons.mp member with rfl | member
      · exact ⟨List.mem_cons_self, List.mem_cons_self⟩
      · obtain ⟨known, there⟩ := ih member
        exact ⟨List.mem_cons_of_mem _ known, List.mem_cons_of_mem _ there⟩

theorem find?_toList {names : List String} {name : String} (known : name ∈ names) :
    (names.find? fun n => n.toList = name.toList) = some name := by
  cases found : names.find? fun n => n.toList = name.toList with
  | none => exact absurd (decide_eq_true rfl) (List.find?_eq_none.mp found name known)
  | some n =>
    have same := List.find?_some found
    simp only [decide_eq_true_eq, String.toList_inj] at same
    rw [same]

theorem knownMembers?_written {names : List String} {written : List (String × Json)}
    (known : ∀ m ∈ written, m.1 ∈ names) :
    knownMembers? names (written.map fun m => (escape m.1.toList, m.2)) = some written := by
  induction written with
  | nil => rfl
  | cons m written ih =>
    have rest := ih fun n member => known n (List.mem_cons_of_mem _ member)
    simp [knownMembers?, unescape?_escape, rest, find?_toList (known m List.mem_cons_self)]

theorem slot?_of_ne {m : String × Json} {written : List (String × Json)} {name : String}
    (other : m.1 ≠ name) : slot? (m :: written) name = slot? written name := by
  simp [slot?, other]

theorem slot?_of_not_mem {written : List (String × Json)} {name : String}
    (unknown : ∀ m ∈ written, m.1 ≠ name) : slot? written name = some .absent := by
  induction written with
  | nil => rfl
  | cons m written ih =>
    rw [slot?_of_ne (unknown m List.mem_cons_self)]
    exact ih fun n member => unknown n (List.mem_cons_of_mem _ member)

theorem mapM_congr {α β : Type} {l : List α} {f g : α → Option β} (same : ∀ a ∈ l, f a = g a) :
    l.mapM f = l.mapM g := by
  induction l with
  | nil => rfl
  | cons a l ih =>
    have rest := ih fun b member => same b (List.mem_cons_of_mem _ member)
    simp [same a List.mem_cons_self, rest]

theorem mapM_slot?_written {names : List String} (nodup : names.Nodup) {js : List (Option Json)}
    (length : js.length = names.length) :
    names.mapM (slot? (writtenMembers names js)) = some (js.map Slot.ofWritten) := by
  induction names generalizing js with
  | nil =>
    obtain rfl := List.eq_nil_of_length_eq_zero length
    rfl
  | cons name names ih =>
    obtain ⟨fresh, nodup⟩ := List.nodup_cons.mp nodup
    match js with
    | [] => cases length
    | j :: js =>
      have rest := ih nodup (Nat.succ.inj length)
      have unknown : ∀ m ∈ writtenMembers names js, m.1 ≠ name := by
        rintro m member rfl
        exact fresh (mem_writtenMembers member).1
      have first : slot? (writtenMembers (name :: names) (j :: js)) name = some (Slot.ofWritten j) := by
        cases j with
        | none => exact slot?_of_not_mem unknown
        | some j =>
          have none : (writtenMembers names js).filter (fun m => m.1 = name) = [] := by
            simpa using unknown
          simp [slot?, writtenMembers, none, Slot.ofWritten]
      -- names differ, so the first member is not found under a later name
      have others : ∀ n ∈ names, slot? (writtenMembers (name :: names) (j :: js)) n =
          slot? (writtenMembers names js) n := by
        intro n member
        cases j with
        | none => rfl
        | some j =>
          apply slot?_of_ne
          rintro rfl
          exact fresh member
      rw [List.mapM_cons, first, mapM_congr others, rest]
      rfl

section Records

variable {α Parts : Type} [Record α Parts]

theorem slots?_written (p : Parts) :
    slots? (Record.names α) (ofMembers (writtenMembers (Record.names α) (Members.write p))) =
      some ((Members.write p).map Slot.ofWritten) := by
  have known := knownMembers?_written fun m (member : m ∈ writtenMembers (Record.names α)
    (Members.write p)) => (mem_writtenMembers member).1
  change (knownMembers? (Record.names α) _).bind (fun known => (Record.names α).mapM (slot? known)) = _
  rw [known, Option.bind_some]
  exact mapM_slot?_written Record.nodup_names (Record.length_write p)

/-- A record survives if its members do. -/
theorem survives_of_members {a : α} (members : MembersSurvive (Record.split a)) : Survives a where
  decode := by
    change (slots? _ (ofMembers (writtenMembers _ (Members.write (Record.split a))))).bind _ = some a
    rw [slots?_written, Option.bind_some, members.read, Option.map_some, Record.join_split]
  well := by
    refine .object (fun m inside => ?_) fun m inside => ?_
    all_goals obtain ⟨n, member, rfl⟩ := List.mem_map.mp inside
    · exact isBody_escape n.1.toList
    · exact members.well n.2 (mem_writtenMembers member).2

instance (priority := low) [FaithfulMembers Parts] : Faithful α :=
  ⟨fun _ => survives_of_members (FaithfulMembers.survives _)⟩

instance (priority := low) : NeverNull α := ⟨fun _ => nofun⟩

end Records

end AvbEntity.Json
