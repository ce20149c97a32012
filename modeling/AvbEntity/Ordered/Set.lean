import AvbEntity.Ordered.Map

namespace AvbEntity

open OrderedKey

structure SortedSet (κ : Type) [OrderedKey κ] where
  toList : List κ
  ascending : toList.Pairwise fun a b => rank a < rank b

namespace SortedSet

variable {κ α : Type} [OrderedKey κ]

theorem ext {s t : SortedSet κ} (h : s.toList = t.toList) : s = t := by
  cases s; cases t; cases h; rfl

instance [DecidableEq κ] : DecidableEq (SortedSet κ) := fun s t =>
  decidable_of_iff (s.toList = t.toList) ⟨ext, fun h => h ▸ rfl⟩

def insertMember (k : κ) : List κ → List κ
  | [] => [k]
  | e :: rest =>
    if rank k < rank e then k :: e :: rest
    else if rank k = rank e then e :: rest
    else e :: insertMember k rest

theorem mem_insertMember {k e : κ} {l : List κ} : e ∈ insertMember k l ↔ e = k ∨ e ∈ l := by
  induction l with
  | nil => simp [insertMember]
  | cons d rest ih =>
    simp only [insertMember]
    split
    · simp
    · split
      · rename_i heq
        obtain rfl := rank_injective _ _ heq
        simp
      · simp only [List.mem_cons, ih]
        exact or_left_comm

theorem insertMember_ascending (k : κ) {l : List κ} (h : l.Pairwise fun a b => rank a < rank b) :
    (insertMember k l).Pairwise fun a b => rank a < rank b := by
  induction l with
  | nil => simp [insertMember]
  | cons d rest ih =>
    have hd := List.pairwise_cons.mp h
    simp only [insertMember]
    split
    · rename_i hlt
      refine List.pairwise_cons.mpr ⟨fun e he => ?_, h⟩
      rcases List.mem_cons.mp he with rfl | he
      · exact hlt
      · exact Nat.lt_trans hlt (hd.1 e he)
    · split
      · exact h
      · rename_i hlt hne
        refine List.pairwise_cons.mpr ⟨fun e he => ?_, ih hd.2⟩
        rcases mem_insertMember.mp he with rfl | he
        · omega
        · exact hd.1 e he

theorem insertMember_of_above {k : κ} {l : List κ} (h : ∀ e ∈ l, rank e < rank k) :
    insertMember k l = l ++ [k] := by
  induction l with
  | nil => rfl
  | cons d rest ih =>
    have hd : rank d < rank k := h d List.mem_cons_self
    have hlt : ¬ rank k < rank d := Nat.not_lt_of_gt hd
    have hne : rank k ≠ rank d := Nat.ne_of_gt hd
    simp only [insertMember, hlt, hne, ↓reduceIte, List.cons_append]
    rw [ih fun e he => h e (List.mem_cons_of_mem _ he)]

def empty : SortedSet κ := ⟨[], .nil⟩

instance : EmptyCollection (SortedSet κ) := ⟨empty⟩

instance : Inhabited (SortedSet κ) := ⟨empty⟩

def contains (s : SortedSet κ) (k : κ) : Bool := s.toList.any fun e => rank e == rank k

instance : Membership κ (SortedSet κ) := ⟨fun s k => k ∈ s.toList⟩

instance (k : κ) (s : SortedSet κ) : Decidable (k ∈ s) :=
  decidable_of_iff (s.contains k) <| by
    simp only [contains, List.any_eq_true, beq_iff_eq, rank_inj, exists_eq_right]
    rfl

def insert (s : SortedSet κ) (k : κ) : SortedSet κ :=
  ⟨insertMember k s.toList, insertMember_ascending k s.ascending⟩

def filter (s : SortedSet κ) (p : κ → Bool) : SortedSet κ :=
  ⟨s.toList.filter p, s.ascending.filter _⟩

def erase (s : SortedSet κ) (k : κ) : SortedSet κ := s.filter fun e => rank e != rank k

def size (s : SortedSet κ) : Nat := s.toList.length

def isEmpty (s : SortedSet κ) : Bool := s.toList.isEmpty

def insertAll (s : SortedSet κ) (l : List κ) : SortedSet κ := l.foldl insert s

def ofList (l : List κ) : SortedSet κ := insertAll ∅ l

def ofKeys (m : SortedMap κ α) : SortedSet κ :=
  ⟨m.keys, List.pairwise_map.mpr m.ascending⟩

theorem ext_mem {s t : SortedSet κ} (h : ∀ k, k ∈ s ↔ k ∈ t) : s = t :=
  ext (eq_of_ascending s.ascending t.ascending h)

theorem contains_iff {s : SortedSet κ} {k : κ} : s.contains k ↔ k ∈ s := by
  simp only [contains, List.any_eq_true, beq_iff_eq, rank_inj, exists_eq_right]
  rfl

@[simp] theorem not_mem_empty (k : κ) : k ∉ (∅ : SortedSet κ) := List.not_mem_nil

@[simp] theorem mem_insert {s : SortedSet κ} {k e : κ} : e ∈ s.insert k ↔ e = k ∨ e ∈ s :=
  mem_insertMember

@[simp] theorem mem_filter {s : SortedSet κ} {p : κ → Bool} {e : κ} :
    e ∈ s.filter p ↔ e ∈ s ∧ p e :=
  List.mem_filter

@[simp] theorem mem_erase {s : SortedSet κ} {k e : κ} : e ∈ s.erase k ↔ e ∈ s ∧ e ≠ k := by
  simp only [erase, mem_filter, bne_iff_ne, ne_eq, rank_inj]

theorem mem_insertAll {s : SortedSet κ} {l : List κ} {e : κ} :
    e ∈ s.insertAll l ↔ e ∈ s ∨ e ∈ l := by
  induction l generalizing s with
  | nil => simp [insertAll]
  | cons a l ih =>
    have h : s.insertAll (a :: l) = (s.insert a).insertAll l := rfl
    rw [h, ih, mem_insert, List.mem_cons]
    constructor
    · rintro ((h | h) | h)
      · exact .inr (.inl h)
      · exact .inl h
      · exact .inr (.inr h)
    · rintro (h | h | h)
      · exact .inl (.inr h)
      · exact .inl (.inl h)
      · exact .inr h

theorem nodup_toList (s : SortedSet κ) : s.toList.Nodup := by
  refine s.ascending.imp fun {a b} lower same => ?_
  rw [same] at lower
  exact Nat.lt_irrefl _ lower

theorem toList_insertAll_of_above {s : SortedSet κ} {l : List κ}
    (h : (s.toList ++ l).Pairwise fun a b => rank a < rank b) :
    (s.insertAll l).toList = s.toList ++ l := by
  induction l generalizing s with
  | nil => exact (List.append_nil _).symm
  | cons k l ih =>
    have above : ∀ e ∈ s.toList, rank e < rank k := fun e he =>
      (List.pairwise_append.mp h).2.2 e he k List.mem_cons_self
    have first : (s.insert k).toList = s.toList ++ [k] := insertMember_of_above above
    have rest : (s.insert k).toList ++ l = s.toList ++ k :: l := by
      rw [first, List.append_assoc]
      rfl
    calc (s.insertAll (k :: l)).toList
        = ((s.insert k).insertAll l).toList := rfl
      _ = (s.insert k).toList ++ l := ih (rest ▸ h)
      _ = s.toList ++ k :: l := rest

@[simp] theorem ofList_toList (s : SortedSet κ) : ofList s.toList = s :=
  ext (toList_insertAll_of_above s.ascending)

@[simp] theorem mem_ofList {l : List κ} {e : κ} : e ∈ ofList l ↔ e ∈ l := by
  simp [ofList, mem_insertAll]

end SortedSet

end AvbEntity
