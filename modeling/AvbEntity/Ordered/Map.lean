import AvbEntity.Ordered.Key

namespace AvbEntity

open OrderedKey

structure SortedMap (κ α : Type) [OrderedKey κ] where
  toList : List (κ × α)
  ascending : toList.Pairwise fun a b => rank a.1 < rank b.1

namespace SortedMap

section Entries

variable {κ α : Type} [OrderedKey κ]

def lookupEntry (k : κ) : List (κ × α) → Option α
  | [] => none
  | e :: rest => if rank e.1 = rank k then some e.2 else lookupEntry k rest

def insertEntry (k : κ) (a : α) : List (κ × α) → List (κ × α)
  | [] => [(k, a)]
  | e :: rest =>
    if rank k < rank e.1 then (k, a) :: e :: rest
    else if rank k = rank e.1 then (k, a) :: rest
    else e :: insertEntry k a rest

theorem mem_insertEntry {k : κ} {a : α} {e : κ × α} {l : List (κ × α)}
    (h : e ∈ insertEntry k a l) : e = (k, a) ∨ e ∈ l := by
  induction l with
  | nil => simpa [insertEntry] using h
  | cons d rest ih =>
    simp only [insertEntry] at h
    split at h
    · simpa using h
    · split at h
      · rcases List.mem_cons.mp h with h | h
        · exact .inl h
        · exact .inr (List.mem_cons_of_mem _ h)
      · rcases List.mem_cons.mp h with h | h
        · exact .inr (h ▸ List.mem_cons_self)
        · exact (ih h).imp_right (List.mem_cons_of_mem _)

theorem insertEntry_ascending (k : κ) (a : α) {l : List (κ × α)}
    (h : l.Pairwise fun a b => rank a.1 < rank b.1) :
    (insertEntry k a l).Pairwise fun a b => rank a.1 < rank b.1 := by
  induction l with
  | nil => simp [insertEntry]
  | cons d rest ih =>
    have hd := List.pairwise_cons.mp h
    simp only [insertEntry]
    split
    · rename_i hlt
      refine List.pairwise_cons.mpr ⟨fun e he => ?_, h⟩
      rcases List.mem_cons.mp he with rfl | he
      · exact hlt
      · exact Nat.lt_trans hlt (hd.1 e he)
    · split
      · rename_i heq
        exact List.pairwise_cons.mpr ⟨fun e he => by simpa [heq] using hd.1 e he, hd.2⟩
      · rename_i hlt hne
        refine List.pairwise_cons.mpr ⟨fun e he => ?_, ih hd.2⟩
        rcases mem_insertEntry he with rfl | he
        · simp only
          omega
        · exact hd.1 e he

theorem lookupEntry_insertEntry_self (k : κ) (a : α) (l : List (κ × α)) :
    lookupEntry k (insertEntry k a l) = some a := by
  induction l with
  | nil => simp [insertEntry, lookupEntry]
  | cons d rest ih =>
    simp only [insertEntry]
    split
    · simp [lookupEntry]
    · split
      · simp [lookupEntry]
      · rename_i _ hne
        simp [lookupEntry, Ne.symm hne, ih]

theorem lookupEntry_insertEntry_ne {k k' : κ} (h : k' ≠ k) (a : α) (l : List (κ × α)) :
    lookupEntry k' (insertEntry k a l) = lookupEntry k' l := by
  have hr : rank k ≠ rank k' := fun e => h (rank_injective _ _ e.symm)
  induction l with
  | nil => simp [insertEntry, lookupEntry, hr]
  | cons d rest ih =>
    simp only [insertEntry]
    split
    · simp [lookupEntry, hr]
    · split
      · rename_i heq
        simp [lookupEntry, hr, ← heq]
      · simp [lookupEntry, ih]

theorem lookupEntry_eq_some_iff {k : κ} {a : α} {l : List (κ × α)}
    (h : l.Pairwise fun a b => rank a.1 < rank b.1) :
    lookupEntry k l = some a ↔ (k, a) ∈ l := by
  induction l with
  | nil => simp [lookupEntry]
  | cons d rest ih =>
    have hd := List.pairwise_cons.mp h
    by_cases hk : rank d.1 = rank k
    · obtain rfl := rank_injective _ _ hk
      simp only [lookupEntry, ↓reduceIte, Option.some.injEq, List.mem_cons]
      constructor
      · rintro rfl
        exact .inl rfl
      · rintro (h' | h')
        · exact congrArg Prod.snd h'.symm
        · exact absurd (hd.1 _ h') (Nat.lt_irrefl _)
    · simp only [lookupEntry, hk, ↓reduceIte, ih hd.2, List.mem_cons]
      constructor
      · exact .inr
      · rintro (h' | h')
        · exact absurd (congrArg (fun e => rank e.1) h').symm hk
        · exact h'

theorem lookupEntry_map {β : Type} (f : κ → α → β) (k : κ) (l : List (κ × α)) :
    lookupEntry k (l.map fun e => (e.1, f e.1 e.2)) = (lookupEntry k l).map (f k) := by
  induction l with
  | nil => rfl
  | cons d rest ih =>
    by_cases hk : rank d.1 = rank k
    · obtain rfl := rank_injective _ _ hk
      simp [lookupEntry]
    · simp only [List.map_cons, lookupEntry, hk, ↓reduceIte, ih]

theorem insertEntry_of_above {k : κ} {l : List (κ × α)} (h : ∀ e ∈ l, rank e.1 < rank k) (a : α) :
    insertEntry k a l = l ++ [(k, a)] := by
  induction l with
  | nil => rfl
  | cons d rest ih =>
    have hd : rank d.1 < rank k := h d List.mem_cons_self
    have hlt : ¬ rank k < rank d.1 := Nat.not_lt_of_gt hd
    have hne : rank k ≠ rank d.1 := Nat.ne_of_gt hd
    simp only [insertEntry, hlt, hne, ↓reduceIte, List.cons_append]
    rw [ih fun e he => h e (List.mem_cons_of_mem _ he)]

end Entries

variable {κ α β : Type} [OrderedKey κ]

theorem ext {m n : SortedMap κ α} (h : m.toList = n.toList) : m = n := by
  cases m; cases n; cases h; rfl

instance [DecidableEq κ] [DecidableEq α] : DecidableEq (SortedMap κ α) := fun m n =>
  decidable_of_iff (m.toList = n.toList) ⟨ext, fun h => h ▸ rfl⟩

def empty : SortedMap κ α := ⟨[], .nil⟩

instance : EmptyCollection (SortedMap κ α) := ⟨empty⟩

instance : Inhabited (SortedMap κ α) := ⟨empty⟩

def get? (m : SortedMap κ α) (k : κ) : Option α := lookupEntry k m.toList

def getD (m : SortedMap κ α) (k : κ) (fallback : α) : α := (m.get? k).getD fallback

def contains (m : SortedMap κ α) (k : κ) : Bool := (m.get? k).isSome

def insert (m : SortedMap κ α) (k : κ) (a : α) : SortedMap κ α :=
  ⟨insertEntry k a m.toList, insertEntry_ascending k a m.ascending⟩

def upsert [Inhabited α] (m : SortedMap κ α) (k : κ) (f : α → α) : SortedMap κ α :=
  m.insert k (f (m.getD k default))

def filter (m : SortedMap κ α) (p : κ → α → Bool) : SortedMap κ α :=
  ⟨m.toList.filter fun e => p e.1 e.2, m.ascending.filter _⟩

def erase (m : SortedMap κ α) (k : κ) : SortedMap κ α := m.filter fun k' _ => rank k' != rank k

def mapEntries (m : SortedMap κ α) (f : κ → α → β) : SortedMap κ β :=
  ⟨m.toList.map fun e => (e.1, f e.1 e.2), List.pairwise_map.mpr m.ascending⟩

def keys (m : SortedMap κ α) : List κ := m.toList.map (·.1)

def values (m : SortedMap κ α) : List α := m.toList.map (·.2)

def size (m : SortedMap κ α) : Nat := m.toList.length

def isEmpty (m : SortedMap κ α) : Bool := m.toList.isEmpty

def lastKey? (m : SortedMap κ α) : Option κ := m.keys.getLast?

def insertAll (m : SortedMap κ α) (l : List (κ × α)) : SortedMap κ α :=
  l.foldl (fun m e => m.insert e.1 e.2) m

def ofList (l : List (κ × α)) : SortedMap κ α := insertAll ∅ l

def restrict (m : SortedMap κ α) (keys : List κ) : SortedMap κ α :=
  ofList (keys.filterMap fun k => (m.get? k).map (k, ·))

@[simp] theorem get?_empty (k : κ) : (∅ : SortedMap κ α).get? k = none := rfl

@[simp] theorem get?_insert_self (m : SortedMap κ α) (k : κ) (a : α) :
    (m.insert k a).get? k = some a :=
  lookupEntry_insertEntry_self k a m.toList

theorem get?_insert_ne (m : SortedMap κ α) {k k' : κ} (h : k' ≠ k) (a : α) :
    (m.insert k a).get? k' = m.get? k' :=
  lookupEntry_insertEntry_ne h a m.toList

theorem get?_insert_fresh {m : SortedMap κ α} {k k' : κ} {a b : α} (unbound : m.get? k = none) :
    (m.insert k a).get? k' = some b ↔ m.get? k' = some b ∨ k' = k ∧ b = a := by
  by_cases same : rank k' = rank k
  · obtain rfl := rank_injective _ _ same
    rw [get?_insert_self, unbound]
    simp [eq_comm]
  · have different : k' ≠ k := fun equal => same (congrArg rank equal)
    rw [get?_insert_ne m different]
    simp [different]

@[simp] theorem get?_mapEntries (m : SortedMap κ α) (f : κ → α → β) (k : κ) :
    (m.mapEntries f).get? k = (m.get? k).map (f k) :=
  lookupEntry_map f k m.toList

@[simp] theorem keys_mapEntries (m : SortedMap κ α) (f : κ → α → β) :
    (m.mapEntries f).keys = m.keys := by
  simp [keys, mapEntries]

theorem contains_of_get? {m : SortedMap κ α} {k : κ} {a : α} (found : m.get? k = some a) :
    m.contains k = true :=
  Option.isSome_of_eq_some found

theorem get?_eq_some_iff {m : SortedMap κ α} {k : κ} {a : α} :
    m.get? k = some a ↔ (k, a) ∈ m.toList :=
  lookupEntry_eq_some_iff m.ascending

theorem get?_filter_eq_some_iff {m : SortedMap κ α} {p : κ → α → Bool} {k : κ} {a : α} :
    (m.filter p).get? k = some a ↔ m.get? k = some a ∧ p k a = true := by
  simp [get?_eq_some_iff, filter]

theorem get?_erase_eq_some_iff {m : SortedMap κ α} {k k' : κ} {a : α} :
    (m.erase k).get? k' = some a ↔ m.get? k' = some a ∧ k' ≠ k := by
  rw [erase, get?_filter_eq_some_iff, bne_iff_ne, ne_eq, rank_inj]

theorem contains_iff_mem_keys {m : SortedMap κ α} {k : κ} : m.contains k ↔ k ∈ m.keys := by
  simp only [contains, Option.isSome_iff_exists, get?_eq_some_iff, keys, List.mem_map,
    Prod.exists, exists_and_right, exists_eq_right]

theorem contains_iff_of_keys {m : SortedMap κ α} {n : SortedMap κ β} (same : m.keys = n.keys) (k : κ) :
    m.contains k = true ↔ n.contains k = true := by
  rw [contains_iff_mem_keys, contains_iff_mem_keys, same]

theorem mem_values {m : SortedMap κ α} {a : α} : a ∈ m.values ↔ ∃ k, m.get? k = some a := by
  simp only [get?_eq_some_iff, values, List.mem_map, Prod.exists, exists_eq_right]

theorem mem_values_mapEntries {m : SortedMap κ α} {f : κ → α → β} {b : β} :
    b ∈ (m.mapEntries f).values ↔ ∃ k a, m.get? k = some a ∧ f k a = b := by
  simp [mem_values, Option.map_eq_some_iff]

theorem toList_insert_of_above {m : SortedMap κ α} {k : κ} (h : ∀ k' ∈ m.keys, rank k' < rank k)
    (a : α) : (m.insert k a).toList = m.toList ++ [(k, a)] :=
  insertEntry_of_above (fun _ he => h _ (List.mem_map_of_mem he)) a

theorem toList_insertAll_of_above {m : SortedMap κ α} {l : List (κ × α)}
    (h : (m.toList ++ l).Pairwise fun a b => rank a.1 < rank b.1) :
    (m.insertAll l).toList = m.toList ++ l := by
  induction l generalizing m with
  | nil => exact (List.append_nil _).symm
  | cons e l ih =>
    have above : ∀ k ∈ m.keys, rank k < rank e.1 := by
      intro k hk
      obtain ⟨d, hd, rfl⟩ := List.mem_map.mp hk
      exact (List.pairwise_append.mp h).2.2 d hd e List.mem_cons_self
    have first := toList_insert_of_above above e.2
    have rest : (m.insert e.1 e.2).toList ++ l = m.toList ++ e :: l := by
      rw [first, List.append_assoc]
      rfl
    calc (m.insertAll (e :: l)).toList
        = ((m.insert e.1 e.2).insertAll l).toList := rfl
      _ = (m.insert e.1 e.2).toList ++ l := ih (rest ▸ h)
      _ = m.toList ++ e :: l := rest

theorem get?_insertAll_of_not_mem {m : SortedMap κ α} {l : List (κ × α)} {k : κ}
    (absent : ∀ e ∈ l, e.1 ≠ k) : (m.insertAll l).get? k = m.get? k := by
  induction l generalizing m with
  | nil => rfl
  | cons e l ih =>
    have first : (m.insert e.1 e.2).get? k = m.get? k :=
      get?_insert_ne m (Ne.symm (absent e List.mem_cons_self)) e.2
    have rest : ∀ d ∈ l, d.1 ≠ k := fun d member => absent d (List.mem_cons_of_mem _ member)
    exact (ih rest).trans first

/-- A key is bound to what all its bindings in the list agree on. -/
theorem get?_insertAll_of_agree {m : SortedMap κ α} {l : List (κ × α)} {k : κ} {a : α}
    (agree : ∀ e ∈ l, e.1 = k → e.2 = a) (member : (k, a) ∈ l) : (m.insertAll l).get? k = some a := by
  induction l generalizing m with
  | nil => cases member
  | cons e l ih =>
    have rest : ∀ d ∈ l, d.1 = k → d.2 = a := fun d inside => agree d (List.mem_cons_of_mem _ inside)
    by_cases again : (k, a) ∈ l
    · exact ih rest again
    · obtain rfl : (k, a) = e := (List.mem_cons.mp member).resolve_right again
      have last : ∀ d ∈ l, d.1 ≠ k := by
        rintro ⟨_, b⟩ inside rfl
        obtain rfl : b = a := rest _ inside rfl
        exact again inside
      exact (get?_insertAll_of_not_mem last).trans (get?_insert_self m k a)

theorem get?_insertAll_of_mem {m : SortedMap κ α} {l : List (κ × α)} {k : κ} {a : α}
    (distinct : l.Pairwise fun d e => d.1 ≠ e.1) (member : (k, a) ∈ l) :
    (m.insertAll l).get? k = some a := by
  induction l generalizing m with
  | nil => cases member
  | cons e l ih =>
    obtain ⟨apart, distinctRest⟩ := List.pairwise_cons.mp distinct
    rcases List.mem_cons.mp member with rfl | later
    · have rest : ∀ d ∈ l, d.1 ≠ k := fun d inside => Ne.symm (apart d inside)
      exact (get?_insertAll_of_not_mem rest).trans (get?_insert_self m k a)
    · exact ih distinctRest later

@[simp] theorem ofList_toList (m : SortedMap κ α) : ofList m.toList = m :=
  ext (toList_insertAll_of_above m.ascending)

theorem nodup_keys (m : SortedMap κ α) : m.keys.Nodup := by
  refine List.pairwise_map.mpr (m.ascending.imp fun {a b} h same => ?_)
  rw [same] at h
  exact Nat.lt_irrefl _ h

theorem length_keys (m : SortedMap κ α) : m.keys.length = m.size :=
  List.length_map _

theorem isEmpty_iff {m : SortedMap κ α} : m.isEmpty = true ↔ m = ∅ := by
  rw [isEmpty, List.isEmpty_iff]
  exact ⟨fun h => ext h, fun h => h ▸ rfl⟩

@[simp] theorem size_mapEntries (m : SortedMap κ α) (f : κ → α → β) :
    (m.mapEntries f).size = m.size :=
  List.length_map _

theorem mapEntries_mapEntries {γ : Type} (m : SortedMap κ α) (f : κ → α → β) (g : κ → β → γ) :
    (m.mapEntries f).mapEntries g = m.mapEntries fun k a => g k (f k a) :=
  ext List.map_map

/-- Maps that are alike in a view of their values are alike in all that is computed from the view. -/
theorem mapEntries_congr {γ δ : Type} {m n : SortedMap κ α} {view : α → γ}
    (same : (m.mapEntries fun _ => view) = n.mapEntries fun _ => view) (f : κ → γ → δ) :
    (m.mapEntries fun k a => f k (view a)) = n.mapEntries fun k a => f k (view a) := by
  rw [← mapEntries_mapEntries m (fun _ => view) f, same, mapEntries_mapEntries]

@[simp] theorem get?_upsert_self [Inhabited α] (m : SortedMap κ α) (k : κ) (f : α → α) :
    (m.upsert k f).get? k = some (f (m.getD k default)) :=
  get?_insert_self ..

theorem get?_upsert_ne [Inhabited α] (m : SortedMap κ α) {k k' : κ} (h : k' ≠ k) (f : α → α) :
    (m.upsert k f).get? k' = m.get? k' :=
  get?_insert_ne m h _

theorem ext_get? {m n : SortedMap κ α} (h : ∀ k, m.get? k = n.get? k) : m = n := by
  apply ext
  apply eq_of_ascending m.ascending n.ascending
  intro e
  rw [← get?_eq_some_iff (m := m) (k := e.1) (a := e.2), h, get?_eq_some_iff]

theorem eq_of_contains {m n : SortedMap κ α} (same : ∀ k, m.contains k = true ↔ n.contains k = true)
    (equal : ∀ k a b, m.get? k = some a → n.get? k = some b → a = b) : m = n := by
  apply ext_get?
  intro k
  have bound : (m.get? k).isSome = true ↔ (n.get? k).isSome = true := same k
  cases left : m.get? k with
  | none =>
    rw [left] at bound
    exact (Option.not_isSome_iff_eq_none.mp fun other => nomatch bound.mpr other).symm
  | some a =>
    rw [left] at bound
    obtain ⟨b, right⟩ := Option.isSome_iff_exists.mp (bound.mp rfl)
    rw [right, equal k a b left right]

theorem get?_restrict_eq_some_iff {m : SortedMap κ α} {keys : List κ} {k : κ} {a : α} :
    (m.restrict keys).get? k = some a ↔ m.get? k = some a ∧ k ∈ keys := by
  have bindings : ∀ e : κ × α, (e ∈ keys.filterMap fun j => (m.get? j).map (j, ·)) ↔
      m.get? e.1 = some e.2 ∧ e.1 ∈ keys := by
    rintro ⟨j, b⟩
    simp only [List.mem_filterMap, Option.map_eq_some_iff, Prod.mk.injEq]
    constructor
    · rintro ⟨_, member, _, found, rfl, rfl⟩
      exact ⟨found, member⟩
    · rintro ⟨found, member⟩
      exact ⟨j, member, b, found, rfl, rfl⟩
  have bound : ∀ b, m.get? k = some b → k ∈ keys → (m.restrict keys).get? k = some b := by
    intro b found member
    refine get?_insertAll_of_agree (fun e other key => ?_) ((bindings (k, b)).mpr ⟨found, member⟩)
    have known := ((bindings e).mp other).1
    rw [key, found] at known
    exact (Option.some.inj known).symm
  constructor
  · intro found
    by_cases named : ∃ b, m.get? k = some b ∧ k ∈ keys
    · obtain ⟨b, known, member⟩ := named
      rw [bound b known member] at found
      exact ⟨found ▸ known, member⟩
    · have absent : ∀ e ∈ keys.filterMap fun j => (m.get? j).map (j, ·), e.1 ≠ k := by
        rintro e member rfl
        exact named ⟨e.2, (bindings e).mp member⟩
      have unbound : (m.restrict keys).get? k = none := get?_insertAll_of_not_mem absent
      rw [unbound] at found
      cases found
  · rintro ⟨found, member⟩
    exact bound a found member

theorem restrict_mapEntries (m : SortedMap κ α) (f : κ → α → β) (keys : List κ) :
    (m.mapEntries f).restrict keys = (m.restrict keys).mapEntries f := by
  apply ext_get?
  intro k
  apply Option.ext
  intro b
  simp only [get?_restrict_eq_some_iff, get?_mapEntries, Option.map_eq_some_iff]
  constructor
  · rintro ⟨⟨a, found, rfl⟩, member⟩
    exact ⟨a, ⟨found, member⟩, rfl⟩
  · rintro ⟨a, ⟨found, member⟩, rfl⟩
    exact ⟨⟨a, found, rfl⟩, member⟩

theorem upsert_upsert_self [Inhabited α] (m : SortedMap κ α) (k : κ) (f g : α → α) :
    (m.upsert k f).upsert k g = m.upsert k fun a => g (f a) := by
  apply ext_get?
  intro i
  by_cases same : i = k
  · subst same
    simp only [get?_upsert_self, getD, Option.getD_some]
  · rw [get?_upsert_ne _ same, get?_upsert_ne _ same, get?_upsert_ne _ same]

theorem upsert_comm [Inhabited α] (m : SortedMap κ α) {j k : κ} (different : j ≠ k) (f g : α → α) :
    (m.upsert j f).upsert k g = (m.upsert k g).upsert j f := by
  apply ext_get?
  intro i
  by_cases atJ : i = j
  · subst atJ
    rw [get?_upsert_ne _ different, get?_upsert_self, get?_upsert_self, getD, getD,
      get?_upsert_ne _ different]
  · by_cases atK : i = k
    · subst atK
      rw [get?_upsert_ne _ atJ, get?_upsert_self, get?_upsert_self, getD, getD, get?_upsert_ne _ atJ]
    · rw [get?_upsert_ne _ atK, get?_upsert_ne _ atJ, get?_upsert_ne _ atJ, get?_upsert_ne _ atK]

theorem size_congr {γ : Type} {m : SortedMap κ α} {n : SortedMap κ β} {f : α → γ} {g : β → γ}
    (h : ∀ k, (m.get? k).map f = (n.get? k).map g) : m.size = n.size := by
  have views : (m.mapEntries fun _ => f) = n.mapEntries fun _ => g := by
    apply ext_get?
    intro k
    rw [get?_mapEntries, get?_mapEntries, h]
  rw [← size_mapEntries m fun _ => f, views, size_mapEntries]

end SortedMap

end AvbEntity
