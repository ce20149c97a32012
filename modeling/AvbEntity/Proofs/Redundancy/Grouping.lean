import AvbEntity.Proofs.LastEvent
import AvbEntity.Proofs.Redundancy.Association
import Mathlib.Data.List.Nodup
import Mathlib.Data.List.Perm.Subperm
import Mathlib.Data.List.Induction

namespace AvbEntity

open OrderedKey

namespace SortedSet

variable {κ : Type} [OrderedKey κ]

theorem two_le_size {s : SortedSet κ} {a b : κ} (first : a ∈ s) (second : b ∈ s) (different : a ≠ b) :
    2 ≤ s.size := by
  have both : [a, b] ⊆ s.toList := by
    intro c member
    rcases List.mem_cons.mp member with rfl | member
    · exact first
    · rw [List.mem_singleton.mp member]
      exact second
  have distinct : [a, b].Nodup := by simpa using different
  exact (List.subperm_of_subset distinct both).length_le

theorem exists_ne_of_two_le_size {s : SortedSet κ} (several : 2 ≤ s.size) (a : κ) : ∃ b ∈ s, b ≠ a := by
  by_contra alone
  have only : s.toList ⊆ [a] := by
    intro b member
    by_contra other
    exact alone ⟨b, member, fun same => other (List.mem_singleton.mpr same)⟩
  have length := (List.subperm_of_subset s.nodup_toList only).length_le
  have several : 2 ≤ s.toList.length := several
  rw [List.length_singleton] at length
  omega

end SortedSet

namespace Redundancy

structure SoundGroup (streams : Streams) (g : RedundantGroup) : Prop where
  several : 2 ≤ g.members.size
  present : ∀ s ∈ g.members, (streams.get? s).isSome = true
  apart : ∀ a ∈ g.members, ∀ b ∈ g.members, a ≠ b → interface? streams a ≠ interface? streams b
  primary_mem : g.primary ∈ g.members
  lowest : ∀ s ∈ g.members, s ≠ g.primary → Before streams g.primary s
  anchor : ∃ a ∈ g.members, ∃ model, streams.get? a = some model ∧
    (∀ s, s ∈ g.members ↔ s = a ∨ s ∈ model.redundantStreams) ∧
    ∀ s ∈ g.members, s ≠ a → ∃ other, streams.get? s = some other ∧ a ∈ other.redundantStreams

/-- The groups made of the declarations of streams: sound groups without common streams, numbered from
zero on, beside the sets of their primaries and of their other members. -/
structure WellFormed (streams : Streams) (r : Redundancy) : Prop where
  sound : ∀ i g, r.groups.get? i = some g → SoundGroup streams g
  disjoint : ∀ i g j h s, r.groups.get? i = some g → r.groups.get? j = some h →
    s ∈ g.members → s ∈ h.members → i = j
  separate : ∀ s ∈ r.primary, s ∉ r.secondary
  primaries : ∀ s, s ∈ r.primary ↔ ∃ i g, r.groups.get? i = some g ∧ g.primary = s
  union : ∀ s, s ∈ r.primary ∨ s ∈ r.secondary ↔ ∃ i g, r.groups.get? i = some g ∧ s ∈ g.members
  virtualIndex : ∀ i g, r.groups.get? i = some g → g.virtualIndex = i
  numbered : r.groups.keys.map UInt16.toNat = List.range r.groups.size

theorem isGrouped_iff {r : Redundancy} {s : UInt16} :
    r.isGrouped s = true ↔ ∃ i g, r.groups.get? i = some g ∧ s ∈ g.members := by
  simp only [isGrouped, List.any_eq_true, SortedSet.contains_iff, SortedMap.mem_values]
  constructor
  · intro grouped
    obtain ⟨g, ⟨i, bound⟩, member⟩ := grouped
    exact ⟨i, g, bound, member⟩
  · intro grouped
    obtain ⟨i, g, bound, member⟩ := grouped
    exact ⟨g, ⟨i, bound⟩, member⟩

theorem nodup_length_le_indices {l : List UInt16} (distinct : l.Nodup) : l.length ≤ 65536 := by
  have numbers : (l.map UInt16.toNat).Nodup :=
    distinct.map fun a b same => UInt16.toNat_inj.mp same
  have bounded : l.map UInt16.toNat ⊆ List.range 65536 := by
    intro n member
    obtain ⟨a, -, rfl⟩ := List.mem_map.mp member
    exact List.mem_range.mpr a.toNat_lt
  have length := (List.subperm_of_subset numbers bounded).length_le
  rw [List.length_map, List.length_range] at length
  exact length

theorem two_mul_length_le_flatMap {l : List RedundantGroup}
    (several : ∀ g ∈ l, 2 ≤ g.members.size) :
    2 * l.length ≤ (l.flatMap fun g => g.members.toList).length := by
  induction l with
  | nil => simp
  | cons g l ih =>
    have here : 2 ≤ g.members.toList.length := several g List.mem_cons_self
    have rest := ih fun h member => several h (List.mem_cons_of_mem _ member)
    rw [List.flatMap_cons, List.length_append, List.length_cons]
    omega

/-- Groups of two or more streams of their own are at most half as many as there are indices. -/
theorem WellFormed.two_mul_size_le {streams : Streams} {r : Redundancy}
    (well : WellFormed streams r) : 2 * r.groups.size ≤ 65536 := by
  have bound : ∀ e ∈ r.groups.toList, r.groups.get? e.1 = some e.2 := by
    intro e member
    exact SortedMap.get?_eq_some_iff.mpr member
  have apart : r.groups.values.Pairwise fun g h => List.Disjoint g.members.toList h.members.toList := by
    refine List.pairwise_map.mpr (r.groups.ascending.imp_of_mem fun {a b} first second lower => ?_)
    intro s left right
    have same := well.disjoint a.1 a.2 b.1 b.2 s (bound a first) (bound b second) left right
    rw [same] at lower
    exact Nat.lt_irrefl _ lower
  have distinct : (r.groups.values.flatMap fun g => g.members.toList).Nodup :=
    List.nodup_flatMap.mpr ⟨fun g _ => g.members.nodup_toList, apart⟩
  have several : ∀ g ∈ r.groups.values, 2 ≤ g.members.size := by
    intro g member
    obtain ⟨i, found⟩ := SortedMap.mem_values.mp member
    exact (well.sound i g found).several
  have least := two_mul_length_le_flatMap several
  have most := nodup_length_le_indices distinct
  have length : r.groups.values.length = r.groups.size := List.length_map _
  omega

theorem WellFormed.toNat_nextIndex {streams : Streams} {r : Redundancy}
    (well : WellFormed streams r) : r.nextIndex.toNat = r.groups.size := by
  have half := well.two_mul_size_le
  have last := congrArg List.getLast? well.numbered
  rw [List.getLast?_map] at last
  unfold nextIndex SortedMap.lastKey?
  cases count : r.groups.size with
  | zero =>
    rw [count, List.range_zero, List.getLast?_nil] at last
    rw [Option.map_eq_none_iff.mp last]
    rfl
  | succ n =>
    rw [count, List.range_succ, List.getLast?_concat] at last
    obtain ⟨key, found, value⟩ := Option.map_eq_some_iff.mp last
    rw [found]
    have below : key ≠ 0xFFFF := by
      intro last
      subst last
      have top : (0xFFFF : UInt16).toNat = 65535 := rfl
      omega
    simp only [below, ↓reduceIte]
    rw [UInt16.toNat_add, value, UInt16.toNat_one]
    exact Nat.mod_eq_of_lt (by omega)

theorem Assembled.soundGroup {streams : Streams} {stream primary : UInt16} {model : StreamStatic}
    {others : List UInt16} {members : SortedMap UInt16 UInt16}
    (declared : streams.get? stream = some model) (names : model.redundantStreams.isEmpty = false)
    (assembled : Assembled streams stream model.redundantStreams.toList members)
    (ordered : members.values = primary :: others) (index : UInt16) :
    SoundGroup streams ⟨index, primary, .ofList (primary :: others)⟩ := by
  have mem_iff : ∀ s, s ∈ SortedSet.ofList (primary :: others) ↔
      s = stream ∨ s ∈ model.redundantStreams := by
    intro s
    rw [SortedSet.mem_ofList, ← ordered]
    exact assembled.mem_values_iff (by simp [declared])
  have pairs := assembled.pairwise_before
  rw [ordered] at pairs
  obtain ⟨first, -⟩ := List.pairwise_cons.mp pairs
  have own : (streams.get? stream).isSome = true := by simp [declared]
  constructor
  case several =>
    obtain ⟨named, member⟩ := List.exists_mem_of_ne_nil model.redundantStreams.toList
      (by simpa [SortedSet.isEmpty] using names)
    have other := (assembled.partner named member).1
    exact SortedSet.two_le_size ((mem_iff named).mpr (.inr member)) ((mem_iff stream).mpr (.inl rfl))
      other
  case present => exact fun s member => assembled.present own ((mem_iff s).mp member)
  case apart =>
    intro a first b second different
    exact assembled.apart own ((mem_iff a).mp first) ((mem_iff b).mp second) different
  case primary_mem =>
    rw [SortedSet.mem_ofList]
    exact List.mem_cons_self
  case lowest =>
    intro s member different
    rw [SortedSet.mem_ofList] at member
    rcases List.mem_cons.mp member with rfl | member
    · exact absurd rfl different
    · exact first s member
  case anchor =>
    refine ⟨stream, (mem_iff stream).mpr (.inl rfl), model, declared, mem_iff, ?_⟩
    intro s member different
    rcases (mem_iff s).mp member with rfl | member
    · exact absurd rfl different
    · exact (assembled.partner s member).2

section AddGroup

variable {streams : Streams} {r : Redundancy} {primary : UInt16} {others : List UInt16}

theorem WellFormed.keys_below (well : WellFormed streams r) :
    ∀ key ∈ r.groups.keys, rank key < rank r.nextIndex := by
  intro key member
  have number : key.toNat ∈ List.range r.groups.size := by
    rw [← well.numbered]
    exact List.mem_map_of_mem member
  show key.toNat < r.nextIndex.toNat
  rw [well.toNat_nextIndex]
  exact List.mem_range.mp number

theorem WellFormed.get?_nextIndex (well : WellFormed streams r) :
    r.groups.get? r.nextIndex = none := by
  cases found : r.groups.get? r.nextIndex with
  | none => rfl
  | some g =>
    have member : r.nextIndex ∈ r.groups.keys := by
      rw [← SortedMap.contains_iff_mem_keys]
      simp [SortedMap.contains, found]
    exact absurd (well.keys_below _ member) (Nat.lt_irrefl _)

theorem WellFormed.get?_addGroup (well : WellFormed streams r) (i : UInt16) (g : RedundantGroup) :
    (r.addGroup (primary :: others)).groups.get? i = some g ↔ r.groups.get? i = some g ∨
      i = r.nextIndex ∧ g = ⟨r.nextIndex, primary, .ofList (primary :: others)⟩ :=
  SortedMap.get?_insert_fresh well.get?_nextIndex

theorem WellFormed.isGrouped_addGroup_iff (well : WellFormed streams r) (s : UInt16) :
    (r.addGroup (primary :: others)).isGrouped s = true ↔
      r.isGrouped s = true ∨ s ∈ primary :: others := by
  simp only [isGrouped_iff, well.get?_addGroup]
  constructor
  · intro grouped
    obtain ⟨i, g, old | ⟨-, rfl⟩, member⟩ := grouped
    · exact .inl ⟨i, g, old, member⟩
    · exact .inr (SortedSet.mem_ofList.mp member)
  · intro grouped
    rcases grouped with ⟨i, g, old, member⟩ | new
    · exact ⟨i, g, .inl old, member⟩
    · exact ⟨_, _, .inr ⟨rfl, rfl⟩, SortedSet.mem_ofList.mpr new⟩

theorem WellFormed.numbered_addGroup (well : WellFormed streams r) :
    (r.addGroup (primary :: others)).groups.keys.map UInt16.toNat =
      List.range (r.addGroup (primary :: others)).groups.size := by
  have entries := SortedMap.toList_insert_of_above well.keys_below
    (⟨r.nextIndex, primary, .ofList (primary :: others)⟩ : RedundantGroup)
  have keys : (r.addGroup (primary :: others)).groups.keys = r.groups.keys ++ [r.nextIndex] := by
    simp only [addGroup, SortedMap.keys, entries, List.map_append, List.map_cons, List.map_nil]
  have size : (r.addGroup (primary :: others)).groups.size = r.groups.size + 1 := by
    rw [← SortedMap.length_keys, keys, List.length_append, SortedMap.length_keys]
    rfl
  rw [keys, size, List.map_append, List.map_cons, List.map_nil, well.numbered, well.toNat_nextIndex,
    List.range_succ]

theorem not_mem_of_free (free : ∀ s ∈ primary :: others, r.isGrouped s = false) {i : UInt16}
    {g : RedundantGroup} {s : UInt16} (found : r.groups.get? i = some g) (member : s ∈ g.members) :
    s ∉ primary :: others := by
  intro new
  have known : r.isGrouped s = true := isGrouped_iff.mpr ⟨i, g, found, member⟩
  rw [free s new] at known
  cases known

theorem WellFormed.separate_addGroup (well : WellFormed streams r)
    (free : ∀ s ∈ primary :: others, r.isGrouped s = false) (first : primary ∉ others) :
    ∀ s ∈ (r.addGroup (primary :: others)).primary, s ∉ (r.addGroup (primary :: others)).secondary := by
  have old : ∀ t, t ∈ r.primary ∨ t ∈ r.secondary → t ∉ primary :: others := by
    intro t member
    obtain ⟨i, g, found, in_g⟩ := (well.union t).mp member
    exact not_mem_of_free free found in_g
  intro s left right
  rcases SortedSet.mem_insert.mp left with rfl | left
  · rcases SortedSet.mem_insertAll.mp right with right | right
    · exact old s (.inr right) List.mem_cons_self
    · exact first right
  · rcases SortedSet.mem_insertAll.mp right with right | right
    · exact well.separate s left right
    · exact old s (.inl left) (List.mem_cons_of_mem _ right)

theorem mem_addGroup_iff (s : UInt16) :
    s ∈ (r.addGroup (primary :: others)).primary ∨ s ∈ (r.addGroup (primary :: others)).secondary ↔
      (s ∈ r.primary ∨ s ∈ r.secondary) ∨ s ∈ primary :: others := by
  simp only [addGroup, SortedSet.mem_insert, SortedSet.mem_insertAll, List.mem_cons]
  tauto

theorem WellFormed.addGroup (well : WellFormed streams r)
    (formed : SoundGroup streams ⟨r.nextIndex, primary, .ofList (primary :: others)⟩)
    (free : ∀ s ∈ primary :: others, r.isGrouped s = false) (first : primary ∉ others) :
    WellFormed streams (r.addGroup (primary :: others)) := by
  have groups : ∀ i g, (r.addGroup (primary :: others)).groups.get? i = some g ↔ _ :=
    well.get?_addGroup
  constructor
  case sound =>
    intro i g found
    rcases (groups i g).mp found with old | ⟨-, rfl⟩
    · exact well.sound i g old
    · exact formed
  case disjoint =>
    intro i g j h s left right in_g in_h
    rcases (groups i g).mp left with old | ⟨rfl, rfl⟩
    · rcases (groups j h).mp right with other | ⟨rfl, rfl⟩
      · exact well.disjoint i g j h s old other in_g in_h
      · exact absurd (SortedSet.mem_ofList.mp in_h) (not_mem_of_free free old in_g)
    · rcases (groups j h).mp right with other | ⟨rfl, rfl⟩
      · exact absurd (SortedSet.mem_ofList.mp in_g) (not_mem_of_free free other in_h)
      · rfl
  case separate => exact well.separate_addGroup free first
  case primaries =>
    intro s
    constructor
    · intro member
      rcases SortedSet.mem_insert.mp member with rfl | member
      · exact ⟨r.nextIndex, _, (groups _ _).mpr (.inr ⟨rfl, rfl⟩), rfl⟩
      · obtain ⟨i, g, found, same⟩ := (well.primaries s).mp member
        exact ⟨i, g, (groups i g).mpr (.inl found), same⟩
    · intro given
      obtain ⟨i, g, found, same⟩ := given
      rcases (groups i g).mp found with old | ⟨rfl, rfl⟩
      · exact SortedSet.mem_insert.mpr (.inr ((well.primaries s).mpr ⟨i, g, old, same⟩))
      · exact SortedSet.mem_insert.mpr (.inl same.symm)
  case union =>
    intro s
    rw [mem_addGroup_iff, well.union]
    constructor
    · intro member
      rcases member with ⟨i, g, found, member⟩ | new
      · exact ⟨i, g, (groups i g).mpr (.inl found), member⟩
      · exact ⟨r.nextIndex, _, (groups _ _).mpr (.inr ⟨rfl, rfl⟩), SortedSet.mem_ofList.mpr new⟩
    · intro given
      obtain ⟨i, g, found, member⟩ := given
      rcases (groups i g).mp found with old | ⟨rfl, rfl⟩
      · exact .inl ⟨i, g, old, member⟩
      · exact .inr (SortedSet.mem_ofList.mp member)
  case virtualIndex =>
    intro i g found
    rcases (groups i g).mp found with old | ⟨rfl, rfl⟩
    · exact well.virtualIndex i g old
    · rfl
  case numbered => exact well.numbered_addGroup

end AddGroup

theorem WellFormed.report {streams : Streams} {r : Redundancy} (well : WellFormed streams r)
    (issue : RedundancyIssue) : WellFormed streams (r.report issue) :=
  ⟨well.sound, well.disjoint, well.separate, well.primaries, well.union, well.virtualIndex,
    well.numbered⟩

/-- One declaration keeps the groups well formed, and leaves every group at its index. -/
theorem WellFormed.addStream {streams : Streams} {r : Redundancy} (well : WellFormed streams r)
    {stream : UInt16} {model : StreamStatic} (declared : streams.get? stream = some model) :
    WellFormed streams (r.addStream streams stream model) ∧ ∀ i g, r.groups.get? i = some g →
      (r.addStream streams stream model).groups.get? i = some g := by
  have outcome := outcome_addStream streams r stream model
  generalize r.addStream streams stream model = after at outcome ⊢
  cases outcome with
  | silent | grouped => exact ⟨well, fun _ _ found => found⟩
  | unsound | conflict => exact ⟨well.report _, fun _ _ found => found⟩
  | @group members names sound free =>
    have assembled := assembled_association declared sound
    have own : stream ∈ members.values := (mem_association_iff declared sound stream).mpr (.inl rfl)
    have pairs := assembled.pairwise_before
    cases ordered : members.values with
    | nil =>
      rw [ordered] at own
      cases own
    | cons primary others =>
      rw [ordered] at pairs free
      have first : primary ∉ others := fun member =>
        ((List.pairwise_cons.mp pairs).1 primary member).ne rfl
      have formed := assembled.soundGroup declared names ordered r.nextIndex
      exact ⟨well.addGroup formed free first, fun i g found => (well.get?_addGroup i g).mpr (.inl found)⟩

/-- A declaration makes a group: it is sound, and none of its streams is in a group yet. -/
structure MakesGroup (streams : Streams) (r : Redundancy) (stream : UInt16) (model : StreamStatic) :
    Prop where
  sound : SoundDeclaration streams stream model
  free : ∀ s, s = stream ∨ s ∈ model.redundantStreams → r.isGrouped s = false

theorem makesGroup_of_free {streams : Streams} {r : Redundancy} {stream : UInt16} {model : StreamStatic}
    {members : SortedMap UInt16 UInt16} (declared : streams.get? stream = some model)
    (names : model.redundantStreams.isEmpty = false)
    (sound : association streams stream model = .ok members)
    (free : ∀ s ∈ members.values, r.isGrouped s = false) : MakesGroup streams r stream model where
  sound := .of_association declared names sound
  free s member := free s ((mem_association_iff declared sound s).mpr member)

theorem WellFormed.isGrouped_addStream_iff {streams : Streams} {r : Redundancy}
    (well : WellFormed streams r) {stream : UInt16} {model : StreamStatic}
    (declared : streams.get? stream = some model) (s : UInt16) :
    (r.addStream streams stream model).isGrouped s = true ↔ r.isGrouped s = true ∨
      MakesGroup streams r stream model ∧ (s = stream ∨ s ∈ model.redundantStreams) := by
  have unchanged : ¬ MakesGroup streams r stream model → (r.isGrouped s = true ↔ r.isGrouped s = true ∨
      MakesGroup streams r stream model ∧ (s = stream ∨ s ∈ model.redundantStreams)) :=
    fun none => (or_iff_left fun made => none made.1).symm
  have outcome := outcome_addStream streams r stream model
  generalize r.addStream streams stream model = next at outcome ⊢
  cases outcome with
  | silent empty =>
    apply unchanged
    intro made
    rw [made.sound.names] at empty
    cases empty
  | unsound names failed =>
    apply unchanged
    intro made
    exact (fault_of_association_error declared failed).not_sound declared made.sound
  | grouped names sound known =>
    apply unchanged
    intro made
    rw [made.free stream (.inl rfl)] at known
    cases known
  | @conflict members other names sound free member taken =>
    apply unchanged
    intro made
    rw [made.free other ((mem_association_iff declared sound other).mp member)] at taken
    cases taken
  | @group members names sound free =>
    have mem_iff := mem_association_iff declared sound
    rw [and_iff_right (makesGroup_of_free declared names sound free), ← mem_iff]
    cases ordered : members.values with
    | nil =>
      have own := (mem_iff stream).mpr (.inl rfl)
      rw [ordered] at own
      cases own
    | cons primary others => exact well.isGrouped_addGroup_iff s

theorem WellFormed.exists_isGrouped {streams : Streams} {r : Redundancy} (well : WellFormed streams r)
    {stream : UInt16} {model : StreamStatic} (declared : streams.get? stream = some model)
    (sound : SoundDeclaration streams stream model) :
    ∃ s, (s = stream ∨ s ∈ model.redundantStreams) ∧
      (r.addStream streams stream model).isGrouped s = true := by
  by_cases taken : ∃ s, (s = stream ∨ s ∈ model.redundantStreams) ∧ r.isGrouped s = true
  · obtain ⟨s, member, grouped⟩ := taken
    exact ⟨s, member, (well.isGrouped_addStream_iff declared s).mpr (.inl grouped)⟩
  · have made : MakesGroup streams r stream model := by
      refine ⟨sound, fun s member => ?_⟩
      rw [← Bool.not_eq_true]
      exact fun grouped => taken ⟨s, member, grouped⟩
    exact ⟨stream, .inl rfl, (well.isGrouped_addStream_iff declared stream).mpr (.inr ⟨made, .inl rfl⟩)⟩

theorem wellFormed_empty (streams : Streams) : WellFormed streams {} := by
  have none : ∀ i g, ({} : Redundancy).groups.get? i ≠ some g := by
    intro i g found
    cases found
  have free : ∀ s, s ∉ (∅ : SortedSet UInt16) := SortedSet.not_mem_empty
  constructor
  case sound => exact fun i g found => absurd found (none i g)
  case disjoint => exact fun i g j h s found => absurd found (none i g)
  case separate => exact fun s member => absurd member (free s)
  case primaries =>
    intro s
    exact ⟨fun member => absurd member (free s), fun ⟨i, g, found, _⟩ => absurd found (none i g)⟩
  case union =>
    intro s
    exact ⟨fun member => absurd member (not_or.mpr ⟨free s, free s⟩),
      fun ⟨i, g, found, _⟩ => absurd found (none i g)⟩
  case virtualIndex => exact fun i g found => absurd found (none i g)
  case numbered => rfl

theorem WellFormed.isRedundant_iff {streams : Streams} {r : Redundancy}
    (well : WellFormed streams r) (s : UInt16) : r.isRedundant s = true ↔ r.isGrouped s = true := by
  rw [isGrouped_iff, ← well.union]
  simp [isRedundant, isPrimary, isSecondary, SortedSet.contains_iff]

def after (streams : Streams) (done : List (UInt16 × StreamStatic)) : Redundancy :=
  done.foldl (fun r e => r.addStream streams e.1 e.2) {}

section After

variable {streams : Streams} {done rest : List (UInt16 × StreamStatic)}

theorem after_concat (e : UInt16 × StreamStatic) :
    after streams (done ++ [e]) = (after streams done).addStream streams e.1 e.2 := by
  simp [after]

theorem wellFormed_after (declared : ∀ e ∈ done, streams.get? e.1 = some e.2) :
    WellFormed streams (after streams done) := by
  induction done using List.reverseRecOn with
  | nil => exact wellFormed_empty streams
  | append_singleton done e ih =>
    have before := ih fun d member => declared d (List.mem_append_left _ member)
    rw [after_concat]
    exact (before.addStream (declared e (by simp))).1

theorem wellFormed_classify (streams : Streams) : WellFormed streams (classify streams) :=
  wellFormed_after fun _ member => SortedMap.get?_eq_some_iff.mpr member

theorem get?_after_append (declared : ∀ e ∈ done ++ rest, streams.get? e.1 = some e.2) {i : UInt16}
    {g : RedundantGroup} (found : (after streams done).groups.get? i = some g) :
    (after streams (done ++ rest)).groups.get? i = some g := by
  induction rest using List.reverseRecOn with
  | nil => simpa using found
  | append_singleton rest e ih =>
    rw [← List.append_assoc] at declared ⊢
    have earlier : ∀ d ∈ done ++ rest, streams.get? d.1 = some d.2 :=
      fun d member => declared d (List.mem_append_left _ member)
    rw [after_concat]
    exact ((wellFormed_after earlier).addStream (declared e (by simp))).2 i g (ih earlier)

/-- A stream is in a group exactly if a declaration that has made one is its own or names it. -/
theorem isGrouped_after_iff (declared : ∀ e ∈ done, streams.get? e.1 = some e.2) (s : UInt16) :
    (after streams done).isGrouped s = true ↔ ∃ before e later, done = before ++ e :: later ∧
      MakesGroup streams (after streams before) e.1 e.2 ∧ (s = e.1 ∨ s ∈ e.2.redundantStreams) := by
  induction done using List.reverseRecOn with
  | nil =>
    constructor
    · intro grouped
      obtain ⟨i, g, found, -⟩ := isGrouped_iff.mp grouped
      cases found
    · intro given
      obtain ⟨before, e, later, split, -⟩ := given
      simp at split
  | append_singleton done last ih =>
    have earlier : ∀ d ∈ done, streams.get? d.1 = some d.2 :=
      fun d member => declared d (List.mem_append_left _ member)
    rw [after_concat, (wellFormed_after earlier).isGrouped_addStream_iff (declared last (by simp)),
      ih earlier]
    constructor
    · intro given
      rcases given with ⟨before, e, later, rfl, made⟩ | made
      · exact ⟨before, e, later ++ [last], by simp, made⟩
      · exact ⟨done, last, [], rfl, made⟩
    · intro given
      obtain ⟨before, e, later, split, made⟩ := given
      rcases concat_eq_append_cons_iff.mp split with ⟨rfl, rfl, -⟩ | ⟨init, -, split⟩
      · exact .inr made
      · exact .inl ⟨before, e, init, split, made⟩

theorem isGrouped_classify_iff (streams : Streams) (s : UInt16) :
    (classify streams).isGrouped s = true ↔ ∃ before e later, streams.toList = before ++ e :: later ∧
      MakesGroup streams (after streams before) e.1 e.2 ∧ (s = e.1 ∨ s ∈ e.2.redundantStreams) :=
  isGrouped_after_iff (fun _ member => SortedMap.get?_eq_some_iff.mpr member) s

end After

/-- The groups of any streams are well formed. A group made for one of the streams is still there at its
index after all of them, and every sound declaration has a stream in a group. -/
theorem classify_well_formed (streams : Streams) :
    WellFormed streams (classify streams) ∧
      (∀ done rest, streams.toList = done ++ rest → ∀ i g,
        (after streams done).groups.get? i = some g → (classify streams).groups.get? i = some g) ∧
      ∀ stream model, streams.get? stream = some model → SoundDeclaration streams stream model →
        ∃ s, (s = stream ∨ s ∈ model.redundantStreams) ∧ (classify streams).isRedundant s = true := by
  have declared : ∀ e ∈ streams.toList, streams.get? e.1 = some e.2 :=
    fun e member => SortedMap.get?_eq_some_iff.mpr member
  have whole : classify streams = after streams streams.toList := rfl
  have well : WellFormed streams (classify streams) := wellFormed_after declared
  have kept : ∀ done rest, streams.toList = done ++ rest → ∀ i g,
      (after streams done).groups.get? i = some g → (classify streams).groups.get? i = some g := by
    intro done rest split i g found
    rw [whole, split]
    exact get?_after_append (split ▸ declared) found
  refine ⟨well, kept, ?_⟩
  intro stream model found sound
  obtain ⟨done, rest, split⟩ := List.append_of_mem (SortedMap.get?_eq_some_iff.mp found)
  have before : WellFormed streams (after streams done) :=
    wellFormed_after fun e member => declared e (by simp [split, member])
  obtain ⟨s, member, known⟩ := before.exists_isGrouped found sound
  obtain ⟨i, g, bound, in_g⟩ := isGrouped_iff.mp known
  have later := kept (done ++ [(stream, model)]) rest (by simp [split]) i g
    (by rw [after_concat]; exact bound)
  exact ⟨s, member, (well.isRedundant_iff s).mpr (isGrouped_iff.mpr ⟨i, g, later, in_g⟩)⟩

end Redundancy

end AvbEntity
