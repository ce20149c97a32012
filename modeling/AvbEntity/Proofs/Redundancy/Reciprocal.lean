import AvbEntity.Proofs.Redundancy.Grouping

namespace AvbEntity

namespace Redundancy

/-- Two or more streams on interfaces of their own, each of which names exactly the others. -/
structure Reciprocal (streams : Streams) (set : SortedSet UInt16) : Prop where
  several : 2 ≤ set.size
  names : ∀ s ∈ set, ∃ model, streams.get? s = some model ∧
    ∀ t, t ∈ model.redundantStreams ↔ t ∈ set ∧ t ≠ s
  apart : ∀ a ∈ set, ∀ b ∈ set, a ≠ b → interface? streams a ≠ interface? streams b

section Reciprocal

variable {streams : Streams} {set : SortedSet UInt16} (reciprocal : Reciprocal streams set)

include reciprocal

theorem Reciprocal.mem_redundantStreams {s : UInt16} {model : StreamStatic} (member : s ∈ set)
    (found : streams.get? s = some model) (t : UInt16) :
    t ∈ model.redundantStreams ↔ t ∈ set ∧ t ≠ s := by
  obtain ⟨declared, known, names⟩ := reciprocal.names s member
  cases known.symm.trans found
  exact names t

theorem Reciprocal.soundDeclaration {s : UInt16} {model : StreamStatic} (member : s ∈ set)
    (found : streams.get? s = some model) : SoundDeclaration streams s model := by
  have names := reciprocal.mem_redundantStreams member found
  constructor
  case names =>
    obtain ⟨t, inside, other⟩ := SortedSet.exists_ne_of_two_le_size reciprocal.several s
    have named : t ∈ model.redundantStreams.toList := (names t).mpr ⟨inside, other⟩
    simpa [SortedSet.isEmpty] using List.ne_nil_of_mem named
  case partner =>
    intro t named
    obtain ⟨inside, other⟩ := (names t).mp named
    obtain ⟨partner, known, back⟩ := reciprocal.names t inside
    exact ⟨other, partner, known, (back s).mpr ⟨member, other.symm⟩⟩
  case apart =>
    apply List.pairwise_cons.mpr
    constructor
    · intro t named
      obtain ⟨inside, other⟩ := (names t).mp named
      exact reciprocal.apart s member t inside other.symm
    · apply model.redundantStreams.nodup_toList.imp_of_mem
      intro a b first second different
      exact reciprocal.apart a ((names a).mp first).1 b ((names b).mp second).1 different

theorem Reciprocal.members_eq {g : RedundantGroup} (sound : SoundGroup streams g) {s : UInt16}
    (member : s ∈ set) (grouped : s ∈ g.members) : g.members = set := by
  obtain ⟨anchor, -, model, found, members, back⟩ := sound.anchor
  have inside : anchor ∈ set := by
    by_cases same : s = anchor
    · exact same ▸ member
    · obtain ⟨other, known, named⟩ := back s grouped same
      exact ((reciprocal.mem_redundantStreams member known anchor).mp named).1
  apply SortedSet.ext_mem
  intro t
  rw [members, reciprocal.mem_redundantStreams inside found]
  constructor
  · intro given
    rcases given with rfl | named
    · exact inside
    · exact named.1
  · intro given
    by_cases same : t = anchor
    · exact .inl same
    · exact .inr ⟨given, same⟩

theorem Reciprocal.isGrouped {r : Redundancy} (well : WellFormed streams r) {s t : UInt16}
    (first : s ∈ set) (second : t ∈ set) (grouped : r.isGrouped s = true) : r.isGrouped t = true := by
  obtain ⟨i, g, found, member⟩ := isGrouped_iff.mp grouped
  have whole := reciprocal.members_eq (well.sound i g found) first member
  exact isGrouped_iff.mpr ⟨i, g, found, whole ▸ second⟩

end Reciprocal

/-- What becomes of a set of streams as declarations are taken: no issue is about one of its streams, and
those that were visited are in a group. -/
structure Spared (set : SortedSet UInt16) (done : List (UInt16 × StreamStatic)) (r : Redundancy) :
    Prop where
  issues : ∀ issue ∈ r.issues, issue.stream ∉ set
  grouped : ∀ e ∈ done, e.1 ∈ set → r.isGrouped e.1 = true

section Spared

variable {streams : Streams} {set : SortedSet UInt16} {done : List (UInt16 × StreamStatic)}
  {r : Redundancy} {stream : UInt16} {model : StreamStatic}

theorem Reciprocal.issues_addStream (reciprocal : Reciprocal streams set) (well : WellFormed streams r)
    (clear : ∀ issue ∈ r.issues, issue.stream ∉ set) (declared : streams.get? stream = some model) :
    ∀ issue ∈ (r.addStream streams stream model).issues, issue.stream ∉ set := by
  have reported : ∀ last : RedundancyIssue, last.stream ∉ set →
      ∀ issue ∈ (r.report last).issues, issue.stream ∉ set := by
    intro last outside issue member
    rcases List.mem_append.mp member with earlier | new
    · exact clear issue earlier
    · rw [List.mem_singleton.mp new]
      exact outside
  have outcome := outcome_addStream streams r stream model
  generalize r.addStream streams stream model = after at outcome ⊢
  cases outcome with
  | silent | grouped => exact clear
  | @unsound issue names failed =>
    apply reported
    rw [(fault_of_association_error declared failed).stream_eq]
    intro member
    obtain ⟨members, sound⟩ := (reciprocal.soundDeclaration member declared).exists_association declared
    cases sound.symm.trans failed
  | @conflict members other names sound free member taken =>
    apply reported
    intro inside
    -- a stream of the set is named by streams of the set only, and then the declaring stream is grouped
    have assembled := assembled_association declared sound
    have own : stream ∈ set := by
      rcases (mem_association_iff declared sound other).mp member with same | named
      · exact same ▸ inside
      · obtain ⟨-, partner, known, back⟩ := assembled.partner other named
        exact ((reciprocal.mem_redundantStreams inside known stream).mp back).1
    have known := reciprocal.isGrouped well inside own taken
    rw [free] at known
    cases known
  | @group members names sound free =>
    cases members.values <;> exact clear

theorem Reciprocal.spared_addStream (reciprocal : Reciprocal streams set) (well : WellFormed streams r)
    (spared : Spared set done r) (declared : streams.get? stream = some model) :
    Spared set (done ++ [(stream, model)]) (r.addStream streams stream model) := by
  obtain ⟨next, kept⟩ := well.addStream declared
  constructor
  case issues => exact reciprocal.issues_addStream well spared.issues declared
  case grouped =>
    intro e visited member
    rcases List.mem_append.mp visited with earlier | last
    · obtain ⟨i, g, found, inside⟩ := isGrouped_iff.mp (spared.grouped e earlier member)
      exact isGrouped_iff.mpr ⟨i, g, kept i g found, inside⟩
    · cases List.mem_singleton.mp last
      have sound := reciprocal.soundDeclaration member declared
      obtain ⟨s, named, grouped⟩ := well.exists_isGrouped declared sound
      have inside : s ∈ set := by
        rcases named with rfl | named
        · exact member
        · exact ((reciprocal.mem_redundantStreams member declared s).mp named).1
      exact reciprocal.isGrouped next inside member grouped

theorem Reciprocal.spared_after (reciprocal : Reciprocal streams set)
    (declared : ∀ e ∈ done, streams.get? e.1 = some e.2) : Spared set done (after streams done) := by
  induction done using List.reverseRecOn with
  | nil =>
    constructor
    · intro issue none
      cases none
    · intro e none
      cases none
  | append_singleton done e ih =>
    have earlier : ∀ d ∈ done, streams.get? d.1 = some d.2 :=
      fun d member => declared d (List.mem_append_left _ member)
    rw [after_concat]
    exact reciprocal.spared_addStream (wellFormed_after earlier) (ih earlier) (declared e (by simp))

end Spared

/-- Streams on interfaces of their own that name exactly each other are a group of their own, whatever else
is declared: the one on the lowest interface is its primary, the others are its secondaries, and no issue
is about any of them. -/
theorem reciprocal_streams_grouped (streams : Streams) (set : SortedSet UInt16)
    (reciprocal : Reciprocal streams set) :
    ∃ i primary, (classify streams).groups.get? i = some ⟨i, primary, set⟩ ∧ primary ∈ set ∧
      (∀ s ∈ set, s ≠ primary → Before streams primary s) ∧
      (∀ s ∈ set, ((classify streams).isPrimary s = true ↔ s = primary) ∧
        ((classify streams).isSecondary s = true ↔ s ≠ primary)) ∧
      ∀ issue ∈ (classify streams).issues, issue.stream ∉ set := by
  have well := wellFormed_classify streams
  have spared : Spared set streams.toList (classify streams) :=
    reciprocal.spared_after fun e member => SortedMap.get?_eq_some_iff.mpr member
  obtain ⟨s, member, -⟩ := SortedSet.exists_ne_of_two_le_size reciprocal.several 0
  obtain ⟨model, declared, -⟩ := reciprocal.names s member
  have grouped := spared.grouped (s, model) (SortedMap.get?_eq_some_iff.mp declared) member
  obtain ⟨i, ⟨number, primary, members⟩, found, inside⟩ := isGrouped_iff.mp grouped
  obtain rfl : number = i := well.virtualIndex i _ found
  obtain rfl : members = set := reciprocal.members_eq (well.sound _ _ found) member inside
  have sound := well.sound _ _ found
  have isPrimary_iff : ∀ t ∈ members, t ∈ (classify streams).primary ↔ t = primary := by
    intro t grouped
    rw [well.primaries]
    constructor
    · intro given
      obtain ⟨j, h, other, rfl⟩ := given
      obtain rfl := well.disjoint _ _ j h _ found other grouped (well.sound j h other).primary_mem
      cases found.symm.trans other
      rfl
    · intro same
      exact ⟨number, _, found, same.symm⟩
  refine ⟨number, primary, found, sound.primary_mem, sound.lowest, ?_, spared.issues⟩
  intro t grouped
  have union := (well.union t).mpr ⟨number, _, found, grouped⟩
  rw [isPrimary, SortedSet.contains_iff, isSecondary, SortedSet.contains_iff, isPrimary_iff t grouped]
  refine ⟨Iff.rfl, ?_⟩
  rw [isPrimary_iff t grouped] at union
  constructor
  · intro secondary same
    exact well.separate t ((isPrimary_iff t grouped).mpr same) secondary
  · intro other
    exact union.resolve_left other

def pairAmongOthers : Streams :=
  .ofList [(0, { redundantStreams := .ofList [2, 4] }),
    (1, { redundantStreams := .ofList [1, 4] }),
    (2, { avbInterface := 1, redundantStreams := .ofList [4] }),
    (3, { redundantStreams := .ofList [5] }),
    (4, { redundantStreams := .ofList [2] }),
    (5, { avbInterface := 2, redundantStreams := .ofList [2, 3, 9] })]

theorem pair_among_others_grouped :
    Reciprocal pairAmongOthers (.ofList [2, 4]) ∧
      (classify pairAmongOthers).isPrimary 4 = true ∧ (classify pairAmongOthers).isSecondary 2 = true ∧
      ∃ i primary, (classify pairAmongOthers).groups.get? i = some ⟨i, primary, .ofList [2, 4]⟩ := by
  have members : ∀ s : UInt16, s ∈ SortedSet.ofList [2, 4] → s = 2 ∨ s = 4 := by simp
  have reciprocal : Reciprocal pairAmongOthers (.ofList [2, 4]) := by
    constructor
    case several => decide
    case names =>
      intro s member
      rcases members s member with rfl | rfl
      all_goals
        refine ⟨_, rfl, fun t => ?_⟩
        simp only [SortedSet.mem_ofList, List.mem_cons, List.not_mem_nil, or_false]
        grind
    case apart =>
      intro a first b second different
      rcases members a first with rfl | rfl <;> rcases members b second with rfl | rfl
      · exact absurd rfl different
      · decide
      · decide
      · exact absurd rfl different
  obtain ⟨i, primary, found, -⟩ :=
    reciprocal_streams_grouped pairAmongOthers (.ofList [2, 4]) reciprocal
  exact ⟨reciprocal, by decide, by decide, i, primary, found⟩

end Redundancy

end AvbEntity
