import AvbEntity.Proofs.Redundancy.Issues
import AvbEntity.Proofs.Redundancy.Reciprocal

namespace AvbEntity

namespace Redundancy

def Exact (streams : Streams) (r : Redundancy) : Prop :=
  ∀ i g, r.groups.get? i = some g → ∀ s ∈ g.members, ∀ t, Names streams s t ↔ t ∈ g.members ∧ t ≠ s

def ConflictsFlagged (streams : Streams) : Prop :=
  (classify streams).issues = [] → Exact streams (classify streams)

def InAssociation (streams : Streams) (declarer s : UInt16) : Prop :=
  ∃ named, Names streams declarer named ∧ (s = declarer ∨ s = named)

/-- No stream is part of two different associations. -/
def Undisputed (streams : Streams) : Prop :=
  ∀ a b s, InAssociation streams a s → InAssociation streams b s →
    ∀ t, InAssociation streams a t → InAssociation streams b t

section Association

variable {streams : Streams} {r : Redundancy}

theorem inAssociation_iff {a : UInt16} {model : StreamStatic} (declared : streams.get? a = some model)
    (names : model.redundantStreams.isEmpty = false) (s : UInt16) :
    InAssociation streams a s ↔ s = a ∨ s ∈ model.redundantStreams := by
  have nonempty : model.redundantStreams.toList ≠ [] := by simpa [SortedSet.isEmpty] using names
  obtain ⟨first, member⟩ := List.exists_mem_of_ne_nil _ nonempty
  constructor
  · intro inside
    obtain ⟨named, ⟨known, again, mentioned⟩, own | same⟩ := inside
    · exact .inl own
    · cases declared.symm.trans again
      exact .inr (same ▸ mentioned)
  · intro given
    rcases given with own | mentioned
    · exact ⟨first, ⟨model, declared, member⟩, .inl own⟩
    · exact ⟨s, ⟨model, declared, mentioned⟩, .inr rfl⟩

theorem SoundGroup.exists_inAssociation {g : RedundantGroup} (sound : SoundGroup streams g) :
    ∃ a, ∀ s, s ∈ g.members ↔ InAssociation streams a s := by
  obtain ⟨a, -, model, declared, members, -⟩ := sound.anchor
  obtain ⟨other, member, different⟩ := SortedSet.exists_ne_of_two_le_size sound.several a
  have named := ((members other).mp member).resolve_left different
  have names : Names streams a other := ⟨model, declared, named⟩
  refine ⟨a, fun s => ?_⟩
  rw [members, inAssociation_iff declared (names.not_isEmpty declared)]

theorem Exact.inAssociation_iff (exact : Exact streams r) {a named i : UInt16} {g : RedundantGroup}
    (names : Names streams a named) (found : r.groups.get? i = some g) (member : a ∈ g.members)
    (s : UInt16) : InAssociation streams a s ↔ s ∈ g.members := by
  have names_iff := exact i g found a member
  constructor
  · intro inside
    obtain ⟨t, mentions, own | same⟩ := inside
    · exact own ▸ member
    · exact same ▸ ((names_iff t).mp mentions).1
  · intro grouped
    by_cases own : s = a
    · exact ⟨named, names, .inl own⟩
    · exact ⟨s, (names_iff s).mpr ⟨grouped, own⟩, .inr rfl⟩

theorem Exact.undisputed (exact : Exact streams r) (well : WellFormed streams r)
    (grouped : ∀ s t, Names streams s t → r.isGrouped s = true) : Undisputed streams := by
  have whole : ∀ a s, InAssociation streams a s →
      ∃ i g, r.groups.get? i = some g ∧ ∀ t, InAssociation streams a t ↔ t ∈ g.members := by
    intro a s inside
    obtain ⟨named, names, -⟩ := inside
    obtain ⟨i, g, found, member⟩ := isGrouped_iff.mp (grouped a named names)
    exact ⟨i, g, found, exact.inAssociation_iff names found member⟩
  intro a b s inA inB t member
  obtain ⟨i, g, foundA, membersA⟩ := whole a s inA
  obtain ⟨j, h, foundB, membersB⟩ := whole b s inB
  obtain rfl := well.disjoint i g j h s foundA foundB ((membersA s).mp inA) ((membersB s).mp inB)
  cases foundA.symm.trans foundB
  exact (membersB t).mpr ((membersA t).mp member)

end Association

section Faultless

variable {streams : Streams} (faultless : ∀ s, ¬ Faulty streams s)

include faultless

theorem soundDeclaration_of_names {s t : UInt16} {model : StreamStatic} (names : Names streams s t)
    (declared : streams.get? s = some model) : SoundDeclaration streams s model := by
  by_contra unsound
  exact faultless s ⟨model, declared, names.not_isEmpty declared, unsound⟩

theorem partner_of_names {s t : UInt16} (names : Names streams s t) : Partner streams s t := by
  obtain ⟨model, declared, member⟩ := id names
  exact (soundDeclaration_of_names faultless names declared).partner t member

theorem names_iff {s t : UInt16} : Names streams s t ↔ InAssociation streams s t ∧ t ≠ s := by
  constructor
  · intro names
    exact ⟨⟨t, names, .inr rfl⟩, (partner_of_names faultless names).1⟩
  · intro given
    obtain ⟨⟨named, names, own | same⟩, different⟩ := given
    · exact absurd own different
    · exact same ▸ names

theorem inAssociation_self {a s : UInt16} (inside : InAssociation streams a s) :
    InAssociation streams s s := by
  obtain ⟨named, names, own | same⟩ := inside
  · exact ⟨named, own ▸ names, .inl rfl⟩
  · exact ⟨a, same ▸ (partner_of_names faultless names).2, .inl rfl⟩

section Undisputed

variable (undisputed : Undisputed streams)

include undisputed

theorem inAssociation_congr {a s : UInt16} (inside : InAssociation streams a s) (t : UInt16) :
    InAssociation streams s t ↔ InAssociation streams a t := by
  have own := inAssociation_self faultless inside
  exact ⟨undisputed s a s own inside t, undisputed a s s inside own t⟩

theorem exact_of_undisputed {r : Redundancy} (well : WellFormed streams r) : Exact streams r := by
  intro i g found s member t
  obtain ⟨a, members⟩ := (well.sound i g found).exists_inAssociation
  rw [names_iff faultless, members,
    inAssociation_congr faultless undisputed ((members s).mp member)]

theorem reciprocal_of_names {s t : UInt16} {model : StreamStatic} (names : Names streams s t)
    (declared : streams.get? s = some model) : Reciprocal streams (model.redundantStreams.insert s) := by
  have sound := soundDeclaration_of_names faultless names declared
  have mem_iff : ∀ u, u ∈ model.redundantStreams.insert s ↔ InAssociation streams s u := by
    intro u
    rw [SortedSet.mem_insert, inAssociation_iff declared (names.not_isEmpty declared)]
  constructor
  case several =>
    exact SortedSet.two_le_size ((mem_iff t).mpr ⟨t, names, .inr rfl⟩)
      ((mem_iff s).mpr ⟨t, names, .inl rfl⟩) (partner_of_names faultless names).1
  case names =>
    -- every stream of the association declares one itself, and with a stream in common it is the same
    intro u member
    have inside := (mem_iff u).mp member
    obtain ⟨named, mentions, -⟩ := inAssociation_self faultless inside
    obtain ⟨other, found, -⟩ := id mentions
    refine ⟨other, found, fun v => ?_⟩
    rw [mem_iff, ← inAssociation_congr faultless undisputed inside, ← names_iff faultless]
    constructor
    · intro mentioned
      exact ⟨other, found, mentioned⟩
    · intro given
      obtain ⟨known, again, mentioned⟩ := given
      cases found.symm.trans again
      exact mentioned
  case apart =>
    intro a first b second different
    obtain ⟨members, associated⟩ := sound.exists_association declared
    exact (assembled_association declared associated).apart (by simp [declared])
      (SortedSet.mem_insert.mp first) (SortedSet.mem_insert.mp second) different

theorem issues_eq_nil_of_undisputed : (classify streams).issues = [] := by
  apply List.eq_nil_iff_forall_not_mem.mpr
  intro issue reported
  obtain ⟨visited, justified⟩ := exists_justified reported
  cases justified with
  | fault fault => exact faultless visited fault.faulty
  | @conflict s i g names back found inside outside =>
    obtain ⟨model, declared, named⟩ := id names
    have reciprocal := reciprocal_of_names faultless undisputed names declared
    have spared : Spared _ streams.toList (classify streams) :=
      reciprocal.spared_after fun e member => SortedMap.get?_eq_some_iff.mpr member
    exact spared.issues _ reported (SortedSet.mem_insert.mpr (.inr named))

end Undisputed

end Faultless

section Silent

variable {streams : Streams} (silent : (classify streams).issues = [])

include silent

theorem faultless_of_silent (s : UInt16) : ¬ Faulty streams s := by
  intro faulty
  obtain ⟨issue, reported, -⟩ := (faulty_iff_reported streams s).mp faulty
  rw [silent] at reported
  cases reported

theorem isGrouped_of_silent {s t : UInt16} (names : Names streams s t) :
    (classify streams).isGrouped s = true := by
  obtain ⟨model, declared, -⟩ := id names
  have sound := soundDeclaration_of_names (faultless_of_silent silent) names declared
  have settled := (accounted_classify streams).settled (s, model) (SortedMap.get?_eq_some_iff.mp declared)
  rcases settled.sound sound with grouped | ⟨u, -, -, reported⟩
  · exact grouped
  · rw [silent] at reported
    cases reported

theorem exact_iff_undisputed : Exact streams (classify streams) ↔ Undisputed streams := by
  have well := wellFormed_classify streams
  constructor
  · intro exact
    exact exact.undisputed well fun s t => isGrouped_of_silent silent
  · intro undisputed
    exact exact_of_undisputed (faultless_of_silent silent) undisputed well

end Silent

/-- A group without an issue is what its streams declare exactly if no two different associations share a
stream without an issue. There is no issue and every group is what its streams declare exactly if no
declaration is at fault and no two different associations share a stream. -/
theorem conflicts_flagged_iff (streams : Streams) :
    (ConflictsFlagged streams ↔ ((classify streams).issues = [] → Undisputed streams)) ∧
      ((classify streams).issues = [] ∧ Exact streams (classify streams) ↔
        (∀ s, ¬ Faulty streams s) ∧ Undisputed streams) := by
  constructor
  · exact forall_congr' fun silent => exact_iff_undisputed silent
  · constructor
    · intro given
      obtain ⟨silent, exact⟩ := given
      exact ⟨faultless_of_silent silent, (exact_iff_undisputed silent).mp exact⟩
    · intro given
      obtain ⟨faultless, undisputed⟩ := given
      have silent := issues_eq_nil_of_undisputed faultless undisputed
      exact ⟨silent, (exact_iff_undisputed silent).mpr undisputed⟩

def sharedFirst : Streams :=
  .ofList [(0, { redundantStreams := .ofList [1, 2] }),
    (1, { avbInterface := 1, redundantStreams := .ofList [0] }),
    (2, { avbInterface := 2, redundantStreams := .ofList [0] })]

theorem shared_first_stream_unflagged :
    (classify sharedFirst).issues = [] ∧
      (classify sharedFirst).groups.get? 0 = some ⟨0, 0, .ofList [0, 1, 2]⟩ ∧
      ¬ ConflictsFlagged sharedFirst := by
  have silent : (classify sharedFirst).issues = [] := by decide
  have found : (classify sharedFirst).groups.get? 0 = some ⟨0, 0, .ofList [0, 1, 2]⟩ := by decide
  refine ⟨silent, found, fun flagged => ?_⟩
  obtain ⟨model, declared, named⟩ :=
    (flagged silent 0 _ found 1 (by decide) 2).mpr ⟨by decide, by decide⟩
  cases declared
  exact absurd named (by decide)

end Redundancy

end AvbEntity
