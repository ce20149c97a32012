import AvbEntity.Proofs.Redundancy.Grouping
import Mathlib.Data.List.Forall2

namespace AvbEntity

namespace Redundancy

inductive Justified (streams : Streams) (r : Redundancy) (visited : UInt16) : RedundancyIssue → Prop where
  | fault {issue : RedundancyIssue} (fault : Fault streams visited issue) :
    Justified streams r visited issue
  | conflict {s i : UInt16} {g : RedundantGroup} (names : Names streams visited s)
    (back : Names streams s visited) (found : r.groups.get? i = some g) (inside : s ∈ g.members)
    (outside : visited ∉ g.members) : Justified streams r visited (.multipleAssociations s)

/-- What has become of a declaration: if it is at fault, that is reported; if not, its stream is in a group,
or a stream that it names is, and that is reported. -/
structure Settled (streams : Streams) (r : Redundancy) (stream : UInt16) (model : StreamStatic) :
    Prop where
  faulty : model.redundantStreams.isEmpty = false → ¬ SoundDeclaration streams stream model →
    ∃ issue ∈ r.issues, Fault streams stream issue
  sound : SoundDeclaration streams stream model → r.isGrouped stream = true ∨
    ∃ s ∈ model.redundantStreams, r.isGrouped s = true ∧ .multipleAssociations s ∈ r.issues

/-- The declarations taken so far are settled, and each issue is justified by the one of them that has
raised it. -/
structure Accounted (streams : Streams) (done : List (UInt16 × StreamStatic)) (r : Redundancy) :
    Prop where
  settled : ∀ e ∈ done, Settled streams r e.1 e.2
  raised : ∃ visited, visited.Sublist (done.map Prod.fst) ∧
    List.Forall₂ (Justified streams r) visited r.issues

section Step

variable {streams : Streams} {r next : Redundancy} {done : List (UInt16 × StreamStatic)}
  {stream : UInt16} {model : StreamStatic}

theorem Justified.of_groups {issue : RedundancyIssue} (justified : Justified streams r stream issue)
    (groups : ∀ i g, r.groups.get? i = some g → next.groups.get? i = some g) :
    Justified streams next stream issue := by
  cases justified with
  | fault fault => exact .fault fault
  | conflict names back found inside outside =>
    exact .conflict names back (groups _ _ found) inside outside

theorem Settled.extend (settled : Settled streams r stream model) {new : Option RedundancyIssue}
    (groups : ∀ i g, r.groups.get? i = some g → next.groups.get? i = some g)
    (issues : next.issues = r.issues ++ new.toList) : Settled streams next stream model := by
  have grouped : ∀ s, r.isGrouped s = true → next.isGrouped s = true := by
    intro s known
    obtain ⟨i, g, found, member⟩ := isGrouped_iff.mp known
    exact isGrouped_iff.mpr ⟨i, g, groups i g found, member⟩
  have reported : ∀ issue ∈ r.issues, issue ∈ next.issues := by
    intro issue earlier
    rw [issues]
    exact List.mem_append_left _ earlier
  constructor
  case faulty =>
    intro names unsound
    obtain ⟨issue, earlier, fault⟩ := settled.faulty names unsound
    exact ⟨issue, reported issue earlier, fault⟩
  case sound =>
    intro sound
    rcases settled.sound sound with known | ⟨s, named, known, conflict⟩
    · exact .inl (grouped stream known)
    · exact .inr ⟨s, named, grouped s known, reported _ conflict⟩

theorem Settled.of_sound (sound : SoundDeclaration streams stream model)
    (grouped : r.isGrouped stream = true ∨
      ∃ s ∈ model.redundantStreams, r.isGrouped s = true ∧ .multipleAssociations s ∈ r.issues) :
    Settled streams r stream model :=
  ⟨fun _ unsound => absurd sound unsound, fun _ => grouped⟩

theorem Accounted.extend (accounted : Accounted streams done r) (new : Option RedundancyIssue)
    (groups : ∀ i g, r.groups.get? i = some g → next.groups.get? i = some g)
    (issues : next.issues = r.issues ++ new.toList) (settled : Settled streams next stream model)
    (justified : ∀ issue ∈ new, Justified streams next stream issue) :
    Accounted streams (done ++ [(stream, model)]) next := by
  constructor
  case settled =>
    intro e member
    rcases List.mem_append.mp member with earlier | last
    · exact (accounted.settled e earlier).extend groups issues
    · rw [List.mem_singleton.mp last]
      exact settled
  case raised =>
    obtain ⟨visited, among, before⟩ := accounted.raised
    have kept : List.Forall₂ (Justified streams next) visited r.issues :=
      before.imp fun _ _ earlier => earlier.of_groups groups
    rw [issues, List.map_append]
    cases new with
    | none => exact ⟨visited, among.trans (List.sublist_append_left _ _), by simpa using kept⟩
    | some issue =>
      refine ⟨visited ++ [stream], among.append (List.Sublist.refl _), ?_⟩
      exact List.rel_append kept (.cons (justified issue rfl) .nil)

theorem Accounted.addStream (accounted : Accounted streams done r) (well : WellFormed streams r)
    (declared : streams.get? stream = some model) :
    Accounted streams (done ++ [(stream, model)]) (r.addStream streams stream model) := by
  have groups := (well.addStream declared).2
  have grouped_iff := well.isGrouped_addStream_iff declared
  have outcome := outcome_addStream streams r stream model
  generalize r.addStream streams stream model = next at outcome groups grouped_iff ⊢
  cases outcome with
  | silent empty =>
    have settled : Settled streams r stream model := by
      constructor
      · intro names
        rw [empty] at names
        cases names
      · intro sound
        rw [sound.names] at empty
        cases empty
    exact accounted.extend none groups (by simp) settled (by simp)
  | @unsound issue names failed =>
    have fault := fault_of_association_error declared failed
    have settled : Settled streams (r.report issue) stream model :=
      ⟨fun _ _ => ⟨issue, by simp [report], fault⟩, fun sound => absurd sound (fault.not_sound declared)⟩
    refine accounted.extend (some issue) groups rfl settled ?_
    intro other same
    cases same
    exact .fault fault
  | grouped names associated known =>
    have sound := SoundDeclaration.of_association declared names associated
    exact accounted.extend none groups (by simp) (.of_sound sound (.inl known)) (by simp)
  | @conflict members other names associated free member taken =>
    have sound := SoundDeclaration.of_association declared names associated
    -- the stream itself is in no group, so the one in conflict is one that it names
    have named : other ∈ model.redundantStreams := by
      rcases (mem_association_iff declared associated other).mp member with same | named
      · rw [same, free] at taken
        cases taken
      · exact named
    have settled : Settled streams (r.report (.multipleAssociations other)) stream model :=
      .of_sound sound (.inr ⟨other, named, taken, by simp [report]⟩)
    refine accounted.extend (some (.multipleAssociations other)) groups rfl settled ?_
    intro issue same
    cases same
    obtain ⟨i, g, found, inside⟩ := isGrouped_iff.mp taken
    refine .conflict ⟨model, declared, named⟩ (sound.partner other named).2 found inside ?_
    intro own
    rw [isGrouped_iff.mpr ⟨i, g, found, own⟩] at free
    cases free
  | @group members names associated free =>
    have made := makesGroup_of_free declared names associated free
    have known := (grouped_iff stream).mpr (.inr ⟨made, .inl rfl⟩)
    have issues : (r.addGroup members.values).issues = r.issues ++ (none : Option RedundancyIssue).toList := by
      cases members.values <;> simp [addGroup]
    exact accounted.extend none groups issues (.of_sound made.sound (.inl known)) (by simp)

end Step

theorem accounted_after {streams : Streams} {done : List (UInt16 × StreamStatic)}
    (declared : ∀ e ∈ done, streams.get? e.1 = some e.2) :
    Accounted streams done (after streams done) := by
  induction done using List.reverseRecOn with
  | nil => exact ⟨fun e none => absurd none List.not_mem_nil, [], .refl _, .nil⟩
  | append_singleton done e ih =>
    have earlier : ∀ d ∈ done, streams.get? d.1 = some d.2 :=
      fun d member => declared d (List.mem_append_left _ member)
    rw [after_concat]
    exact (ih earlier).addStream (wellFormed_after earlier) (declared e (by simp))

theorem accounted_classify (streams : Streams) :
    Accounted streams streams.toList (classify streams) :=
  accounted_after fun _ member => SortedMap.get?_eq_some_iff.mpr member

theorem exists_of_mem_forall₂ {α β : Type} {R : α → β → Prop} {l : List α} {m : List β}
    (related : List.Forall₂ R l m) {b : β} (member : b ∈ m) : ∃ a ∈ l, R a b := by
  induction related with
  | nil => cases member
  | @cons a c l m first _ ih =>
    rcases List.mem_cons.mp member with rfl | later
    · exact ⟨a, List.mem_cons_self, first⟩
    · obtain ⟨d, inside, holds⟩ := ih later
      exact ⟨d, List.mem_cons_of_mem _ inside, holds⟩

theorem exists_justified {streams : Streams} {issue : RedundancyIssue}
    (reported : issue ∈ (classify streams).issues) :
    ∃ visited, Justified streams (classify streams) visited issue := by
  obtain ⟨visited, -, raised⟩ := (accounted_classify streams).raised
  obtain ⟨s, -, justified⟩ := exists_of_mem_forall₂ raised reported
  exact ⟨s, justified⟩

theorem not_isGrouped_of_isEmpty {streams : Streams} {s : UInt16} {model : StreamStatic}
    (declared : streams.get? s = some model) (empty : model.redundantStreams.isEmpty = true) :
    (classify streams).isGrouped s = false := by
  rw [← Bool.not_eq_true]
  intro grouped
  obtain ⟨before, e, later, split, made, own | named⟩ := (isGrouped_classify_iff streams s).mp grouped
  · have found : streams.get? e.1 = some e.2 := SortedMap.get?_eq_some_iff.mpr (by simp [split])
    rw [← own, declared] at found
    cases found
    rw [made.sound.names] at empty
    cases empty
  · have back : Names streams s e.1 := (made.sound.partner s named).2
    rw [back.not_isEmpty declared] at empty
    cases empty

/-- Every declaration is accounted for, and every issue is true. A stream that names others is in a group,
or what is wrong in its declaration is reported, or it names a stream that is in a group and reported to be
in conflict; a stream that names none is in no group. The issues stand in the order of the streams whose
declarations have raised them, one for each of these, and each is justified by that declaration. -/
theorem declarations_accounted (streams : Streams) :
    (∀ s model, streams.get? s = some model → model.redundantStreams.isEmpty = false →
      (classify streams).isGrouped s = true ∨
        (∃ issue ∈ (classify streams).issues, Fault streams s issue) ∨
        ∃ t ∈ model.redundantStreams, (classify streams).isGrouped t = true ∧
          .multipleAssociations t ∈ (classify streams).issues) ∧
      (∀ s model, streams.get? s = some model → model.redundantStreams.isEmpty = true →
        (classify streams).isGrouped s = false) ∧
      ∃ visited : List UInt16, visited.Pairwise (· < ·) ∧
        List.Forall₂ (Justified streams (classify streams)) visited (classify streams).issues := by
  have accounted := accounted_classify streams
  refine ⟨?_, fun s model => not_isGrouped_of_isEmpty, ?_⟩
  · intro s model declared names
    have settled := accounted.settled (s, model) (SortedMap.get?_eq_some_iff.mp declared)
    by_cases sound : SoundDeclaration streams s model
    · rcases settled.sound sound with grouped | conflict
      · exact .inl grouped
      · exact .inr (.inr conflict)
    · exact .inr (.inl (settled.faulty names sound))
  · obtain ⟨visited, among, raised⟩ := accounted.raised
    have order : (streams.toList.map Prod.fst).Pairwise (· < ·) :=
      List.pairwise_map.mpr (streams.ascending.imp fun lower => UInt16.lt_iff_toNat_lt.mpr lower)
    exact ⟨visited, order.sublist among, raised⟩

def RejectedLeftOut (r : Redundancy) : Prop :=
  ∀ issue ∈ r.issues, issue ≠ .multipleAssociations issue.stream →
    issue.stream ∉ r.primary ∧ issue.stream ∉ r.secondary ∧
      ∀ i g, r.groups.get? i = some g → issue.stream ∉ g.members

theorem faulty_iff_reported (streams : Streams) (s : UInt16) :
    Faulty streams s ↔ ∃ issue ∈ (classify streams).issues,
      issue.stream = s ∧ issue ≠ .multipleAssociations issue.stream := by
  constructor
  · intro faulty
    obtain ⟨model, declared, names, unsound⟩ := faulty
    have settled := (accounted_classify streams).settled (s, model) (SortedMap.get?_eq_some_iff.mp declared)
    obtain ⟨issue, reported, fault⟩ := settled.faulty names unsound
    exact ⟨issue, reported, fault.stream_eq, fault.ne_multipleAssociations _⟩
  · intro given
    obtain ⟨issue, reported, rfl, different⟩ := given
    obtain ⟨visited, justified⟩ := exists_justified reported
    cases justified with
    | fault fault => exact fault.stream_eq ▸ fault.faulty
    | conflict => exact absurd rfl different

theorem WellFormed.left_out_iff {streams : Streams} {r : Redundancy} (well : WellFormed streams r)
    (s : UInt16) : (s ∉ r.primary ∧ s ∉ r.secondary ∧ ∀ i g, r.groups.get? i = some g → s ∉ g.members) ↔
      ¬ r.isGrouped s = true := by
  have union := well.union s
  rw [isGrouped_iff]
  constructor
  · intro left grouped
    obtain ⟨i, g, found, member⟩ := grouped
    exact left.2.2 i g found member
  · intro free
    refine ⟨fun first => free (union.mp (.inl first)), fun second => free (union.mp (.inr second)), ?_⟩
    exact fun i g found member => free ⟨i, g, found, member⟩

theorem Faulty.isGrouped_iff {streams : Streams} {s : UInt16} (faulty : Faulty streams s) :
    (classify streams).isGrouped s = true ↔ ∃ before e later, streams.toList = before ++ e :: later ∧
      MakesGroup streams (after streams before) e.1 e.2 ∧ s ∈ e.2.redundantStreams := by
  rw [isGrouped_classify_iff]
  constructor
  · intro given
    obtain ⟨before, e, later, split, made, own | named⟩ := given
    · obtain ⟨model, declared, -, unsound⟩ := faulty
      have found : streams.get? e.1 = some e.2 := SortedMap.get?_eq_some_iff.mpr (by simp [split])
      rw [← own] at found
      cases declared.symm.trans found
      exact absurd (own ▸ made.sound) unsound
    · exact ⟨before, e, later, split, made, named⟩
  · intro given
    obtain ⟨before, e, later, split, made, named⟩ := given
    exact ⟨before, e, later, split, made, .inr named⟩

/-- The streams whose declarations are reported to be at fault are left out of all groups exactly if no
declaration that makes a group names one of them. -/
theorem rejected_left_out_iff (streams : Streams) :
    RejectedLeftOut (classify streams) ↔
      ∀ before e later, streams.toList = before ++ e :: later →
        MakesGroup streams (after streams before) e.1 e.2 →
        ∀ s ∈ e.2.redundantStreams, ¬ Faulty streams s := by
  have left_out_iff := (wellFormed_classify streams).left_out_iff
  constructor
  · intro leftOut before e later split made s named faulty
    obtain ⟨issue, reported, rfl, different⟩ := (faulty_iff_reported streams s).mp faulty
    apply (left_out_iff _).mp (leftOut issue reported different)
    exact faulty.isGrouped_iff.mpr ⟨before, e, later, split, made, named⟩
  · intro spared issue reported different
    have faulty := (faulty_iff_reported streams issue.stream).mpr ⟨issue, reported, rfl, different⟩
    refine (left_out_iff _).mpr fun grouped => ?_
    obtain ⟨before, e, later, split, made, named⟩ := faulty.isGrouped_iff.mp grouped
    exact spared before e later split made _ named faulty

def partnerOfMissing : Streams :=
  .ofList [(0, { redundantStreams := .ofList [1] }),
    (1, { avbInterface := 1, redundantStreams := .ofList [0, 9] })]

theorem rejected_stream_is_secondary :
    (classify partnerOfMissing).issues = [.unknownStream 1 9] ∧
      (classify partnerOfMissing).isSecondary 1 = true ∧ ¬ RejectedLeftOut (classify partnerOfMissing) := by
  have issues : (classify partnerOfMissing).issues = [.unknownStream 1 9] := by decide
  have inside : (classify partnerOfMissing).isSecondary 1 = true := by decide
  refine ⟨issues, inside, fun leftOut => ?_⟩
  have out := leftOut (.unknownStream 1 9) (by simp [issues]) (by decide)
  exact out.2.1 (SortedSet.contains_iff.mp inside)

end Redundancy

end AvbEntity
