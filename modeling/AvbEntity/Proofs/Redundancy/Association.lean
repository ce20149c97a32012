import AvbEntity.Graph.Redundancy
import Mathlib.Data.List.Pairwise

namespace AvbEntity

open OrderedKey

def RedundancyIssue.stream : RedundancyIssue → UInt16
  | .selfReference stream | .unknownStream stream _ | .notReciprocal stream _
  | .sharedInterface stream _ _ | .multipleAssociations stream => stream

namespace Redundancy

def Names (streams : Streams) (stream referenced : UInt16) : Prop :=
  ∃ model, streams.get? stream = some model ∧ referenced ∈ model.redundantStreams

def interface? (streams : Streams) (stream : UInt16) : Option UInt16 :=
  (streams.get? stream).map StreamStatic.avbInterface

def Before (streams : Streams) (a b : UInt16) : Prop :=
  ∃ i j, interface? streams a = some i ∧ interface? streams b = some j ∧ i < j

def Partner (streams : Streams) (stream referenced : UInt16) : Prop :=
  referenced ≠ stream ∧
    ∃ other, streams.get? referenced = some other ∧ stream ∈ other.redundantStreams

/-- Whether a declaration makes sense: it names partners only, at least one, and no two of its streams
share an interface. -/
structure SoundDeclaration (streams : Streams) (stream : UInt16) (model : StreamStatic) : Prop where
  names : model.redundantStreams.isEmpty = false
  partner : ∀ s ∈ model.redundantStreams, Partner streams stream s
  apart : (stream :: model.redundantStreams.toList).Pairwise fun a b =>
    interface? streams a ≠ interface? streams b

/-- The members found for a declaration after some of the streams it names: the declaring stream and the
named ones, by their interfaces. -/
structure Assembled (streams : Streams) (stream : UInt16) (named : List UInt16)
    (members : SortedMap UInt16 UInt16) : Prop where
  get?_iff : ∀ i s, members.get? i = some s ↔
    (s = stream ∨ s ∈ named) ∧ interface? streams s = some i
  partner : ∀ s ∈ named, Partner streams stream s

/-- What an issue about the declaration of a stream says. The streams that it names are looked at in
ascending order. -/
inductive Fault (streams : Streams) (stream : UInt16) : RedundancyIssue → Prop where
  | selfReference (names : Names streams stream stream) : Fault streams stream (.selfReference stream)
  | unknownStream {referenced : UInt16} (names : Names streams stream referenced)
    (absent : streams.get? referenced = none) :
    Fault streams stream (.unknownStream stream referenced)
  | notReciprocal {referenced : UInt16} (names : Names streams stream referenced)
    (present : (streams.get? referenced).isSome = true) (silent : ¬ Names streams referenced stream) :
    Fault streams stream (.notReciprocal stream referenced)
  | sharedInterface {referenced i earlier : UInt16} (names : Names streams stream referenced)
    (interface : interface? streams referenced = some i)
    (member : earlier = stream ∨ Names streams stream earlier ∧ earlier < referenced)
    (different : earlier ≠ referenced) (same : interface? streams earlier = some i) :
    Fault streams stream (.sharedInterface stream referenced i)

theorem Before.ne {streams : Streams} {a b : UInt16} (before : Before streams a b) : a ≠ b := by
  intro same
  subst same
  obtain ⟨i, j, first, second, lower⟩ := before
  rw [first] at second
  cases second
  exact UInt16.lt_irrefl i lower

theorem addMember_ok {streams : Streams} {stream referenced : UInt16}
    {members result : SortedMap UInt16 UInt16}
    (added : addMember streams stream members referenced = .ok result) :
    Partner streams stream referenced ∧ ∃ i, interface? streams referenced = some i ∧
      members.get? i = none ∧ result = members.insert i referenced := by
  unfold addMember at added
  split at added
  · cases added
  · rename_i different
    split at added
    · cases added
    · rename_i other found
      split at added
      · cases added
      · rename_i named
        split at added
        · cases added
        · rename_i free
          have back : stream ∈ other.redundantStreams := by
            simpa [SortedSet.contains_iff] using named
          have unused : members.get? other.avbInterface = none := by
            simpa [SortedMap.contains] using free
          refine ⟨⟨different, other, found, back⟩, other.avbInterface, ?_, unused, ?_⟩
          · simp [interface?, found]
          · exact (Except.ok.inj added).symm

theorem Assembled.addMember {streams : Streams} {stream referenced : UInt16} {named : List UInt16}
    {members result : SortedMap UInt16 UInt16} (assembled : Assembled streams stream named members)
    (added : addMember streams stream members referenced = .ok result) :
    Assembled streams stream (named ++ [referenced]) result := by
  obtain ⟨partner, i, interface, unused, rfl⟩ := addMember_ok added
  constructor
  · intro j s
    rw [SortedMap.get?_insert_fresh unused, assembled.get?_iff]
    constructor
    · intro bound
      rcases bound with ⟨member, at_j⟩ | ⟨rfl, rfl⟩
      · exact ⟨member.imp_right fun earlier => List.mem_append_left _ earlier, at_j⟩
      · exact ⟨.inr (List.mem_append_right _ List.mem_cons_self), interface⟩
    · intro given
      obtain ⟨first | member, at_j⟩ := given
      · exact .inl ⟨.inl first, at_j⟩
      · rcases List.mem_append.mp member with earlier | last
        · exact .inl ⟨.inr earlier, at_j⟩
        · have same := List.mem_singleton.mp last
          rw [same, interface] at at_j
          exact .inr ⟨(Option.some.inj at_j).symm, same⟩
  · intro s member
    rcases List.mem_append.mp member with earlier | last
    · exact assembled.partner s earlier
    · rw [List.mem_singleton.mp last]
      exact partner

theorem Assembled.foldlM {streams : Streams} {stream : UInt16} {named rest : List UInt16}
    {members result : SortedMap UInt16 UInt16} (assembled : Assembled streams stream named members)
    (added : rest.foldlM (Redundancy.addMember streams stream) members = .ok result) :
    Assembled streams stream (named ++ rest) result := by
  induction rest generalizing named members with
  | nil =>
    cases added
    simpa using assembled
  | cons referenced rest ih =>
    rw [List.foldlM_cons] at added
    cases step : Redundancy.addMember streams stream members referenced with
    | error issue =>
      rw [step] at added
      cases added
    | ok middle =>
      rw [step] at added
      have later := ih (assembled.addMember step) added
      simpa using later

theorem addMember_of_partner {streams : Streams} {stream referenced : UInt16} {i : UInt16}
    {members : SortedMap UInt16 UInt16} (partner : Partner streams stream referenced)
    (interface : interface? streams referenced = some i) (unused : members.get? i = none) :
    addMember streams stream members referenced = .ok (members.insert i referenced) := by
  obtain ⟨different, other, found, back⟩ := partner
  have at_i : other.avbInterface = i := by
    simpa [interface?, found] using interface
  subst at_i
  have named : other.redundantStreams.contains stream = true := SortedSet.contains_iff.mpr back
  simp [addMember, different, found, named, SortedMap.contains, unused]

theorem Assembled.exists_foldlM {streams : Streams} {stream : UInt16} {named rest : List UInt16}
    {members : SortedMap UInt16 UInt16} (assembled : Assembled streams stream named members)
    (partner : ∀ s ∈ rest, Partner streams stream s)
    (apart : (stream :: named ++ rest).Pairwise fun a b =>
      interface? streams a ≠ interface? streams b) :
    ∃ result, rest.foldlM (Redundancy.addMember streams stream) members = .ok result := by
  induction rest generalizing named members with
  | nil => exact ⟨members, rfl⟩
  | cons referenced rest ih =>
    obtain ⟨-, other, found, -⟩ := partner referenced List.mem_cons_self
    have interface : interface? streams referenced = some other.avbInterface := by
      simp [interface?, found]
    have unused : members.get? other.avbInterface = none := by
      cases bound : members.get? other.avbInterface with
      | none => rfl
      | some s =>
        obtain ⟨member, same⟩ := (assembled.get?_iff _ s).mp bound
        have earlier : s ∈ stream :: named := List.mem_cons.mpr member
        have distinct := (List.pairwise_append.mp apart).2.2 s earlier referenced List.mem_cons_self
        exact absurd (same.trans interface.symm) distinct
    have added := addMember_of_partner (partner referenced List.mem_cons_self) interface unused
    obtain ⟨result, later⟩ := ih (assembled.addMember added)
      (fun s member => partner s (List.mem_cons_of_mem _ member)) (by simpa using apart)
    refine ⟨result, ?_⟩
    rw [List.foldlM_cons, added]
    exact later

theorem assembled_own {streams : Streams} {stream : UInt16} {model : StreamStatic}
    (declared : streams.get? stream = some model) :
    Assembled streams stream [] ((∅ : SortedMap UInt16 UInt16).insert model.avbInterface stream) := by
  have own : interface? streams stream = some model.avbInterface := by
    simp [interface?, declared]
  constructor
  · intro i s
    rw [SortedMap.get?_insert_fresh (SortedMap.get?_empty _), SortedMap.get?_empty]
    constructor
    · intro bound
      rcases bound with none | ⟨rfl, rfl⟩
      · cases none
      · exact ⟨.inl rfl, own⟩
    · intro given
      obtain ⟨rfl | none, interface⟩ := given
      · rw [own] at interface
        exact .inr ⟨(Option.some.inj interface).symm, rfl⟩
      · cases none
  · intro s none
    cases none

theorem assembled_association {streams : Streams} {stream : UInt16} {model : StreamStatic}
    {members : SortedMap UInt16 UInt16} (declared : streams.get? stream = some model)
    (sound : association streams stream model = .ok members) :
    Assembled streams stream model.redundantStreams.toList members :=
  (assembled_own declared).foldlM sound

theorem SoundDeclaration.exists_association {streams : Streams} {stream : UInt16}
    {model : StreamStatic} (declared : streams.get? stream = some model)
    (sound : SoundDeclaration streams stream model) :
    ∃ members, association streams stream model = .ok members :=
  (assembled_own declared).exists_foldlM sound.partner sound.apart

section Assembled

variable {streams : Streams} {stream : UInt16} {named : List UInt16}
  {members : SortedMap UInt16 UInt16}

theorem Assembled.present (assembled : Assembled streams stream named members)
    (own : (streams.get? stream).isSome = true) {s : UInt16} (member : s = stream ∨ s ∈ named) :
    (streams.get? s).isSome = true := by
  rcases member with rfl | member
  · exact own
  · obtain ⟨-, other, found, -⟩ := assembled.partner s member
    simp [found]

theorem Assembled.mem_values_iff (assembled : Assembled streams stream named members)
    (own : (streams.get? stream).isSome = true) {s : UInt16} :
    s ∈ members.values ↔ s = stream ∨ s ∈ named := by
  rw [SortedMap.mem_values]
  constructor
  · intro held
    obtain ⟨i, bound⟩ := held
    exact ((assembled.get?_iff i s).mp bound).1
  · intro member
    obtain ⟨model, found⟩ := Option.isSome_iff_exists.mp (assembled.present own member)
    exact ⟨model.avbInterface, (assembled.get?_iff _ s).mpr ⟨member, by simp [interface?, found]⟩⟩

theorem Assembled.apart (assembled : Assembled streams stream named members)
    (own : (streams.get? stream).isSome = true) {a b : UInt16} (first : a = stream ∨ a ∈ named)
    (second : b = stream ∨ b ∈ named) (different : a ≠ b) :
    interface? streams a ≠ interface? streams b := by
  intro same
  obtain ⟨model, found⟩ := Option.isSome_iff_exists.mp (assembled.present own first)
  have interface : interface? streams a = some model.avbInterface := by simp [interface?, found]
  have atA := (assembled.get?_iff _ a).mpr ⟨first, interface⟩
  have atB := (assembled.get?_iff _ b).mpr ⟨second, same.symm.trans interface⟩
  exact different (Option.some.inj (atA.symm.trans atB))

theorem Assembled.pairwise_before (assembled : Assembled streams stream named members) :
    members.values.Pairwise (Before streams) := by
  refine List.pairwise_map.mpr (members.ascending.imp_of_mem fun {a b} first second lower => ?_)
  have interface : ∀ e ∈ members.toList, interface? streams e.2 = some e.1 := by
    intro e member
    exact ((assembled.get?_iff e.1 e.2).mp (SortedMap.get?_eq_some_iff.mpr member)).2
  exact ⟨a.1, b.1, interface a first, interface b second, UInt16.lt_iff_toNat_lt.mpr lower⟩

end Assembled

theorem mem_association_iff {streams : Streams} {stream : UInt16} {model : StreamStatic}
    {members : SortedMap UInt16 UInt16} (declared : streams.get? stream = some model)
    (sound : association streams stream model = .ok members) (s : UInt16) :
    s ∈ members.values ↔ s = stream ∨ s ∈ model.redundantStreams :=
  (assembled_association declared sound).mem_values_iff (by simp [declared])

theorem SoundDeclaration.of_association {streams : Streams} {stream : UInt16} {model : StreamStatic}
    {members : SortedMap UInt16 UInt16} (declared : streams.get? stream = some model)
    (names : model.redundantStreams.isEmpty = false)
    (sound : association streams stream model = .ok members) :
    SoundDeclaration streams stream model := by
  have assembled := assembled_association declared sound
  have own : (streams.get? stream).isSome = true := by simp [declared]
  constructor
  case names => exact names
  case partner => exact assembled.partner
  case apart =>
    apply List.pairwise_cons.mpr
    constructor
    · intro s member
      exact assembled.apart own (.inl rfl) (.inr member) (assembled.partner s member).1.symm
    · apply model.redundantStreams.nodup_toList.imp_of_mem
      intro a b first second different
      exact assembled.apart own (.inr first) (.inr second) different

def Faulty (streams : Streams) (stream : UInt16) : Prop :=
  ∃ model, streams.get? stream = some model ∧ model.redundantStreams.isEmpty = false ∧
    ¬ SoundDeclaration streams stream model

theorem Names.not_isEmpty {streams : Streams} {stream referenced : UInt16} {model : StreamStatic}
    (names : Names streams stream referenced) (declared : streams.get? stream = some model) :
    model.redundantStreams.isEmpty = false := by
  obtain ⟨known, found, member⟩ := names
  cases declared.symm.trans found
  have member : referenced ∈ model.redundantStreams.toList := member
  simpa [SortedSet.isEmpty] using List.ne_nil_of_mem member

theorem Fault.stream_eq {streams : Streams} {stream : UInt16} {issue : RedundancyIssue}
    (fault : Fault streams stream issue) : issue.stream = stream := by
  cases fault <;> rfl

theorem Fault.ne_multipleAssociations {streams : Streams} {stream : UInt16} {issue : RedundancyIssue}
    (fault : Fault streams stream issue) (s : UInt16) : issue ≠ .multipleAssociations s := by
  cases fault <;> exact fun same => nomatch same

theorem Fault.not_sound {streams : Streams} {stream : UInt16} {issue : RedundancyIssue}
    {model : StreamStatic} (fault : Fault streams stream issue)
    (declared : streams.get? stream = some model) : ¬ SoundDeclaration streams stream model := by
  intro sound
  have named : ∀ s, Names streams stream s → s ∈ model.redundantStreams := by
    intro s names
    obtain ⟨known, found, member⟩ := names
    cases declared.symm.trans found
    exact member
  cases fault with
  | selfReference names => exact (sound.partner stream (named _ names)).1 rfl
  | unknownStream names absent =>
    obtain ⟨-, other, found, -⟩ := sound.partner _ (named _ names)
    rw [absent] at found
    cases found
  | notReciprocal names present silent => exact silent (sound.partner _ (named _ names)).2
  | @sharedInterface referenced i earlier names interface member different same =>
    obtain ⟨above, inside⟩ := List.pairwise_cons.mp sound.apart
    rcases member with rfl | ⟨member, -⟩
    · exact above referenced (named _ names) (same.trans interface.symm)
    · have symmetric : Std.Symm fun a b => interface? streams a ≠ interface? streams b :=
        ⟨fun _ _ differ => differ.symm⟩
      have apart := inside.forall (named _ member) (named _ names) different
      exact apart (same.trans interface.symm)

theorem Fault.names {streams : Streams} {stream : UInt16} {issue : RedundancyIssue}
    (fault : Fault streams stream issue) : ∃ referenced, Names streams stream referenced := by
  cases fault with
  | selfReference names | unknownStream names | notReciprocal names | sharedInterface names =>
    exact ⟨_, names⟩

theorem Fault.faulty {streams : Streams} {stream : UInt16} {issue : RedundancyIssue}
    (fault : Fault streams stream issue) : Faulty streams stream := by
  obtain ⟨referenced, names⟩ := fault.names
  obtain ⟨model, declared, -⟩ := id names
  exact ⟨model, declared, names.not_isEmpty declared, fault.not_sound declared⟩

theorem Assembled.fault {streams : Streams} {stream referenced : UInt16} {named : List UInt16}
    {members : SortedMap UInt16 UInt16} {issue : RedundancyIssue}
    (assembled : Assembled streams stream named members) (names : Names streams stream referenced)
    (earlier : ∀ s ∈ named, Names streams stream s ∧ s < referenced)
    (failed : Redundancy.addMember streams stream members referenced = .error issue) :
    Fault streams stream issue := by
  unfold Redundancy.addMember at failed
  split at failed
  · rename_i same
    cases failed
    exact .selfReference (same ▸ names)
  · rename_i different
    split at failed
    · rename_i absent
      cases failed
      exact .unknownStream names absent
    · rename_i other found
      split at failed
      · rename_i unnamed
        cases failed
        refine .notReciprocal names (by simp [found]) fun back => ?_
        obtain ⟨known, again, member⟩ := back
        cases found.symm.trans again
        simp [SortedSet.contains_iff.mpr member] at unnamed
      · split at failed
        · rename_i taken
          cases failed
          obtain ⟨s, bound⟩ := Option.isSome_iff_exists.mp taken
          obtain ⟨member, interface⟩ := (assembled.get?_iff _ s).mp bound
          refine .sharedInterface names (by simp [interface?, found])
            (member.imp_right (earlier s)) ?_ interface
          rcases member with rfl | member
          · exact Ne.symm different
          · exact UInt16.ne_of_lt (earlier s member).2
        · cases failed

theorem exists_of_foldlM_error {ε σ α : Type} {f : σ → α → Except ε σ} {l : List α} {start : σ} {e : ε}
    (failed : l.foldlM f start = .error e) :
    ∃ done a rest s, l = done ++ a :: rest ∧ done.foldlM f start = .ok s ∧ f s a = .error e := by
  induction l generalizing start with
  | nil => cases failed
  | cons a l ih =>
    rw [List.foldlM_cons] at failed
    cases step : f start a with
    | error first =>
      rw [step] at failed
      cases failed
      exact ⟨[], a, l, start, rfl, rfl, step⟩
    | ok middle =>
      rw [step] at failed
      obtain ⟨done, b, rest, s, rfl, passed, last⟩ := ih failed
      refine ⟨a :: done, b, rest, s, rfl, ?_, last⟩
      rw [List.foldlM_cons, step]
      exact passed

theorem fault_of_association_error {streams : Streams} {stream : UInt16} {model : StreamStatic}
    {issue : RedundancyIssue} (declared : streams.get? stream = some model)
    (failed : association streams stream model = .error issue) : Fault streams stream issue := by
  obtain ⟨done, referenced, rest, members, split, passed, last⟩ := exists_of_foldlM_error failed
  have assembled := (assembled_own declared).foldlM passed
  have names : ∀ s ∈ done ++ referenced :: rest, Names streams stream s := by
    intro s member
    exact ⟨model, declared, show s ∈ model.redundantStreams.toList from split ▸ member⟩
  have order := model.redundantStreams.ascending
  rw [split] at order
  refine assembled.fault (names referenced (by simp)) ?_ last
  intro s member
  refine ⟨names s (List.mem_append_left _ member), UInt16.lt_iff_toNat_lt.mpr ?_⟩
  exact (List.pairwise_append.mp order).2.2 s member referenced List.mem_cons_self

inductive Outcome (streams : Streams) (r : Redundancy) (stream : UInt16) (model : StreamStatic) :
    Redundancy → Prop where
  | silent (empty : model.redundantStreams.isEmpty = true) : Outcome streams r stream model r
  | unsound {issue : RedundancyIssue} (names : model.redundantStreams.isEmpty = false)
    (failed : association streams stream model = .error issue) :
    Outcome streams r stream model (r.report issue)
  | grouped {members : SortedMap UInt16 UInt16} (names : model.redundantStreams.isEmpty = false)
    (sound : association streams stream model = .ok members) (grouped : r.isGrouped stream = true) :
    Outcome streams r stream model r
  | conflict {members : SortedMap UInt16 UInt16} {other : UInt16}
    (names : model.redundantStreams.isEmpty = false)
    (sound : association streams stream model = .ok members) (free : r.isGrouped stream = false)
    (member : other ∈ members.values) (taken : r.isGrouped other = true) :
    Outcome streams r stream model (r.report (.multipleAssociations other))
  | group {members : SortedMap UInt16 UInt16} (names : model.redundantStreams.isEmpty = false)
    (sound : association streams stream model = .ok members)
    (free : ∀ s ∈ members.values, r.isGrouped s = false) :
    Outcome streams r stream model (r.addGroup members.values)

theorem outcome_addStream (streams : Streams) (r : Redundancy) (stream : UInt16)
    (model : StreamStatic) :
    Outcome streams r stream model (r.addStream streams stream model) := by
  unfold addStream
  cases names : model.redundantStreams.isEmpty with
  | true => exact .silent names
  | false =>
    simp only [Bool.false_eq_true, ↓reduceIte]
    cases sound : association streams stream model with
    | error issue => exact .unsound names sound
    | ok members =>
      cases known : r.isGrouped stream with
      | true => exact .grouped names sound known
      | false =>
        simp only [Bool.false_eq_true, ↓reduceIte]
        cases search : members.values.find? r.isGrouped with
        | some other =>
          exact .conflict names sound known (List.mem_of_find?_eq_some search)
            (List.find?_some search)
        | none =>
          refine .group names sound fun s member => ?_
          simpa using List.find?_eq_none.mp search s member

end Redundancy

end AvbEntity
