import AvbEntity.Proofs.Mapping.Input
import Mathlib.Data.List.Nodup
import Mathlib.Logic.Function.Basic

namespace AvbEntity

namespace AudioMapping

def channel (m : AudioMapping) : UInt16 × UInt16 := (m.streamIndex, m.streamChannel)

def target (m : AudioMapping) : UInt16 × UInt16 := (m.clusterOffset, m.clusterChannel)

def ofParts (channel target : UInt16 × UInt16) : AudioMapping :=
  ⟨channel.1, channel.2, target.1, target.2⟩

end AudioMapping

abbrev Routing := UInt16 × UInt16 → Option (UInt16 × UInt16)

/-- A routing after a change: an added mapping routes its stream channel anew, a removed one ends the route
only if it is the route there is. -/
def Routing.after (r : Routing) : PortEdit → Routing
  | .add m => Function.update r m.channel (some m.target)
  | .remove m => if r m.channel = some m.target then Function.update r m.channel none else r
  | .clear => fun _ => none

def PortEdit.applyOutput (map : List AudioMapping) : PortEdit → List AudioMapping
  | .add m => AudioMapping.addOutput map m
  | .remove m => map.erase m
  | .clear => []

namespace AudioMapping

def routing (map : List AudioMapping) : Routing := fun c =>
  (map.find? fun m => m.channel = c).map target

def appendNew (channels : List (UInt16 × UInt16)) (c : UInt16 × UInt16) : List (UInt16 × UInt16) :=
  if c ∈ channels then channels else channels ++ [c]

theorem eq_of_parts {a b : AudioMapping} (channel : a.channel = b.channel)
    (target : a.target = b.target) : a = b := by
  have left : ofParts a.channel a.target = a := rfl
  have right : ofParts b.channel b.target = b := rfl
  rw [← left, channel, target, right]

theorem sameStream_iff {a b : AudioMapping} : sameStream a b = true ↔ a.channel = b.channel := by
  simp [sameStream, channel]

section Channels

variable {channels : List (UInt16 × UInt16)}

theorem nodup_appendNew (distinct : channels.Nodup) (c : UInt16 × UInt16) :
    (appendNew channels c).Nodup := by
  unfold appendNew
  split
  · exact distinct
  next fresh =>
    rw [← List.concat_eq_append]
    exact distinct.concat fresh

theorem mem_foldl_appendNew {cs : List (UInt16 × UInt16)} {c : UInt16 × UInt16} :
    c ∈ cs.foldl appendNew channels ↔ c ∈ channels ∨ c ∈ cs := by
  induction cs generalizing channels with
  | nil => simp
  | cons d cs ih =>
    have first : c ∈ appendNew channels d ↔ c ∈ channels ∨ c = d := by
      unfold appendNew
      split
      next known =>
        constructor
        · exact .inl
        · intro given
          rcases given with member | rfl
          · exact member
          · exact known
      next => simp
    rw [List.foldl_cons, ih, first, List.mem_cons, or_assoc]

theorem foldl_appendNew_of_subset {cs : List (UInt16 × UInt16)} (known : cs ⊆ channels) :
    cs.foldl appendNew channels = channels := by
  induction cs with
  | nil => rfl
  | cons c cs ih =>
    have here : appendNew channels c = channels := if_pos (known List.mem_cons_self)
    rw [List.foldl_cons, here]
    exact ih fun d member => known (List.mem_cons_of_mem _ member)

end Channels

/-- All that an addition does: without a mapping of the stream channel the mapping is appended, else it
takes the place of the first one. -/
theorem addOutput_cases (map : List AudioMapping) (m : AudioMapping) :
    (m.channel ∉ map.map channel ∧ addOutput map m = map ++ [m]) ∨
      ∃ front old back, map = front ++ old :: back ∧ old.channel = m.channel ∧
        addOutput map m = front ++ m :: back := by
  cases search : map.find? (sameStream m) with
  | none =>
    have absent : ∀ x ∈ map, ¬ sameStream m x = true := List.find?_eq_none.mp search
    have none : map.any (sameStream m) = false := by simpa using absent
    left
    constructor
    · intro member
      obtain ⟨x, inside, same⟩ := List.mem_map.mp member
      exact absent x inside (sameStream_iff.mpr same.symm)
    · rw [addOutput, none]
      rfl
  | some old =>
    obtain ⟨same, front, back, split, before⟩ := List.find?_eq_some_iff_append.mp search
    have clear : ∀ x ∈ front, sameStream m x = false := by
      intro x member
      simpa using before x member
    have some : map.any (sameStream m) = true := by
      rw [split]
      simp [same]
    refine .inr ⟨front, old, back, split, (sameStream_iff.mp same).symm, ?_⟩
    rw [addOutput, some, if_pos rfl, split, replaceFirst_append clear same]

theorem channels_addOutput (map : List AudioMapping) (m : AudioMapping) :
    (addOutput map m).map channel = appendNew (map.map channel) m.channel := by
  unfold appendNew
  rcases addOutput_cases map m with ⟨fresh, added⟩ | ⟨front, old, back, split, same, added⟩
  · rw [if_neg fresh, added, List.map_append]
    rfl
  · have known : m.channel ∈ map.map channel := by
      rw [split]
      simp [same]
    rw [if_pos known, added, split]
    simp [same]

theorem channels_addOutputs (map ms : List AudioMapping) :
    (addOutputs map ms).map channel = (ms.map channel).foldl appendNew (map.map channel) := by
  induction ms generalizing map with
  | nil => rfl
  | cons m ms ih =>
    rw [List.map_cons, List.foldl_cons, ← channels_addOutput]
    exact ih (addOutput map m)

theorem mem_addOutput {map : List AudioMapping} (distinct : (map.map channel).Nodup)
    {m x : AudioMapping} :
    x ∈ addOutput map m ↔ x = m ∨ x ∈ map ∧ x.channel ≠ m.channel := by
  rcases addOutput_cases map m with ⟨fresh, added⟩ | ⟨front, old, back, split, same, added⟩
  · have other : ∀ y ∈ map, y.channel ≠ m.channel := by
      intro y member same
      exact fresh (List.mem_map.mpr ⟨y, member, same⟩)
    rw [added, List.mem_append, List.mem_singleton]
    constructor
    · intro member
      rcases member with earlier | last
      · exact .inr ⟨earlier, other x earlier⟩
      · exact .inl last
    · intro member
      rcases member with last | earlier
      · exact .inr last
      · exact .inl earlier.1
  · -- the stream channel of the replaced mapping is neither before nor behind it
    have apart : ∀ y, y ∈ front ∨ y ∈ back → y.channel ≠ m.channel := by
      intro y member
      rw [split, List.map_append, List.map_cons, List.nodup_middle, List.nodup_cons, same] at distinct
      intro equal
      apply distinct.1
      rw [← equal, ← List.map_append]
      exact List.mem_map_of_mem (List.mem_append.mpr member)
    rw [added, split]
    simp only [List.mem_append, List.mem_cons]
    constructor
    · intro member
      rcases member with before | rfl | behind
      · exact .inr ⟨.inl before, apart x (.inl before)⟩
      · exact .inl rfl
      · exact .inr ⟨.inr (.inr behind), apart x (.inr behind)⟩
    · intro member
      rcases member with rfl | ⟨before | rfl | behind, other⟩
      · exact .inr (.inl rfl)
      · exact .inl before
      · exact absurd same other
      · exact .inr (.inr behind)

/-- A list of mappings is a routing, written down one stream channel at a time. -/
structure Routes (map : List AudioMapping) (r : Routing) : Prop where
  distinct : (map.map channel).Nodup
  mem_iff : ∀ m, m ∈ map ↔ r m.channel = some m.target

theorem routes_routing {map : List AudioMapping} (distinct : (map.map channel).Nodup) :
    Routes map (routing map) := by
  refine ⟨distinct, fun m => ?_⟩
  unfold routing
  constructor
  · intro member
    cases search : map.find? fun x => x.channel = m.channel with
    | none => simpa using List.find?_eq_none.mp search m member
    | some x =>
      have same : x.channel = m.channel := by simpa using List.find?_some search
      have equal := List.inj_on_of_nodup_map distinct (List.mem_of_find?_eq_some search) member same
      rw [equal]
      rfl
  · intro found
    obtain ⟨x, search, target⟩ := Option.map_eq_some_iff.mp found
    have same : x.channel = m.channel := by simpa using List.find?_some search
    rw [← eq_of_parts same target]
    exact List.mem_of_find?_eq_some search

section Routes

variable {map : List AudioMapping} {r : Routing}

theorem Routes.applyOutput (routes : Routes map r) (edit : PortEdit) :
    Routes (edit.applyOutput map) (r.after edit) := by
  cases edit with
  | clear => exact ⟨List.nodup_nil, fun m => by simp [PortEdit.applyOutput, Routing.after]⟩
  | add m =>
    constructor
    · rw [PortEdit.applyOutput, channels_addOutput]
      exact nodup_appendNew routes.distinct m.channel
    · intro x
      rw [PortEdit.applyOutput, mem_addOutput routes.distinct, routes.mem_iff, Routing.after]
      by_cases same : x.channel = m.channel
      · rw [same, Function.update_self, Option.some.injEq]
        constructor
        · intro given
          rcases given with rfl | other
          · rfl
          · exact absurd rfl other.2
        · intro target
          exact .inl (eq_of_parts same target.symm)
      · rw [Function.update_of_ne same]
        constructor
        · intro given
          rcases given with rfl | old
          · exact absurd rfl same
          · exact old.1
        · intro old
          exact .inr ⟨old, same⟩
  | remove m =>
    have nodup : map.Nodup := routes.distinct.of_map
    constructor
    · exact routes.distinct.sublist (List.erase_sublist.map channel)
    · intro x
      rw [PortEdit.applyOutput, nodup.mem_erase_iff, routes.mem_iff, Routing.after]
      split
      next routed =>
        by_cases same : x.channel = m.channel
        · rw [same, Function.update_self, routed]
          constructor
          · intro given
            exact absurd (eq_of_parts same (Option.some.inj given.2).symm) given.1
          · intro none
            cases none
        · rw [Function.update_of_ne same]
          constructor
          · exact And.right
          · intro old
            exact ⟨fun equal => same (congrArg channel equal), old⟩
      next unrouted =>
        constructor
        · exact And.right
        · intro old
          exact ⟨fun equal => unrouted (equal ▸ old), old⟩

theorem Routes.foldl (routes : Routes map r) (edits : List PortEdit) :
    Routes (edits.foldl PortEdit.applyOutput map) (edits.foldl Routing.after r) := by
  induction edits generalizing map r with
  | nil => exact routes
  | cons edit edits ih => exact ih (routes.applyOutput edit)

/-- The order of the stream channels and the routing are all there is to a list of mappings. -/
theorem Routes.eq_of_channels {other : List AudioMapping} (routes : Routes map r)
    (otherRoutes : Routes other r) (same : map.map channel = other.map channel) : map = other := by
  have readBack : ∀ {l : List AudioMapping}, Routes l r →
      (l.map channel).filterMap (fun c => (r c).map (ofParts c)) = l := by
    intro l known
    rw [List.filterMap_map]
    calc l.filterMap ((fun c => (r c).map (ofParts c)) ∘ channel)
        = l.filterMap some := by
          apply List.filterMap_congr
          intro m member
          rw [Function.comp_apply, (known.mem_iff m).mp member]
          rfl
      _ = l := List.filterMap_some
  rw [← readBack routes, same, readBack otherRoutes]

end Routes

theorem foldl_add_of_not_mem {ms : List AudioMapping} {c : UInt16 × UInt16} (r : Routing)
    (absent : c ∉ ms.map channel) : ((ms.map PortEdit.add).foldl Routing.after r) c = r c := by
  induction ms generalizing r with
  | nil => rfl
  | cons m ms ih =>
    rw [List.map_cons, List.mem_cons, not_or] at absent
    rw [List.map_cons, List.foldl_cons, ih _ absent.2]
    exact Function.update_of_ne absent.1 _ _

theorem foldl_add_congr {ms : List AudioMapping} {r s : Routing}
    (agree : ∀ c, c ∉ ms.map channel → r c = s c) :
    (ms.map PortEdit.add).foldl Routing.after r = (ms.map PortEdit.add).foldl Routing.after s := by
  induction ms generalizing r s with
  | nil => exact funext fun c => agree c List.not_mem_nil
  | cons m ms ih =>
    apply ih
    intro c absent
    show Function.update r m.channel _ c = Function.update s m.channel _ c
    by_cases same : c = m.channel
    · rw [same, Function.update_self, Function.update_self]
    · rw [Function.update_of_ne same, Function.update_of_ne same]
      exact agree c (List.not_mem_cons_of_ne_of_not_mem same absent)

theorem foldl_applyOutput_add (map ms : List AudioMapping) :
    (ms.map PortEdit.add).foldl PortEdit.applyOutput map = addOutputs map ms := by
  rw [List.foldl_map]
  rfl

theorem addOutputs_addOutputs {map : List AudioMapping} (distinct : (map.map channel).Nodup)
    (ms : List AudioMapping) : addOutputs (addOutputs map ms) ms = addOutputs map ms := by
  have once := (routes_routing distinct).foldl (ms.map .add)
  have twice := once.foldl (ms.map .add)
  have routing : (ms.map PortEdit.add).foldl Routing.after
        ((ms.map PortEdit.add).foldl Routing.after (routing map)) =
      (ms.map PortEdit.add).foldl Routing.after (routing map) :=
    foldl_add_congr fun c absent => foldl_add_of_not_mem _ absent
  rw [routing, foldl_applyOutput_add, foldl_applyOutput_add] at twice
  rw [foldl_applyOutput_add] at once
  apply twice.eq_of_channels once
  rw [channels_addOutputs]
  apply foldl_appendNew_of_subset
  intro c member
  rw [channels_addOutputs]
  exact mem_foldl_appendNew.mpr (.inr member)

theorem removeAll_sublist (map ms : List AudioMapping) : (removeAll map ms).Sublist map := by
  induction ms generalizing map with
  | nil => exact List.Sublist.refl map
  | cons m ms ih => exact (ih (map.erase m)).trans List.erase_sublist

end AudioMapping

namespace PortCall

def outputOperation (index : UInt16) : PortCall → Operation
  | .add ms => .addMappings .output index ms
  | .remove ms => .removeMappings .output index ms
  | .clear => .clearMappings .output index

end PortCall

namespace RemoteEntity

open AudioMapping

def outputMappings (e : RemoteEntity) (index : UInt16) : List AudioMapping :=
  (e.currentOrDefault .streamPortOutput index).mappings

theorem outputMappings_modifyMappings (e : RemoteEntity) (index : UInt16)
    (f : List AudioMapping → List AudioMapping) :
    (e.modifyMappings .output index f).outputMappings index = f (e.outputMappings index) := by
  unfold outputMappings modifyMappings
  rw [currentOrDefault_modifyCurrent]

theorem outputMappings_apply (e : RemoteEntity) (index : UInt16) (call : PortCall) :
    (e.apply (call.outputOperation index)).outputMappings index =
      call.edits.foldl PortEdit.applyOutput (e.outputMappings index) := by
  cases call with
  | add ms =>
    rw [PortCall.edits, foldl_applyOutput_add]
    exact outputMappings_modifyMappings e index fun map => addOutputs map ms
  | remove ms =>
    rw [PortCall.edits, List.foldl_map]
    exact outputMappings_modifyMappings e index fun map => removeAll map ms
  | clear => exact outputMappings_modifyMappings e index fun _ => []

def outputsAfter (e : RemoteEntity) (index : UInt16) (calls : List PortCall) : List AudioMapping :=
  (e.run (calls.map (PortCall.outputOperation index))).outputMappings index

theorem outputsAfter_eq (e : RemoteEntity) (index : UInt16) (calls : List PortCall) :
    e.outputsAfter index calls =
      (calls.flatMap PortCall.edits).foldl PortEdit.applyOutput (e.outputMappings index) :=
  mappings_run (outputMappings · index) (outputMappings_apply · index) e calls

theorem outputsAfter_append (e : RemoteEntity) (index : UInt16) (calls : List PortCall)
    (call : PortCall) :
    e.outputsAfter index (calls ++ [call]) =
      call.edits.foldl PortEdit.applyOutput (e.outputsAfter index calls) := by
  rw [outputsAfter_eq, outputsAfter_eq, List.flatMap_append, List.foldl_append, List.flatMap_singleton]

/-- After any calls the mappings of an output port are the routing that the calls tell of, taken in order.
An addition leaves the stream channels that are routed where they are, puts the others behind them and
has no effect when it comes again; a removal changes no order. -/
theorem output_mappings_are_routing (e : RemoteEntity) (index : UInt16) (calls : List PortCall)
    (distinct : ((e.outputMappings index).map channel).Nodup) :
    Routes (e.outputsAfter index calls)
        ((calls.flatMap PortCall.edits).foldl Routing.after (routing (e.outputMappings index))) ∧
      (∀ ms, (e.outputsAfter index (calls ++ [.add ms])).map channel =
          (ms.map channel).foldl appendNew ((e.outputsAfter index calls).map channel) ∧
        e.outputsAfter index (calls ++ [.add ms, .add ms]) =
          e.outputsAfter index (calls ++ [.add ms])) ∧
      ∀ ms, (e.outputsAfter index (calls ++ [.remove ms])).Sublist (e.outputsAfter index calls) := by
  have routes := (routes_routing distinct).foldl (calls.flatMap PortCall.edits)
  rw [← outputsAfter_eq] at routes
  have added : ∀ done ms, e.outputsAfter index (done ++ [.add ms]) =
      addOutputs (e.outputsAfter index done) ms := by
    intro done ms
    rw [outputsAfter_append, PortCall.edits, foldl_applyOutput_add]
  refine ⟨routes, fun ms => ⟨?_, ?_⟩, fun ms => ?_⟩
  · rw [added, channels_addOutputs]
  · have split : calls ++ [.add ms, .add ms] = (calls ++ [.add ms]) ++ [.add ms] := by simp
    rw [split, added, added]
    exact addOutputs_addOutputs routes.distinct ms
  · rw [outputsAfter_append, PortCall.edits, List.foldl_map]
    exact removeAll_sublist (e.outputsAfter index calls) ms

def reroutedCalls : List PortCall :=
  [.add [⟨0, 0, 0, 0⟩, ⟨0, 1, 0, 1⟩], .add [⟨0, 0, 1, 1⟩, ⟨0, 2, 0, 0⟩, ⟨0, 2, 0, 3⟩],
    .remove [⟨0, 1, 5, 5⟩, ⟨0, 2, 0, 3⟩]]

theorem rerouted_channel_keeps_place :
    (((new {} {} .zero).outputMappings 0).map channel).Nodup ∧
      (new {} {} .zero).outputsAfter 0 reroutedCalls = [⟨0, 0, 1, 1⟩, ⟨0, 1, 0, 1⟩] ∧
      ((reroutedCalls.flatMap PortCall.edits).foldl Routing.after (routing [])) (0, 0) = some (1, 1) := by
  have distinct : (((new {} {} .zero).outputMappings 0).map channel).Nodup := List.nodup_nil
  have result : (new {} {} .zero).outputsAfter 0 reroutedCalls = [⟨0, 0, 1, 1⟩, ⟨0, 1, 0, 1⟩] := by decide
  obtain ⟨routes, -, -⟩ := output_mappings_are_routing (new {} {} .zero) 0 reroutedCalls distinct
  rw [result] at routes
  exact ⟨distinct, result, (routes.mem_iff ⟨0, 0, 1, 1⟩).mp List.mem_cons_self⟩

end RemoteEntity

end AvbEntity
