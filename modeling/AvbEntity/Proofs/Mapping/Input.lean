import AvbEntity.Entity.Operation
import AvbEntity.Proofs.LastEvent
import AvbEntity.Proofs.Model.Place

namespace AvbEntity

namespace AudioMapping

/-- Whether the mappings of every cluster channel carry one stream channel, each from another stream. -/
def SingleSourced (map : List AudioMapping) : Prop :=
  map.Pairwise fun a b => sameCluster a b = true →
    a.streamChannel = b.streamChannel ∧ a.streamIndex ≠ b.streamIndex

instance (map : List AudioMapping) : Decidable (SingleSourced map) :=
  inferInstanceAs (Decidable (map.Pairwise _))

/-- Whether a mapping can be added without harm: the first mapping of its cluster channel is itself, or
it is new, and the first one has its stream channel or is the only one. -/
def Fits (map : List AudioMapping) (m : AudioMapping) : Prop :=
  ∀ first, map.find? (sameCluster m) = some first →
    first = m ∨ (m ∉ map ∧
      (first.streamChannel = m.streamChannel ∨ map.countP (sameCluster m) = 1))

theorem sameCluster_iff {a b : AudioMapping} :
    sameCluster a b = true ↔
      a.clusterOffset = b.clusterOffset ∧ a.clusterChannel = b.clusterChannel := by
  simp [sameCluster]

theorem sameCluster_self (a : AudioMapping) : sameCluster a a = true :=
  sameCluster_iff.mpr ⟨rfl, rfl⟩

theorem sameCluster_comm {a b : AudioMapping} : sameCluster a b = true ↔ sameCluster b a = true := by
  rw [sameCluster_iff, sameCluster_iff]
  exact ⟨fun h => ⟨h.1.symm, h.2.symm⟩, fun h => ⟨h.1.symm, h.2.symm⟩⟩

theorem sameCluster_trans {a b c : AudioMapping} (ab : sameCluster a b = true)
    (bc : sameCluster b c = true) : sameCluster a c = true := by
  rw [sameCluster_iff] at *
  exact ⟨ab.1.trans bc.1, ab.2.trans bc.2⟩

theorem eq_of_same_source {a b : AudioMapping} (cluster : sameCluster a b = true)
    (stream : a.streamIndex = b.streamIndex) (channel : a.streamChannel = b.streamChannel) :
    a = b := by
  obtain ⟨offset, clusterChannel⟩ := sameCluster_iff.mp cluster
  cases a
  cases b
  simp_all

theorem replaceFirst_append {p : AudioMapping → Bool} {front back : List AudioMapping}
    {x : AudioMapping} (clear : ∀ y ∈ front, p y = false) (holds : p x = true) (m : AudioMapping) :
    replaceFirst p m (front ++ x :: back) = front ++ m :: back := by
  induction front with
  | nil => simp [replaceFirst, holds]
  | cons y front ih =>
    have here : p y = false := clear y List.mem_cons_self
    simp [replaceFirst, here, ih fun z member => clear z (List.mem_cons_of_mem _ member)]

structure Leads (map : List AudioMapping) (m first : AudioMapping) (front back : List AudioMapping) :
    Prop where
  split : map = front ++ first :: back
  clear : ∀ y ∈ front, sameCluster m y = false
  holds : sameCluster m first = true

/-- All that an addition does: without a mapping of the cluster channel, and beside a first one that is
the same channel of another stream, the mapping is appended; else it takes the place of the first. -/
theorem addInput_cases (map : List AudioMapping) (m : AudioMapping) :
    (map.find? (sameCluster m) = none ∧ addInput map m = map ++ [m]) ∨
      ∃ front first back, Leads map m first front back ∧ map.find? (sameCluster m) = some first ∧
        ((first.streamIndex ≠ m.streamIndex ∧ first.streamChannel = m.streamChannel ∧
            addInput map m = map ++ [m]) ∨
          (¬ (first.streamIndex ≠ m.streamIndex ∧ first.streamChannel = m.streamChannel) ∧
            addInput map m = front ++ m :: back)) := by
  cases search : map.find? (sameCluster m) with
  | none => exact .inl ⟨rfl, by simp [addInput, search]⟩
  | some first =>
    obtain ⟨holds, front, back, split, before⟩ := List.find?_eq_some_iff_append.mp search
    have clear : ∀ y ∈ front, sameCluster m y = false := by
      intro y member
      simpa using before y member
    refine .inr ⟨front, first, back, ⟨split, clear, holds⟩, rfl, ?_⟩
    by_cases beside : first.streamIndex ≠ m.streamIndex ∧ first.streamChannel = m.streamChannel
    · exact .inl ⟨beside.1, beside.2, by simp [addInput, search, beside]⟩
    · refine .inr ⟨beside, ?_⟩
      simp only [addInput, search, beside, ↓reduceIte]
      rw [split, replaceFirst_append clear holds]

theorem singleSourced_concat_iff {map : List AudioMapping} (single : SingleSourced map)
    (m : AudioMapping) :
    SingleSourced (map ++ [m]) ↔ ∀ a ∈ map, sameCluster m a = true →
      a.streamChannel = m.streamChannel ∧ a.streamIndex ≠ m.streamIndex := by
  unfold SingleSourced
  rw [List.pairwise_append]
  constructor
  · intro parts a member cluster
    exact parts.2.2 a member m List.mem_cons_self (sameCluster_comm.mp cluster)
  · intro across
    refine ⟨single, List.pairwise_singleton _ _, fun a member b last cluster => ?_⟩
    rw [List.mem_singleton.mp last] at cluster ⊢
    exact across a member (sameCluster_comm.mp cluster)

section Leads

variable {map front back : List AudioMapping} {m first : AudioMapping}

theorem Leads.others (leads : Leads map m first front back) (single : SingleSourced map)
    {a : AudioMapping} (member : a ∈ map) (cluster : sameCluster m a = true) :
    a = first ∨ a ∈ back ∧ first.streamChannel = a.streamChannel := by
  rw [leads.split] at member single
  rcases List.mem_append.mp member with before | member
  · rw [leads.clear a before] at cluster
    cases cluster
  · rcases List.mem_cons.mp member with rfl | after
    · exact .inl rfl
    · have tail := (List.pairwise_append.mp single).2.1
      have through := sameCluster_trans (sameCluster_comm.mp leads.holds) cluster
      have sources := (List.pairwise_cons.mp tail).1 a after through
      exact .inr ⟨after, sources.1⟩

theorem Leads.singleSourced_concat_iff (leads : Leads map m first front back)
    (single : SingleSourced map) (channel : first.streamChannel = m.streamChannel) :
    SingleSourced (map ++ [m]) ↔ m ∉ map := by
  rw [AudioMapping.singleSourced_concat_iff single]
  constructor
  · intro across member
    exact (across m member (sameCluster_self m)).2 rfl
  · intro fresh a member cluster
    have same : a.streamChannel = m.streamChannel := by
      rcases leads.others single member cluster with rfl | after
      · exact channel
      · exact after.2.symm.trans channel
    refine ⟨same, fun stream => fresh ?_⟩
    rw [← eq_of_same_source (sameCluster_comm.mp cluster) stream same]
    exact member

theorem Leads.singleSourced_replace_iff (leads : Leads map m first front back)
    (single : SingleSourced map) (channel : first.streamChannel ≠ m.streamChannel) :
    SingleSourced (front ++ m :: back) ↔ ∀ a ∈ back, sameCluster m a = false := by
  rw [leads.split] at single
  have parts := List.pairwise_append.mp single
  have tail := List.pairwise_cons.mp parts.2.1
  constructor
  · intro replaced a after
    by_contra cluster
    rw [Bool.not_eq_false] at cluster
    have new := (List.pairwise_cons.mp (List.pairwise_append.mp replaced).2.1).1 a after cluster
    have through := sameCluster_trans (sameCluster_comm.mp leads.holds) cluster
    have old := tail.1 a after through
    exact channel (old.1.trans new.1.symm)
  · intro alone
    refine List.pairwise_append.mpr ⟨parts.1, List.pairwise_cons.mpr ⟨?_, tail.2⟩, ?_⟩
    · intro a after cluster
      rw [alone a after] at cluster
      cases cluster
    · intro a before b member cluster
      rcases List.mem_cons.mp member with rfl | after
      · rw [sameCluster_comm, leads.clear a before] at cluster
        cases cluster
      · exact parts.2.2 a before b (List.mem_cons_of_mem _ after) cluster

theorem Leads.countP_eq_one_iff (leads : Leads map m first front back) :
    map.countP (sameCluster m) = 1 ↔ ∀ a ∈ back, sameCluster m a = false := by
  have zero_iff : ∀ l : List AudioMapping,
      l.countP (sameCluster m) = 0 ↔ ∀ a ∈ l, sameCluster m a = false := by
    intro l
    simp [List.countP_eq_zero]
  have none := (zero_iff front).mpr leads.clear
  rw [← zero_iff back, leads.split, List.countP_append, List.countP_cons_of_pos leads.holds]
  omega

end Leads

theorem singleSourced_addInput_iff {map : List AudioMapping} (single : SingleSourced map)
    (m : AudioMapping) : SingleSourced (addInput map m) ↔ Fits map m := by
  rcases addInput_cases map m with ⟨search, added⟩ | ⟨front, first, back, leads, search, step⟩
  · have none := List.find?_eq_none.mp search
    have fits : Fits map m := by
      intro first found
      rw [search] at found
      cases found
    rw [added, singleSourced_concat_iff single]
    exact ⟨fun _ => fits, fun _ a member cluster => absurd cluster (none a member)⟩
  · have fits : Fits map m ↔ first = m ∨ (m ∉ map ∧
        (first.streamChannel = m.streamChannel ∨ map.countP (sameCluster m) = 1)) := by
      simp [Fits, search]
    rw [fits]
    rcases step with ⟨stream, channel, added⟩ | ⟨replaces, added⟩
    · have other : first ≠ m := fun same => stream (congrArg streamIndex same)
      rw [added, leads.singleSourced_concat_iff single channel]
      simp [other, channel]
    · rw [added]
      by_cases same : first = m
      · subst same
        rw [← leads.split]
        simp [single]
      · have channel : first.streamChannel ≠ m.streamChannel := by
          intro channel
          by_cases stream : first.streamIndex = m.streamIndex
          · exact same (eq_of_same_source (sameCluster_comm.mp leads.holds) stream channel)
          · exact replaces ⟨stream, channel⟩
        rw [leads.singleSourced_replace_iff single channel, leads.countP_eq_one_iff]
        constructor
        · intro alone
          refine .inr ⟨fun member => ?_, .inr alone⟩
          rcases leads.others single member (sameCluster_self m) with equal | after
          · exact same equal.symm
          · exact channel after.2
        · intro fits
          rcases fits with equal | ⟨-, equal | alone⟩
          · exact absurd equal same
          · exact absurd equal channel
          · exact alone

theorem addInput_eq_self_iff (map : List AudioMapping) (m : AudioMapping) :
    addInput map m = map ↔ map.find? (sameCluster m) = some m := by
  rcases addInput_cases map m with ⟨search, added⟩ | ⟨front, first, back, leads, search, step⟩
  · simp [added, search]
  · rcases step with ⟨stream, channel, added⟩ | ⟨replaces, added⟩
    · have other : first ≠ m := fun same => stream (congrArg streamIndex same)
      simp [added, search, other]
    · rw [added, search, leads.split]
      simp [eq_comm]

theorem SingleSourced.nodup {map : List AudioMapping} (single : SingleSourced map) : map.Nodup := by
  refine single.imp fun {a b} sources same => ?_
  subst same
  exact (sources (sameCluster_self a)).2 rfl

theorem SingleSourced.erase {map : List AudioMapping} (single : SingleSourced map)
    (m : AudioMapping) : SingleSourced (map.erase m) :=
  List.Pairwise.sublist List.erase_sublist single

end AudioMapping

inductive PortEdit where
  | add (m : AudioMapping)
  | remove (m : AudioMapping)
  | clear
deriving DecidableEq

def PortEdit.apply (map : List AudioMapping) : PortEdit → List AudioMapping
  | .add m => AudioMapping.addInput map m
  | .remove m => map.erase m
  | .clear => []

inductive PortCall where
  | add (ms : List AudioMapping)
  | remove (ms : List AudioMapping)
  | clear

namespace PortCall

def operation (index : UInt16) : PortCall → Operation
  | .add ms => .addMappings .input index ms
  | .remove ms => .removeMappings .input index ms
  | .clear => .clearMappings .input index

def edits : PortCall → List PortEdit
  | .add ms => ms.map .add
  | .remove ms => ms.map .remove
  | .clear => [.clear]

end PortCall

namespace RemoteEntity

open AudioMapping

def inputMappings (e : RemoteEntity) (index : UInt16) : List AudioMapping :=
  (e.currentOrDefault .streamPortInput index).mappings

theorem inputMappings_modifyMappings (e : RemoteEntity) (index : UInt16)
    (f : List AudioMapping → List AudioMapping) :
    (e.modifyMappings .input index f).inputMappings index = f (e.inputMappings index) := by
  unfold inputMappings modifyMappings
  rw [currentOrDefault_modifyCurrent]

theorem inputMappings_apply (e : RemoteEntity) (index : UInt16) (call : PortCall) :
    (e.apply (call.operation index)).inputMappings index =
      call.edits.foldl PortEdit.apply (e.inputMappings index) := by
  cases call with
  | add ms =>
    rw [PortCall.edits, List.foldl_map]
    exact inputMappings_modifyMappings e index fun map => addInputs map ms
  | remove ms =>
    rw [PortCall.edits, List.foldl_map]
    exact inputMappings_modifyMappings e index fun map => removeAll map ms
  | clear => exact inputMappings_modifyMappings e index fun _ => []

theorem mappings_run (mappings : RemoteEntity → List AudioMapping) {operation : PortCall → Operation}
    {step : List AudioMapping → PortEdit → List AudioMapping}
    (applied : ∀ (e : RemoteEntity) (call : PortCall),
      mappings (e.apply (operation call)) = call.edits.foldl step (mappings e))
    (e : RemoteEntity) (calls : List PortCall) :
    mappings (e.run (calls.map operation)) =
      (calls.flatMap PortCall.edits).foldl step (mappings e) := by
  induction calls generalizing e with
  | nil => rfl
  | cons call calls ih =>
    rw [List.flatMap_cons, List.foldl_append, ← applied]
    exact ih (e.apply (operation call))

theorem inputMappings_run (e : RemoteEntity) (index : UInt16) (calls : List PortCall) :
    (e.run (calls.map (PortCall.operation index))).inputMappings index =
      (calls.flatMap PortCall.edits).foldl PortEdit.apply (e.inputMappings index) :=
  mappings_run (inputMappings · index) (inputMappings_apply · index) e calls

/-- The sources stay single over a list of changes exactly if every mapping fits where it is added. -/
theorem singleSourced_edits_iff {map : List AudioMapping} (single : SingleSourced map)
    (edits : List PortEdit) :
    (∀ done rest, edits = done ++ rest → SingleSourced (done.foldl PortEdit.apply map)) ↔
      ∀ done m rest, edits = done ++ .add m :: rest → Fits (done.foldl PortEdit.apply map) m := by
  have kept : ∀ l edit, SingleSourced l →
      (SingleSourced (PortEdit.apply l edit) ↔ ∀ m, edit = .add m → Fits l m) := by
    intro l edit before
    cases edit with
    | add m => simpa [PortEdit.apply] using singleSourced_addInput_iff before m
    | remove m => exact iff_of_true (before.erase m) nofun
    | clear => exact iff_of_true List.Pairwise.nil nofun
  rw [throughout_foldl_iff kept single edits]
  constructor
  · intro fits done m rest split
    exact fits done (.add m) rest split m rfl
  · intro fits done edit rest split m same
    subst same
    exact fits done m rest split

/-- The sources of the cluster channels of an input port stay single through calls on it exactly if every
added mapping fits. While they are single no mapping is there twice, and to add a mapping that is there
changes nothing exactly if it fits. -/
theorem single_sourced_throughout_iff (e : RemoteEntity) (index : UInt16) (calls : List PortCall)
    (empty : e.inputMappings index = []) :
    (e.run (calls.map (PortCall.operation index))).inputMappings index =
        (calls.flatMap PortCall.edits).foldl PortEdit.apply [] ∧
      ((∀ done rest, calls.flatMap PortCall.edits = done ++ rest →
          SingleSourced (done.foldl PortEdit.apply [])) ↔
        ∀ done m rest, calls.flatMap PortCall.edits = done ++ .add m :: rest →
          Fits (done.foldl PortEdit.apply []) m) ∧
      (∀ map, SingleSourced map → map.Nodup) ∧
      ∀ map, ∀ m ∈ map, addInput map m = map ↔ Fits map m := by
  refine ⟨?_, singleSourced_edits_iff List.Pairwise.nil _, fun _ single => single.nodup, ?_⟩
  · rw [inputMappings_run, empty]
  · intro map m member
    rw [addInput_eq_self_iff]
    constructor
    · intro search first found
      rw [search] at found
      exact .inl (Option.some.inj found).symm
    · intro fits
      cases search : map.find? (sameCluster m) with
      | none => exact absurd (sameCluster_self m) (List.find?_eq_none.mp search m member)
      | some first =>
        rcases fits first search with rfl | ⟨fresh, -⟩
        · rfl
        · exact absurd member fresh

def repeatedRedundant : List PortCall :=
  [.add [⟨0, 0, 0, 0⟩], .add [⟨1, 0, 0, 0⟩], .add [⟨1, 0, 0, 0⟩]]

def replacedRedundant : List PortCall :=
  [.add [⟨0, 0, 0, 0⟩, ⟨1, 0, 0, 0⟩], .add [⟨2, 1, 0, 0⟩]]

theorem repeated_redundant_misfits :
    (new {} {} .zero).inputMappings 0 = [] ∧
      ((new {} {} .zero).run (repeatedRedundant.map (PortCall.operation 0))).inputMappings 0 =
        [⟨0, 0, 0, 0⟩, ⟨1, 0, 0, 0⟩, ⟨1, 0, 0, 0⟩] ∧
      ¬ ∀ done m rest, repeatedRedundant.flatMap PortCall.edits = done ++ .add m :: rest →
        Fits (done.foldl PortEdit.apply []) m := by
  have empty : (new {} {} .zero).inputMappings 0 = [] := rfl
  obtain ⟨result, throughout, -, -⟩ :=
    single_sourced_throughout_iff (new {} {} .zero) 0 repeatedRedundant empty
  refine ⟨empty, result.trans (by decide), fun fits => ?_⟩
  have single := throughout.mpr fits (repeatedRedundant.flatMap PortCall.edits) [] (by simp)
  revert single
  decide

/-- The two ways in which a cluster channel comes to have sources that it should not: a mapping is there
twice, or two stream channels reach it. -/
theorem cluster_channel_with_two_sources :
    (¬ SingleSourced
        (((new {} {} .zero).run (repeatedRedundant.map (PortCall.operation 0))).inputMappings 0) ∧
      ¬ (((new {} {} .zero).run (repeatedRedundant.map (PortCall.operation 0))).inputMappings 0).Nodup) ∧
    ((new {} {} .zero).run (replacedRedundant.map (PortCall.operation 0))).inputMappings 0 =
      [⟨2, 1, 0, 0⟩, ⟨1, 0, 0, 0⟩] := by
  refine ⟨⟨?_, ?_⟩, ?_⟩ <;> decide

end RemoteEntity

end AvbEntity
