import AvbEntity.Proofs.Mapping.Output

namespace AvbEntity

namespace AudioMapping

def onCluster (k : UInt16 × UInt16) (map : List AudioMapping) : List AudioMapping :=
  map.filter fun m => m.target = k

variable {k : UInt16 × UInt16} {map : List AudioMapping} {m : AudioMapping}

theorem sameCluster_iff_target {a b : AudioMapping} : sameCluster a b = true ↔ a.target = b.target := by
  simp [sameCluster, target]

theorem onCluster_append (k : UInt16 × UInt16) (front back : List AudioMapping) :
    onCluster k (front ++ back) = onCluster k front ++ onCluster k back :=
  List.filter_append ..

theorem onCluster_cons_self (m : AudioMapping) (map : List AudioMapping) :
    onCluster m.target (m :: map) = m :: onCluster m.target map :=
  List.filter_cons_of_pos (by simp)

theorem onCluster_cons_of_ne (other : m.target ≠ k) : onCluster k (m :: map) = onCluster k map :=
  List.filter_cons_of_neg (by simpa using other)

theorem onCluster_eq_nil_iff : onCluster k map = [] ↔ k ∉ map.map target := by
  simp [onCluster, List.filter_eq_nil_iff]

theorem onCluster_eq_nil (clear : ∀ x ∈ map, sameCluster m x = false) : onCluster m.target map = [] := by
  refine onCluster_eq_nil_iff.mpr fun member => ?_
  obtain ⟨x, inside, same⟩ := List.mem_map.mp member
  exact Bool.false_ne_true ((clear x inside).symm.trans (sameCluster_iff_target.mpr same.symm))

theorem addInput_cons {first : AudioMapping} (same : sameCluster m first = true)
    (rest : List AudioMapping) :
    addInput (first :: rest) m =
      if first.streamIndex ≠ m.streamIndex ∧ first.streamChannel = m.streamChannel
      then first :: rest ++ [m] else m :: rest := by
  simp [addInput, replaceFirst, same]

theorem onCluster_addInput_of_ne (other : m.target ≠ k) :
    onCluster k (addInput map m) = onCluster k map := by
  have appended : onCluster k (map ++ [m]) = onCluster k map := by
    rw [onCluster_append, onCluster_cons_of_ne other]
    exact List.append_nil _
  rcases addInput_cases map m with ⟨-, added⟩ | ⟨front, first, back, leads, -, step⟩
  · rw [added, appended]
  · rcases step with ⟨-, -, added⟩ | ⟨-, added⟩
    · rw [added, appended]
    · have replaced : first.target ≠ k := sameCluster_iff_target.mp leads.holds ▸ other
      rw [added, leads.split, onCluster_append, onCluster_append, onCluster_cons_of_ne other,
        onCluster_cons_of_ne replaced]

/-- On its own cluster channel an addition does what it would do if there were no other mappings. -/
theorem onCluster_addInput_self (map : List AudioMapping) (m : AudioMapping) :
    onCluster m.target (addInput map m) = addInput (onCluster m.target map) m := by
  have last : onCluster m.target [m] = [m] := onCluster_cons_self m []
  rcases addInput_cases map m with ⟨search, added⟩ | ⟨front, first, back, leads, -, step⟩
  · have none : onCluster m.target map = [] := by
      apply onCluster_eq_nil
      intro x member
      simpa using List.find?_eq_none.mp search x member
    rw [added, onCluster_append, none, last]
    rfl
  · have same : first.target = m.target := (sameCluster_iff_target.mp leads.holds).symm
    have clear := onCluster_eq_nil leads.clear
    have there : onCluster m.target map = first :: onCluster m.target back := by
      rw [leads.split, onCluster_append, clear, ← same, onCluster_cons_self]
      rfl
    rw [there, addInput_cons leads.holds]
    rcases step with ⟨stream, channel, added⟩ | ⟨replaces, added⟩
    · rw [if_pos ⟨stream, channel⟩, added, onCluster_append, there, last]
    · rw [if_neg replaces, added, onCluster_append, clear, onCluster_cons_self]
      rfl

theorem onCluster_addInputs (k : UInt16 × UInt16) (map ms : List AudioMapping) :
    onCluster k (addInputs map ms) = addInputs (onCluster k map) (onCluster k ms) := by
  induction ms generalizing map with
  | nil => rfl
  | cons m ms ih =>
    have step := ih (addInput map m)
    by_cases same : m.target = k
    · subst same
      rw [onCluster_addInput_self] at step
      rw [onCluster_cons_self]
      exact step
    · rw [onCluster_addInput_of_ne same] at step
      rw [onCluster_cons_of_ne same]
      exact step

theorem mem_addInput_self (map : List AudioMapping) (m : AudioMapping) : m ∈ addInput map m := by
  rcases addInput_cases map m with ⟨-, added⟩ | ⟨front, first, back, -, -, step⟩
  · simp [added]
  · rcases step with ⟨-, -, added⟩ | ⟨-, added⟩ <;> simp [added]

theorem last_mem_addInputs {ms : List AudioMapping} (last : ms.getLast? = some m) :
    m ∈ addInputs map ms := by
  obtain ⟨earlier, rfl⟩ := List.getLast?_eq_some_iff.mp last
  rw [addInputs, List.foldl_append]
  exact mem_addInput_self _ m

end AudioMapping

namespace RemoteEntity

open AudioMapping

/-- Mappings added to an input port: each cluster channel has what comes of adding the mappings of that
channel to the mappings it had. A cluster channel that no added mapping is of is left as it was, and the
mapping added last for any other one is there. -/
theorem additions_cluster_by_cluster (e : RemoteEntity) (index : UInt16) (ms : List AudioMapping)
    (k : UInt16 × UInt16) :
    let before := e.inputMappings index
    let after := (e.apply (.addMappings .input index ms)).inputMappings index
    after = addInputs before ms ∧
      onCluster k after = addInputs (onCluster k before) (onCluster k ms) ∧
      (k ∉ ms.map target → onCluster k after = onCluster k before) ∧
      (k ∈ ms.map target → ∃ last, (onCluster k ms).getLast? = some last ∧ last ∈ after) := by
  intro before after
  have added : after = addInputs before ms :=
    inputMappings_modifyMappings e index fun map => addInputs map ms
  have there : onCluster k after = addInputs (onCluster k before) (onCluster k ms) := by
    rw [added, onCluster_addInputs]
  refine ⟨added, there, ?_, ?_⟩
  · intro absent
    rw [there, onCluster_eq_nil_iff.mpr absent]
    rfl
  · intro present
    have some : onCluster k ms ≠ [] := fun none => onCluster_eq_nil_iff.mp none present
    have final := List.getLast?_eq_some_getLast some
    have member : (onCluster k ms).getLast some ∈ onCluster k after := there ▸ last_mem_addInputs final
    exact ⟨_, final, List.mem_of_mem_filter member⟩

end RemoteEntity

end AvbEntity
