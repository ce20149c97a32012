import AvbEntity.Proofs.Mapping.Cluster
import AvbEntity.Proofs.Mapping.DynamicMap
import Mathlib.Data.List.Count

namespace AvbEntity

namespace AudioMapping

/-- What an addition compares: an input port has one place for each cluster channel, up to redundant streams,
and an output port one for each stream channel. -/
def key : Direction → AudioMapping → UInt16 × UInt16
  | .input => target
  | .output => channel

theorem removeAll_eq_diff (map ms : List AudioMapping) : removeAll map ms = map.diff ms :=
  (List.diff_eq_foldl map ms).symm

theorem removeAll_perm {ms others : List AudioMapping} (same : others.Perm ms)
    (map : List AudioMapping) : removeAll map others = removeAll map ms := by
  rw [removeAll_eq_diff, removeAll_eq_diff, same.diff_left]

theorem removeAll_append_self {map ms : List AudioMapping} (apart : map.Disjoint ms) :
    removeAll (map ++ ms) ms = map := by
  induction ms with
  | nil => exact List.append_nil map
  | cons m ms ih =>
    have absent : m ∉ map := fun member => apart member List.mem_cons_self
    have first : (map ++ m :: ms).erase m = map ++ ms := by
      rw [List.erase_append_right _ absent, List.erase_cons_head]
    calc removeAll (map ++ m :: ms) (m :: ms)
        = removeAll ((map ++ m :: ms).erase m) ms := rfl
      _ = removeAll (map ++ ms) ms := by rw [first]
      _ = map := ih fun x inside member => apart inside (List.mem_cons_of_mem m member)

section Fresh

variable {map ms : List AudioMapping} {m : AudioMapping}

theorem addInput_of_fresh (fresh : m.target ∉ map.map target) : addInput map m = map ++ [m] := by
  rcases addInput_cases map m with ⟨-, added⟩ | ⟨front, first, back, leads, -, -⟩
  · exact added
  · have same : first.target = m.target := (sameCluster_iff_target.mp leads.holds).symm
    have member : first ∈ map := by simp [leads.split]
    exact absurd (same ▸ List.mem_map_of_mem member) fresh

theorem addOutput_of_fresh (fresh : m.channel ∉ map.map channel) : addOutput map m = map ++ [m] := by
  rcases addOutput_cases map m with ⟨-, added⟩ | ⟨front, old, back, split, same, -⟩
  · exact added
  · have member : old ∈ map := by simp [split]
    exact absurd (same ▸ List.mem_map_of_mem member) fresh

theorem foldl_of_fresh {step : List AudioMapping → AudioMapping → List AudioMapping}
    {key : AudioMapping → UInt16 × UInt16}
    (appends : ∀ map m, key m ∉ map.map key → step map m = map ++ [m])
    (distinct : (ms.map key).Nodup) (fresh : (map.map key).Disjoint (ms.map key)) :
    ms.foldl step map = map ++ ms := by
  induction ms generalizing map with
  | nil => exact (List.append_nil map).symm
  | cons m ms ih =>
    obtain ⟨alone, rest⟩ := List.nodup_cons.mp distinct
    have first : step map m = map ++ [m] :=
      appends map m fun member => fresh member List.mem_cons_self
    have still : ((map ++ [m]).map key).Disjoint (ms.map key) := by
      intro k inside later
      rw [List.map_append, List.mem_append, List.map_singleton, List.mem_singleton] at inside
      rcases inside with earlier | rfl
      · exact fresh earlier (List.mem_cons_of_mem _ later)
      · exact alone later
    rw [List.foldl_cons, first, ih rest still, List.append_assoc, List.singleton_append]

theorem addAll_of_fresh {d : Direction} (distinct : (ms.map (key d)).Nodup)
    (fresh : (map.map (key d)).Disjoint (ms.map (key d))) : addAll d map ms = map ++ ms := by
  cases d with
  | input => exact foldl_of_fresh (fun _ _ => addInput_of_fresh) distinct fresh
  | output => exact foldl_of_fresh (fun _ _ => addOutput_of_fresh) distinct fresh

theorem removeAll_addAll_of_fresh {d : Direction} {others : List AudioMapping}
    (distinct : (ms.map (key d)).Nodup) (fresh : (map.map (key d)).Disjoint (ms.map (key d)))
    (same : others.Perm ms) : removeAll (addAll d map ms) others = map := by
  have apart : map.Disjoint ms := fun m inside member =>
    fresh (List.mem_map_of_mem inside) (List.mem_map_of_mem member)
  calc removeAll (addAll d map ms) others
      = removeAll (map ++ ms) others := by rw [addAll_of_fresh distinct fresh]
    _ = removeAll (map ++ ms) ms := removeAll_perm same _
    _ = map := removeAll_append_self apart

end Fresh

end AudioMapping

namespace RemoteEntity

open AudioMapping

def portMappings (e : RemoteEntity) (d : Direction) (index : UInt16) : List AudioMapping :=
  match d with
  | .input => e.inputMappings index
  | .output => e.outputMappings index

theorem portMappings_addMappings (e : RemoteEntity) (d : Direction) (index : UInt16)
    (ms : List AudioMapping) :
    (e.apply (.addMappings d index ms)).portMappings d index = addAll d (e.portMappings d index) ms := by
  cases d with
  | input => exact inputMappings_modifyMappings e index fun map => addInputs map ms
  | output => exact outputMappings_modifyMappings e index fun map => addOutputs map ms

theorem portMappings_removeMappings (e : RemoteEntity) (d : Direction) (index : UInt16)
    (ms : List AudioMapping) :
    (e.apply (.removeMappings d index ms)).portMappings d index =
      removeAll (e.portMappings d index) ms := by
  cases d with
  | input => exact inputMappings_modifyMappings e index fun map => removeAll map ms
  | output => exact outputMappings_modifyMappings e index fun map => removeAll map ms

/-- Mappings removed from a stream port: what is left stands in its order, each mapping as often as before
less the times that it was removed, and the order of the removed ones does not count. Mappings whose keys
are their own and new to the port come behind those there are when they are added, and are taken away by a
removal in any order as if they had never been added. -/
theorem removal_is_difference (e : RemoteEntity) (d : Direction) (index : UInt16)
    (ms : List AudioMapping) :
    let before := e.portMappings d index
    let after := (e.apply (.removeMappings d index ms)).portMappings d index
    (after.Sublist before ∧ ∀ m, after.count m = before.count m - ms.count m) ∧
      (∀ others, others.Perm ms →
        (e.apply (.removeMappings d index others)).portMappings d index = after) ∧
      ((ms.map (key d)).Nodup → (before.map (key d)).Disjoint (ms.map (key d)) →
        (e.apply (.addMappings d index ms)).portMappings d index = before ++ ms ∧
          ∀ others, others.Perm ms →
            (e.run [.addMappings d index ms, .removeMappings d index others]).portMappings d index =
              before) := by
  intro before after
  have left : after = removeAll before ms := portMappings_removeMappings e d index ms
  have added := portMappings_addMappings e d index ms
  refine ⟨⟨?_, fun m => ?_⟩, fun others same => ?_, fun distinct fresh => ⟨?_, fun others same => ?_⟩⟩
  · rw [left]
    exact removeAll_sublist before ms
  · rw [left, removeAll_eq_diff, List.count_diff]
  · rw [left, portMappings_removeMappings, removeAll_perm same]
  · rw [added, addAll_of_fresh distinct fresh]
  · have removed := portMappings_removeMappings (e.apply (.addMappings d index ms)) d index others
    rw [added, removeAll_addAll_of_fresh distinct fresh same] at removed
    exact removed

end RemoteEntity

end AvbEntity
