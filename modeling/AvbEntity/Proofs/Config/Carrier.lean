import AvbEntity.Config.Carrier
import AvbEntity.Proofs.Config.Overlay

namespace AvbEntity

namespace ConfigValue

section Distinct

variable {entries result : List (String × ConfigValue)}

theorem names_of_carriedEntries? (stands : carriedEntries? entries = some result) :
    (result.map Prod.fst).Sublist (entries.map Prod.fst) := by
  induction entries generalizing result with
  | nil =>
    cases stands
    exact .slnil
  | cons e rest ih =>
    obtain ⟨name, v⟩ := e
    rw [carriedEntries?] at stands
    split at stands
    next =>
      split at stands
      · exact (ih stands).cons name
      · cases stands
    next =>
      obtain ⟨w, -, stands⟩ := Option.bind_eq_some_iff.mp stands
      obtain ⟨later, more, same⟩ := Option.bind_eq_some_iff.mp stands
      cases same
      exact (ih more).cons_cons name

theorem each_of_carriedEntries? {P : ConfigValue → Prop}
    (each : ∀ e ∈ entries, ∀ w, carried? e.2 = some w → P w)
    (stands : carriedEntries? entries = some result) : ∀ e ∈ result, P e.2 := by
  induction entries generalizing result with
  | nil =>
    cases stands
    exact nofun
  | cons e rest ih =>
    obtain ⟨name, v⟩ := e
    obtain ⟨first, others⟩ := List.forall_mem_cons.mp each
    rw [carriedEntries?] at stands
    split at stands
    next =>
      split at stands
      · exact ih others stands
      · cases stands
    next =>
      obtain ⟨w, here, stands⟩ := Option.bind_eq_some_iff.mp stands
      obtain ⟨later, more, same⟩ := Option.bind_eq_some_iff.mp stands
      cases same
      exact List.forall_mem_cons.mpr ⟨first w here, ih others more⟩

theorem distinct_of_carried? {v w : ConfigValue} (distinct : v.Distinct)
    (stands : carried? v = some w) : w.Distinct := by
  induction distinct generalizing w with
  | @plain v other =>
    cases v with
    | table entries => cases other
    | list items =>
      obtain ⟨_, -, rfl⟩ := Option.map_eq_some_iff.mp stands
      exact .plain rfl
    | _ =>
      cases stands
      exact .plain rfl
  | @table entries names each ih =>
    obtain ⟨inner, carried, rfl⟩ := Option.map_eq_some_iff.mp stands
    have once : EachOnce Distinct inner :=
      ⟨names.sublist (names_of_carriedEntries? carried),
        each_of_carriedEntries? (fun e member _ => ih e member) carried⟩
    split
    next v found => exact once.find found
    next => exact distinct_table_iff.mpr once

theorem once_of_mapM {f : String × ConfigValue → Option ConfigValue}
    (kept : ∀ e ∈ entries, ∀ w, f e = some w → w.Distinct) (names : (entries.map Prod.fst).Nodup)
    (mapped : (entries.mapM fun e => (f e).map fun v => (e.1, v)) = some result) :
    EachOnce Distinct result := by
  have related : result.map Prod.fst = entries.map Prod.fst ∧ ∀ e ∈ result, e.2.Distinct := by
    clear names
    induction entries generalizing result with
    | nil =>
      cases mapped
      exact ⟨rfl, nofun⟩
    | cons e rest ih =>
      obtain ⟨first, others⟩ := List.forall_mem_cons.mp kept
      rw [List.mapM_cons] at mapped
      obtain ⟨_, here, mapped⟩ := Option.bind_eq_some_iff.mp mapped
      obtain ⟨later, more, same⟩ := Option.bind_eq_some_iff.mp mapped
      obtain ⟨w, value, rfl⟩ := Option.map_eq_some_iff.mp here
      cases same
      obtain ⟨same, distinct⟩ := ih others more
      exact ⟨congrArg (e.1 :: ·) same, List.forall_mem_cons.mpr ⟨first w value, distinct⟩⟩
  exact ⟨related.1 ▸ names, related.2⟩

theorem distinct_of_ofFile? {v w : ConfigValue} (distinct : v.Distinct) (stands : ofFile? v = some w) :
    w.Distinct := by
  cases v with
  | table entries =>
    obtain ⟨result, mapped, rfl⟩ := Option.map_eq_some_iff.mp stands
    have once := distinct_table_iff.mp distinct
    exact distinct_table_iff.mpr
      (once_of_mapM (fun e member _ => distinct_of_carried? (once.each e member)) once.names mapped)
  | _ => exact distinct_of_carried? distinct stands

end Distinct

theorem carriedEntries?_eq_self {entries : List (String × ConfigValue)}
    (plain : ∀ e ∈ entries, e.1 ≠ carriedNumberName ∧ carried? e.2 = some e.2) :
    carriedEntries? entries = some entries := by
  induction entries with
  | nil => rfl
  | cons e rest ih =>
    obtain ⟨name, v⟩ := e
    obtain ⟨⟨unreserved, value⟩, others⟩ := List.forall_mem_cons.mp plain
    rw [carriedEntries?, if_neg unreserved, value, ih others]
    rfl

theorem carried?_table_eq_self {entries : List (String × ConfigValue)}
    (plain : ∀ e ∈ entries, e.1 ≠ carriedName ∧ e.1 ≠ carriedNumberName ∧ carried? e.2 = some e.2) :
    carried? (table entries) = some (table entries) := by
  have absent : entryOf? carriedName entries = none := by
    refine entryOf?_eq_none_iff.mpr fun member => ?_
    obtain ⟨e, inside, same⟩ := List.mem_map.mp member
    exact (plain e inside).1 same
  rw [carried?, carriedEntries?_eq_self fun e member => (plain e member).2, Option.map_some, absent]

theorem ofFile?_table_eq_self {entries : List (String × ConfigValue)}
    (plain : ∀ e ∈ entries, carried? e.2 = some e.2) : ofFile? (table entries) = some (table entries) := by
  have same : (entries.mapM fun e => (carried? e.2).map fun v => (e.1, v)) = some entries := by
    induction entries with
    | nil => rfl
    | cons e rest ih =>
      obtain ⟨value, others⟩ := List.forall_mem_cons.mp plain
      rw [List.mapM_cons, value, ih others]
      rfl
  rw [ofFile?, same, Option.map_some]

end ConfigValue

end AvbEntity
