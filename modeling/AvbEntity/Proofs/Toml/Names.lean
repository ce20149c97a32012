import AvbEntity.Proofs.Config.Overlay
import AvbEntity.Toml.Document

namespace AvbEntity

theorem Text.forall_of_itemsBy? {α : Type} {P : α → Prop} {separator : Char}
    {item? : List Char → Option (α × List Char)}
    (each : ∀ cs a rest, item? cs = some (a, rest) → P a) {cs rest : List Char} {as : List α}
    (read : itemsBy? separator item? cs = some (as, rest)) : ∀ a ∈ as, P a := by
  fun_induction itemsBy? separator item? cs generalizing as rest with
  | case1 => cases read
  | case2 cs a first =>
    cases read
    exact List.forall_mem_singleton.mpr (each _ _ _ first)
  | case3 cs a behind shorter first ih =>
    obtain ⟨⟨later, left⟩, more, same⟩ := Option.map_eq_some_iff.mp read
    cases same
    exact List.forall_mem_cons.mpr ⟨each _ _ _ first, ih more⟩
  | case4 => cases read
  | case5 cs a c behind first =>
    cases read
    exact List.forall_mem_singleton.mpr (each _ _ _ first)

theorem forall_of_foldlM {σ α : Type} {P : σ → Prop} {Q : α → Prop} {step : σ → α → Option σ}
    (kept : ∀ s a t, P s → Q a → step s a = some t → P t) {l : List α} {s t : σ} (start : P s)
    (each : ∀ a ∈ l, Q a) (result : l.foldlM step s = some t) : P t := by
  induction l generalizing s with
  | nil =>
    cases result
    exact start
  | cons a l ih =>
    obtain ⟨first, rest⟩ := List.forall_mem_cons.mp each
    rw [List.foldlM_cons] at result
    obtain ⟨u, step, later⟩ := Option.bind_eq_some_iff.mp result
    exact ih (kept s a u start first step) rest later

namespace Toml

open ConfigValue (distinct_table_iff)

inductive Node.Distinct : Node → Prop
  | value {v : ConfigValue} (distinct : v.Distinct) : Distinct (.value v)
  | table {origin : Origin} {entries : Entries} (names : (entries.map Prod.fst).Nodup)
      (each : ∀ e ∈ entries, Distinct e.2) : Distinct (.table origin entries)
  | tables {items : List Entries} : Distinct (.tables items)

theorem Node.distinct_table_iff {origin : Origin} {entries : Entries} :
    (Node.table origin entries).Distinct ↔ EachOnce Node.Distinct entries := by
  constructor
  · intro distinct
    cases distinct with
    | table names each => exact ⟨names, each⟩
  · intro once
    exact .table once.names once.each

theorem entryValues_eq_map (entries : Entries) :
    entryValues entries = entries.map fun e => (e.1, e.2.toValue) := by
  induction entries with
  | nil => rfl
  | cons e entries ih => rw [List.map_cons, ← ih]; rfl

theorem Node.Distinct.toValue {n : Node} (distinct : n.Distinct) : n.toValue.Distinct := by
  induction distinct with
  | value distinct => exact distinct
  | tables => exact .plain rfl
  | @table origin entries names each ih =>
    rw [Node.toValue, entryValues_eq_map]
    refine .table ?_ (List.forall_mem_map.mpr ih)
    rw [List.map_map]
    exact names

theorem EachOnce.distinct_entryValues {entries : Entries} (once : EachOnce Node.Distinct entries) :
    (ConfigValue.table (entryValues entries)).Distinct := by
  have table : (Node.table .header entries).Distinct := Node.distinct_table_iff.mpr once
  exact table.toValue

/-- A change at the end of a path gives no name twice if it gives none twice in the table it is made in. -/
theorem distinct_of_descend {origin : Origin} {f : Origin → Entries → Option Entries}
    (kept : ∀ o entries result, EachOnce Node.Distinct entries → f o entries = some result →
      EachOnce Node.Distinct result)
    {path : List String} {o : Origin} {entries result : Entries} (once : EachOnce Node.Distinct entries)
    (changed : descend origin f path o entries = some result) : EachOnce Node.Distinct result := by
  induction path generalizing o entries result with
  | nil => exact kept o entries result once changed
  | cons name path ih =>
    rw [descend] at changed
    split at changed
    next =>
      obtain ⟨inner, made, rfl⟩ := Option.map_eq_some_iff.mp changed
      exact once.alterEntry (Node.distinct_table_iff.mpr (ih eachOnce_nil made))
    next => cases changed
    next found =>
      split at changed
      next => cases changed
      next =>
        obtain ⟨inner, made, rfl⟩ := Option.map_eq_some_iff.mp changed
        have before := Node.distinct_table_iff.mp (once.find found)
        exact once.alterEntry (Node.distinct_table_iff.mpr (ih before made))
    next =>
      split at changed
      next => cases changed
      next =>
        obtain ⟨inner, made, rfl⟩ := Option.map_eq_some_iff.mp changed
        exact once.alterEntry .tables

theorem distinct_of_addValue {name : String} {v : ConfigValue} (distinct : v.Distinct)
    {entries result : Entries} (once : EachOnce Node.Distinct entries)
    (added : addValue name v entries = some result) : EachOnce Node.Distinct result := by
  unfold addValue at added
  split at added
  · cases added
    exact once.alterEntry (.value distinct)
  · cases added

theorem distinct_of_addKey {key : KeyPath} {v : ConfigValue} (distinct : v.Distinct) {o : Origin}
    {entries result : Entries} (once : EachOnce Node.Distinct entries)
    (added : addKey key v o entries = some result) : EachOnce Node.Distinct result := by
  refine distinct_of_descend ?_ once added
  intro o entries result once added
  split at added
  · cases added
  · exact distinct_of_addValue distinct once added

theorem distinct_of_openTable {name : String} {entries result : Entries}
    (once : EachOnce Node.Distinct entries) (opened : openTable name entries = some result) :
    EachOnce Node.Distinct result := by
  unfold openTable at opened
  split at opened
  next =>
    cases opened
    exact once.alterEntry (Node.distinct_table_iff.mpr eachOnce_nil)
  next found =>
    cases opened
    have before := Node.distinct_table_iff.mp (once.find found)
    exact once.alterEntry (Node.distinct_table_iff.mpr before)
  next => cases opened

theorem distinct_of_openItem {name : String} {entries result : Entries}
    (once : EachOnce Node.Distinct entries) (opened : openItem name entries = some result) :
    EachOnce Node.Distinct result := by
  unfold openItem at opened
  split at opened
  · cases opened
    exact once.alterEntry .tables
  · cases opened
    exact once.alterEntry .tables
  · cases opened

theorem distinct_of_literalValue? {cs : List Char} {v : ConfigValue}
    (read : literalValue? cs = some v) : v.Distinct := by
  unfold literalValue? at read
  repeat' split at read
  all_goals cases read
  all_goals exact .plain rfl

theorem distinct_of_scalar? {cs rest : List Char} {v : ConfigValue}
    (read : scalar? cs = some (v, rest)) : v.Distinct := by
  unfold scalar? at read
  split at read
  · obtain ⟨_, -, same⟩ := Option.map_eq_some_iff.mp read
    cases same
    exact .plain rfl
  · obtain ⟨_, -, same⟩ := Option.map_eq_some_iff.mp read
    cases same
    exact .plain rfl
  · split at read
    next moment =>
      obtain ⟨_, -, same⟩ := Option.map_eq_some_iff.mp moment
      cases read
      cases same
      exact .table (List.nodup_singleton _) (List.forall_mem_singleton.mpr (.plain rfl))
    next =>
      obtain ⟨_, literal, same⟩ := Option.map_eq_some_iff.mp read
      cases same
      exact distinct_of_literalValue? literal

theorem distinct_of_assignment? {value? : Reader ConfigValue}
    (values : ∀ cs v rest, value? cs = some (v, rest) → v.Distinct) {cs rest : List Char}
    {assigned : KeyPath × ConfigValue} (read : assignment? value? cs = some (assigned, rest)) :
    assigned.2.Distinct := by
  unfold assignment? at read
  obtain ⟨⟨key, behind⟩, -, read⟩ := Option.bind_eq_some_iff.mp read
  dsimp only at read
  split at read
  next =>
    obtain ⟨⟨v, behind⟩, value, read⟩ := Option.bind_eq_some_iff.mp read
    cases read
    exact values _ _ _ value
  next => cases read

theorem distinct_of_inlineTable? {assignments : List (KeyPath × ConfigValue)} {v : ConfigValue}
    (each : ∀ a ∈ assignments, a.2.Distinct) (made : inlineTable? assignments = some v) : v.Distinct := by
  obtain ⟨entries, added, rfl⟩ := Option.map_eq_some_iff.mp made
  refine EachOnce.distinct_entryValues (forall_of_foldlM ?_ eachOnce_nil each added)
  exact fun entries a result once distinct => distinct_of_addKey distinct once

theorem distinct_of_value? {depth : Nat} {cs rest : List Char} {v : ConfigValue}
    (read : value? depth cs = some (v, rest)) : v.Distinct := by
  induction depth generalizing cs v rest with
  | zero => exact distinct_of_scalar? read
  | succ depth ih =>
    unfold value? at read
    split at read
    next equal => cases equal
    next =>
      obtain ⟨_, -, same⟩ := Option.map_eq_some_iff.mp read
      cases same
      exact .plain rfl
    next equal =>
      cases equal
      split at read
      next =>
        cases read
        exact .table List.nodup_nil nofun
      next =>
        obtain ⟨⟨assignments, behind⟩, items, read⟩ := Option.bind_eq_some_iff.mp read
        have each : ∀ a ∈ assignments, a.2.Distinct :=
          Text.forall_of_itemsBy? (fun _ _ _ => distinct_of_assignment? fun _ _ _ => ih) items
        dsimp only at read
        split at read
        next =>
          obtain ⟨table, made, read⟩ := Option.bind_eq_some_iff.mp read
          cases read
          exact distinct_of_inlineTable? each made
        next => cases read
    next => exact distinct_of_scalar? read

def Statement.Distinct : Statement → Prop
  | .assign _ v => v.Distinct
  | _ => True

theorem distinct_of_statement? {cs rest : List Char} {s : Statement}
    (read : statement? cs = some (s, rest)) : s.Distinct := by
  unfold statement? at read
  split at read
  next =>
    obtain ⟨_, -, read⟩ := Option.bind_eq_some_iff.mp read
    dsimp only at read
    split at read
    next =>
      obtain ⟨_, -, read⟩ := Option.bind_eq_some_iff.mp read
      cases read
      trivial
    next => cases read
  next =>
    obtain ⟨_, -, read⟩ := Option.bind_eq_some_iff.mp read
    dsimp only at read
    split at read
    next =>
      obtain ⟨_, -, read⟩ := Option.bind_eq_some_iff.mp read
      cases read
      trivial
    next => cases read
  next =>
    obtain ⟨_, assignment, read⟩ := Option.bind_eq_some_iff.mp read
    obtain ⟨_, -, read⟩ := Option.bind_eq_some_iff.mp read
    cases read
    exact distinct_of_assignment? (fun _ _ _ => distinct_of_value?) assignment

theorem distinct_of_statements? {cs : List Char} {statements : List Statement}
    (read : statements? cs = some statements) : ∀ s ∈ statements, s.Distinct := by
  fun_induction statements? cs generalizing statements with
  | case1 =>
    cases read
    exact nofun
  | case2 cs present rest ended shorter ih => exact ih read
  | case3 => cases read
  | case4 => cases read
  | case5 cs present line s rest first shorter ih =>
    obtain ⟨later, more, rfl⟩ := Option.map_eq_some_iff.mp read
    exact List.forall_mem_cons.mpr ⟨distinct_of_statement? first, ih more⟩
  | case6 => cases read

theorem distinct_of_add {b result : Build} {s : Statement} (once : EachOnce Node.Distinct b.entries)
    (distinct : s.Distinct) (added : b.add s = some result) : EachOnce Node.Distinct result.entries := by
  cases s with
  | table header =>
    obtain ⟨entries, opened, rfl⟩ := Option.map_eq_some_iff.mp added
    exact distinct_of_descend (fun _ _ _ => distinct_of_openTable) once opened
  | item header =>
    obtain ⟨entries, opened, rfl⟩ := Option.map_eq_some_iff.mp added
    exact distinct_of_descend (fun _ _ _ => distinct_of_openItem) once opened
  | assign key v =>
    obtain ⟨entries, opened, rfl⟩ := Option.map_eq_some_iff.mp added
    exact distinct_of_descend (fun _ _ _ => distinct_of_addKey distinct) once opened

theorem distinct_of_parse? {text : String} {v : ConfigValue} (read : parse? text = some v) :
    v.Distinct := by
  obtain ⟨statements, listed, built⟩ := Option.bind_eq_some_iff.mp read
  obtain ⟨b, added, rfl⟩ := Option.map_eq_some_iff.mp built
  exact EachOnce.distinct_entryValues
    (forall_of_foldlM (fun _ _ _ => distinct_of_add) eachOnce_nil (distinct_of_statements? listed) added)

end Toml

end AvbEntity
