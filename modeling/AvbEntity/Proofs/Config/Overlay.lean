import AvbEntity.Config.Value
import Mathlib.Data.List.Induction
import Mathlib.Data.List.Nodup

namespace AvbEntity

structure EachOnce {α : Type} (P : α → Prop) (entries : List (String × α)) : Prop where
  names : (entries.map Prod.fst).Nodup
  each : ∀ e ∈ entries, P e.2

section Entries

variable {α : Type} {P : α → Prop} {entries : List (String × α)} {name : String} {a : α}

theorem entryOf?_eq_none_iff : entryOf? name entries = none ↔ name ∉ entries.map Prod.fst := by
  induction entries with
  | nil => simp [entryOf?]
  | cons e rest ih =>
    obtain ⟨n, b⟩ := e
    by_cases same : n = name
    · simp [entryOf?, same]
    · simp [entryOf?, same, ih, Ne.symm same]

theorem mem_of_entryOf? (found : entryOf? name entries = some a) : (name, a) ∈ entries := by
  induction entries with
  | nil => cases found
  | cons e rest ih =>
    obtain ⟨n, b⟩ := e
    rw [entryOf?] at found
    split at found
    next same =>
      cases found
      exact same ▸ List.mem_cons_self
    next => exact List.mem_cons_of_mem _ (ih found)

theorem eachOnce_nil : EachOnce P [] := ⟨List.nodup_nil, nofun⟩

theorem EachOnce.find (once : EachOnce P entries) (found : entryOf? name entries = some a) : P a :=
  once.each _ (mem_of_entryOf? found)

theorem names_alterEntry (name : String) (f : Option α → α) (entries : List (String × α)) :
    (alterEntry name f entries).map Prod.fst =
      if name ∈ entries.map Prod.fst then entries.map Prod.fst else entries.map Prod.fst ++ [name] := by
  induction entries with
  | nil => rfl
  | cons e rest ih =>
    obtain ⟨n, b⟩ := e
    rw [alterEntry]
    split
    next same => simp [same]
    next other =>
      rw [List.map_cons, ih]
      split <;> simp_all [Ne.symm other]

theorem mem_alterEntry {f : Option α → α} {e : String × α} (member : e ∈ alterEntry name f entries) :
    e ∈ entries ∨ e = (name, f (entryOf? name entries)) := by
  induction entries with
  | nil => exact .inr (List.mem_singleton.mp member)
  | cons first rest ih =>
    obtain ⟨n, b⟩ := first
    rw [alterEntry] at member
    rw [entryOf?]
    split at member
    next same =>
      rw [if_pos same]
      rcases List.mem_cons.mp member with rfl | later
      · exact .inr (by rw [same])
      · exact .inl (List.mem_cons_of_mem _ later)
    next other =>
      rw [if_neg other]
      rcases List.mem_cons.mp member with rfl | later
      · exact .inl List.mem_cons_self
      · rcases ih later with old | new
        · exact .inl (List.mem_cons_of_mem _ old)
        · exact .inr new

theorem EachOnce.alterEntry {f : Option α → α} (once : EachOnce P entries)
    (new : P (f (entryOf? name entries))) : EachOnce P (alterEntry name f entries) := by
  constructor
  · rw [names_alterEntry]
    split
    next => exact once.names
    next fresh => simpa using once.names.concat fresh
  · intro e member
    rcases mem_alterEntry member with old | rfl
    · exact once.each e old
    · exact new

end Entries

namespace ConfigValue

def isTable : ConfigValue → Bool
  | table _ => true
  | _ => false

inductive Distinct : ConfigValue → Prop
  | table {entries : List (String × ConfigValue)} (names : (entries.map Prod.fst).Nodup)
      (each : ∀ e ∈ entries, Distinct e.2) : Distinct (.table entries)
  | plain {v : ConfigValue} (other : v.isTable = false) : Distinct v

theorem distinct_table_iff {entries : List (String × ConfigValue)} :
    (table entries).Distinct ↔ EachOnce Distinct entries := by
  constructor
  · intro distinct
    cases distinct with
    | table names each => exact ⟨names, each⟩
    | plain other => cases other
  · intro once
    exact .table once.names once.each

def atop (v : ConfigValue) : Option ConfigValue → ConfigValue
  | some base => overlay v base
  | none => v

theorem overlay_of_isTable_eq_false {v : ConfigValue} (plain : v.isTable = false) (base : ConfigValue) :
    overlay v base = v := by
  cases v <;> first | rfl | cases plain

theorem atop_of_isTable_eq_false {v : ConfigValue} (plain : v.isTable = false)
    (base : Option ConfigValue) : v.atop base = v := by
  cases base with
  | none => rfl
  | some base => exact overlay_of_isTable_eq_false plain base

theorem overlayEntries_cons (name : String) (v : ConfigValue) (upper lower : List (String × ConfigValue)) :
    overlayEntries ((name, v) :: upper) lower = overlayEntries upper (alterEntry name v.atop lower) := rfl

theorem entryOf?_overlayEntries {upper : List (String × ConfigValue)}
    (names : (upper.map Prod.fst).Nodup) (lower : List (String × ConfigValue)) (name : String) :
    entryOf? name (overlayEntries upper lower) =
      match entryOf? name upper with
      | some v => some (v.atop (entryOf? name lower))
      | none => entryOf? name lower := by
  induction upper generalizing lower with
  | nil => rfl
  | cons e upper ih =>
    obtain ⟨n, v⟩ := e
    obtain ⟨fresh, names⟩ := List.nodup_cons.mp names
    rw [overlayEntries_cons, ih names, entryOf?]
    by_cases same : n = name
    · subst same
      rw [entryOf?_eq_none_iff.mpr fresh, if_pos rfl]
      exact entryOf?_alterEntry_self n v.atop lower
    · rw [if_neg same, entryOf?_alterEntry_ne (Ne.symm same)]

theorem EachOnce.overlayEntries {upper lower : List (String × ConfigValue)}
    (kept : ∀ e ∈ upper, ∀ base, Distinct base → (overlay e.2 base).Distinct)
    (above : ∀ e ∈ upper, e.2.Distinct) (below : EachOnce Distinct lower) :
    EachOnce Distinct (overlayEntries upper lower) := by
  induction upper generalizing lower with
  | nil => exact below
  | cons e upper ih =>
    obtain ⟨name, v⟩ := e
    rw [overlayEntries_cons]
    have first : (v.atop (entryOf? name lower)).Distinct := by
      cases found : entryOf? name lower with
      | none => exact above _ List.mem_cons_self
      | some base => exact kept _ List.mem_cons_self base (below.find found)
    exact ih (fun e member => kept e (List.mem_cons_of_mem _ member))
      (fun e member => above e (List.mem_cons_of_mem _ member)) (below.alterEntry first)

theorem Distinct.overlay {v base : ConfigValue} (above : v.Distinct) (below : base.Distinct) :
    (overlay v base).Distinct := by
  induction above generalizing base with
  | plain other =>
    rw [overlay_of_isTable_eq_false other]
    exact .plain other
  | @table entries names each ih =>
    cases base with
    | table lower =>
      refine distinct_table_iff.mpr (EachOnce.overlayEntries ?_ each (distinct_table_iff.mp below))
      exact fun e member base distinct => ih e member distinct
    | _ => exact .table names each

theorem distinct_nest (path : List String) {v : ConfigValue} (distinct : v.Distinct) :
    (nest path v).Distinct := by
  induction path with
  | nil => exact distinct
  | cons name path ih => exact .table (List.nodup_singleton name) (List.forall_mem_singleton.mpr ih)

theorem distinct_layered {layers : List ConfigValue} (each : ∀ v ∈ layers, v.Distinct) :
    (layered layers).Distinct := by
  induction layers using List.reverseRecOn with
  | nil => exact .table List.nodup_nil nofun
  | append_singleton layers v ih =>
    rw [List.forall_mem_append, List.forall_mem_singleton] at each
    rw [layered, List.foldl_append]
    exact each.2.overlay (ih each.1)

/-- Whether all that a path leads through is tables, as far as it leads. -/
def Passes : List String → ConfigValue → Prop
  | [], _ => True
  | name :: path, v => v.isTable = true ∧ ∀ w, v.get? name = some w → Passes path w

theorem exists_table {v : ConfigValue} (isTable : v.isTable = true) : ∃ entries, v = table entries := by
  cases v with
  | table entries => exact ⟨entries, rfl⟩
  | _ => cases isTable

theorem isTable_overlay {v base : ConfigValue} (above : v.isTable = true) :
    (overlay v base).isTable = true := by
  obtain ⟨upper, rfl⟩ := exists_table above
  cases base <;> rfl

theorem get?_overlay {v base : ConfigValue} (distinct : v.Distinct) (above : v.isTable = true)
    (below : base.isTable = true) (name : String) :
    (overlay v base).get? name =
      match v.get? name with
      | some w => some (w.atop (base.get? name))
      | none => base.get? name := by
  obtain ⟨upper, rfl⟩ := exists_table above
  obtain ⟨lower, rfl⟩ := exists_table below
  exact entryOf?_overlayEntries (distinct_table_iff.mp distinct).names lower name

theorem Distinct.get? {v w : ConfigValue} {name : String} (distinct : v.Distinct)
    (found : v.get? name = some w) : w.Distinct := by
  cases v with
  | table entries => exact (distinct_table_iff.mp distinct).find found
  | _ => cases found

theorem Passes.overlay {path : List String} {v base : ConfigValue} (distinct : v.Distinct)
    (above : v.Passes path) (below : base.Passes path) : (ConfigValue.overlay v base).Passes path := by
  induction path generalizing v base with
  | nil => trivial
  | cons name path ih =>
    refine ⟨isTable_overlay above.1, fun w found => ?_⟩
    rw [get?_overlay distinct above.1 below.1] at found
    cases upper : v.get? name with
    | none =>
      rw [upper] at found
      exact below.2 w found
    | some u =>
      rw [upper] at found
      cases found
      cases lower : base.get? name with
      | none => exact above.2 u upper
      | some l => exact ih (distinct.get? upper) (above.2 u upper) (below.2 l lower)

/-- At the end of a path an overlay has what the upper value has, over what the lower one has. -/
theorem at?_overlay {path : List String} {v base : ConfigValue} (distinct : v.Distinct)
    (above : v.Passes path) (below : base.Passes path) :
    (ConfigValue.overlay v base).at? path =
      match v.at? path with
      | some w => some (w.atop (base.at? path))
      | none => base.at? path := by
  induction path generalizing v base with
  | nil => rfl
  | cons name path ih =>
    rw [at?, get?_overlay distinct above.1 below.1, at?, at?]
    cases upper : v.get? name with
    | none => rfl
    | some u =>
      simp only [Option.bind_some]
      cases lower : base.get? name with
      | none =>
        simp only [atop, Option.bind_none]
        cases u.at? path <;> rfl
      | some l => exact ih (distinct.get? upper) (above.2 u upper) (below.2 l lower)

theorem passes_nest {path target : List String} (stops : path <+: target → path = target)
    (v : ConfigValue) : (nest path v).Passes target := by
  induction path generalizing target with
  | nil =>
    cases target with
    | nil => trivial
    | cons name target => cases stops (List.nil_prefix)
  | cons first path ih =>
    cases target with
    | nil => trivial
    | cons name target =>
      refine ⟨rfl, fun w found => ?_⟩
      rw [nest, get?, entryOf?] at found
      split at found
      next same =>
        cases found
        subst same
        exact ih fun front => (List.cons.inj (stops ((List.prefix_cons_inj _).mpr front))).2
      next => cases found

theorem at?_nest_eq_none {path target : List String} (before : ¬ path <+: target)
    (behind : ¬ target <+: path) (v : ConfigValue) : (nest path v).at? target = none := by
  induction path generalizing target with
  | nil => exact absurd List.nil_prefix before
  | cons first path ih =>
    cases target with
    | nil => exact absurd List.nil_prefix behind
    | cons name target =>
      rw [nest, at?, get?, entryOf?]
      split
      next same =>
        subst same
        rw [List.prefix_cons_inj] at before behind
        exact ih before behind
      next => rfl

end ConfigValue

end AvbEntity
