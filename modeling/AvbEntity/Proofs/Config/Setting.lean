import AvbEntity.Config.Basic
import AvbEntity.Proofs.Config.Overlay

namespace AvbEntity

inductive Setting where
  | maxAttempts (k : QueryKind)
  | delayMillis (k : QueryKind)
  | backoff (k : QueryKind)
  | maxDelayMillis (k : QueryKind)
  | cacheEnabled
deriving DecidableEq

theorem QueryKind.configName_injective : Function.Injective QueryKind.configName := by
  intro k l same
  cases k <;> cases l <;> first | rfl | exact absurd same (by decide)

namespace Setting

abbrev Value : Setting → Type
  | maxAttempts _ => UInt16
  | delayMillis _ => UInt64
  | backoff _ => BackoffMode
  | maxDelayMillis _ => UInt64
  | cacheEnabled => Bool

def ofKind (k : QueryKind) : List Setting := [maxAttempts k, delayMillis k, backoff k, maxDelayMillis k]

def header : Setting → List String
  | maxAttempts k | delayMillis k | backoff k | maxDelayMillis k => ["retries", k.configName]
  | cacheEnabled => ["cache"]

def name : Setting → String
  | maxAttempts _ => "max_attempts"
  | delayMillis _ => "delay_ms"
  | backoff _ => "backoff"
  | maxDelayMillis _ => "max_delay_ms"
  | cacheEnabled => "enabled"

def path (s : Setting) : List String := s.header ++ [s.name]

def toValue : (s : Setting) → s.Value → ConfigValue
  | maxAttempts _, n => .integer n.toNat
  | delayMillis _, n => .integer n.toNat
  | backoff _, m => .text m.name
  | maxDelayMillis _, n => .integer n.toNat
  | cacheEnabled, b => .bool b

theorem name_cases (s : Setting) :
    s.name ∈ ["max_attempts", "delay_ms", "backoff", "max_delay_ms", "enabled"] := by
  cases s <;> simp [name]

theorem nodup_names_ofKind (k : QueryKind) : ((ofKind k).map name).Nodup := by
  have names : (ofKind k).map name = ["max_attempts", "delay_ms", "backoff", "max_delay_ms"] := rfl
  rw [names]
  decide

theorem isTable_toValue (s : Setting) (x : s.Value) : (s.toValue x).isTable = false := by
  cases s <;> rfl

/-- No setting lies within another one. -/
theorem eq_of_path_isPrefix {s t : Setting} (front : s.path <+: t.path) : s = t := by
  cases s <;> cases t <;>
    simp [path, header, name, QueryKind.configName_injective.eq_iff] at front ⊢ <;> exact front

end Setting

abbrev Given : Type := (s : Setting) → Option s.Value

namespace Given

def nothing : Given := fun _ => none

def atop (upper lower : Given) : Given := fun s => (upper s).or (lower s)

def retry (g : Given) (k : QueryKind) : RetryConfig where
  maxAttempts := (g (.maxAttempts k)).getD ({} : RetryConfig).maxAttempts
  delayMillis := (g (.delayMillis k)).getD ({} : RetryConfig).delayMillis
  backoff := (g (.backoff k)).getD ({} : RetryConfig).backoff
  maxDelayMillis := g (.maxDelayMillis k)

def toConfig (g : Given) : Config where
  retries := {
    registerUnsolicited := g.retry .registerUnsolicited
    milanInfo := g.retry .milanInfo
    descriptor := g.retry .descriptor
    dynamicInfo := g.retry .dynamicInfo
    descriptorInfo := g.retry .descriptorInfo }
  cacheEnabled := (g .cacheEnabled).getD ({} : Config).cacheEnabled

theorem get_retries_toConfig (g : Given) (k : QueryKind) : g.toConfig.retries.get k = g.retry k := by
  cases k <;> rfl

end Given

namespace Config

def given (c : Config) : Given
  | .maxAttempts k => some (c.retries.get k).maxAttempts
  | .delayMillis k => some (c.retries.get k).delayMillis
  | .backoff k => some (c.retries.get k).backoff
  | .maxDelayMillis k => (c.retries.get k).maxDelayMillis
  | .cacheEnabled => some c.cacheEnabled

theorem given_toConfig (g : Given) : g.toConfig.given = g.atop ({} : Config).given := by
  have filled : ∀ {α : Type} (x : Option α) (d : α), some (x.getD d) = x.or (some d) := by
    intro α x d
    cases x <;> rfl
  funext s
  cases s with
  | maxAttempts k | delayMillis k | backoff k =>
    rw [given, Given.get_retries_toConfig]
    refine (filled _ _).trans (congrArg _ ?_)
    cases k <;> rfl
  | maxDelayMillis k =>
    rw [given, Given.get_retries_toConfig]
    refine (Option.or_none).symm.trans (congrArg _ ?_)
    cases k <;> rfl
  | cacheEnabled => exact filled _ _

theorem given_injective : Function.Injective given := by
  intro c d same
  have retries : ∀ k, c.retries.get k = d.retries.get k := by
    intro k
    have attempts := Option.some.inj (congrFun same (.maxAttempts k))
    have delay := Option.some.inj (congrFun same (.delayMillis k))
    have mode := Option.some.inj (congrFun same (.backoff k))
    have cap : (c.retries.get k).maxDelayMillis = (d.retries.get k).maxDelayMillis :=
      congrFun same (.maxDelayMillis k)
    cases hc : c.retries.get k
    cases hd : d.retries.get k
    simp_all
  have cache := Option.some.inj (congrFun same .cacheEnabled)
  obtain ⟨⟨_, _, _, _, _⟩, _⟩ := c
  obtain ⟨⟨_, _, _, _, _⟩, _⟩ := d
  have first := retries .registerUnsolicited
  have second := retries .milanInfo
  have third := retries .descriptor
  have fourth := retries .dynamicInfo
  have fifth := retries .descriptorInfo
  simp_all [PerQuery.get]

end Config

namespace ConfigValue

/-- Whether a value gives certain settings: what it has at the path of a setting is the value given for it,
and all on the way there is tables. -/
structure Gives (v : ConfigValue) (g : Given) : Prop where
  passes : ∀ s : Setting, v.Passes s.path
  settings : ∀ s : Setting, v.at? s.path = (g s).map s.toValue

theorem Gives.overlay {v base : ConfigValue} {g h : Given} (distinct : v.Distinct) (above : v.Gives g)
    (below : base.Gives h) : (overlay v base).Gives (g.atop h) := by
  refine ⟨fun s => (above.passes s).overlay distinct (below.passes s), fun s => ?_⟩
  rw [at?_overlay distinct (above.passes s) (below.passes s), above.settings, below.settings, Given.atop]
  cases g s with
  | none => rfl
  | some x => exact congrArg some (atop_of_isTable_eq_false (s.isTable_toValue x) _)

theorem gives_empty : (table []).Gives .nothing := by
  constructor
  · intro s
    cases s <;> exact ⟨rfl, nofun⟩
  · intro s
    cases s <;> rfl

def within (v : ConfigValue) (name : String) : ConfigValue := (v.get? name).getD (table [])

theorem at?_within (v : ConfigValue) (name next : String) (path : List String) :
    (v.within name).at? (next :: path) = v.at? (name :: next :: path) := by
  show _ = (v.get? name).bind (at? (next :: path))
  rw [within]
  cases v.get? name <;> rfl

theorem Passes.within {v : ConfigValue} {name next : String} {path : List String}
    (passes : v.Passes (name :: next :: path)) : (v.within name).Passes (next :: path) := by
  rw [ConfigValue.within]
  cases found : v.get? name with
  | none => exact ⟨rfl, nofun⟩
  | some w => exact passes.2 w found

theorem isRecord_of_isTable {v : ConfigValue} (isTable : v.isTable = true) : v.isRecord = true := by
  obtain ⟨entries, rfl⟩ := exists_table isTable
  rfl

/-- A part of a table is read as if it were there, if its fallback is what an empty table stands for. -/
theorem fieldOr?_within {α : Type} {v : ConfigValue} (isTable : v.isTable = true)
    {read? : ConfigValue → Option α} {fallback : α} (empty : read? (table []) = some fallback)
    (position : Nat) (name : String) :
    v.fieldOr? position name fallback read? = read? (v.within name) := by
  obtain ⟨entries, rfl⟩ := exists_table isTable
  have field : (table entries).field? position name = (table entries).get? name := rfl
  rw [fieldOr?, field, within]
  cases (table entries).get? name with
  | none => exact empty.symm
  | some w => rfl

theorem fieldOr?_eq {α β : Type} {v : ConfigValue} (isTable : v.isTable = true) {name : String}
    {x : Option α} {write : α → ConfigValue} (there : v.at? [name] = x.map write)
    {read? : ConfigValue → Option β} {wrap : α → β} (back : ∀ a, read? (write a) = some (wrap a))
    (position : Nat) (fallback : β) :
    v.fieldOr? position name fallback read? = some ((x.map wrap).getD fallback) := by
  obtain ⟨entries, rfl⟩ := exists_table isTable
  have field : (table entries).field? position name = x.map write :=
    (Option.bind_fun_some _).symm.trans there
  rw [fieldOr?, field]
  cases x with
  | none => rfl
  | some a => exact back a

theorem natBelow?_integer {n bound : Nat} (below : n < bound) : (integer n).natBelow? bound = some n := by
  have fits : (0 : Int) ≤ n ∧ (n : Int).toNat < bound := ⟨Int.natCast_nonneg n, below⟩
  rw [natBelow?, if_pos fits, Int.toNat_natCast]

end ConfigValue

namespace Config

open ConfigValue

variable {v w : ConfigValue} {g : Given} {k : QueryKind}

theorem retryOfValue?_eq (isTable : w.isTable = true)
    (attempts : w.at? ["max_attempts"] = (g (.maxAttempts k)).map (Setting.maxAttempts k).toValue)
    (delay : w.at? ["delay_ms"] = (g (.delayMillis k)).map (Setting.delayMillis k).toValue)
    (mode : w.at? ["backoff"] = (g (.backoff k)).map (Setting.backoff k).toValue)
    (cap : w.at? ["max_delay_ms"] = (g (.maxDelayMillis k)).map (Setting.maxDelayMillis k).toValue) :
    RetryConfig.ofValue? w = some (g.retry k) := by
  have short : ∀ n : UInt16, ((integer n.toNat).natBelow? UInt16.size).map UInt16.ofNat = some n := by
    intro n
    rw [natBelow?_integer n.toNat_lt, Option.map_some, UInt16.ofNat_toNat]
  have long : ∀ n : UInt64, ((integer n.toNat).natBelow? UInt64.size).map UInt64.ofNat = some n := by
    intro n
    rw [natBelow?_integer n.toNat_lt, Option.map_some, UInt64.ofNat_toNat]
  have set : ∀ n : UInt64,
      ((integer n.toNat).natBelow? UInt64.size).map (fun n => some (UInt64.ofNat n)) = some (some n) := by
    intro n
    rw [natBelow?_integer n.toNat_lt, Option.map_some, UInt64.ofNat_toNat]
  have named : ∀ m : BackoffMode, (text m.name).text?.bind BackoffMode.ofName? = some m :=
    BackoffMode.ofName?_name
  have unwrapped : ∀ x : Option UInt64, (x.map some).getD none = x := by
    intro x
    cases x <;> rfl
  rw [RetryConfig.ofValue?, if_pos (isRecord_of_isTable isTable), fieldOr?_eq isTable attempts short,
    fieldOr?_eq isTable delay long, fieldOr?_eq isTable mode named, fieldOr?_eq isTable cap set]
  simp only [Option.map_id_fun', id_eq, unwrapped]
  rfl

/-- A value is read as what it gives, with defaults for the rest. -/
theorem ofValue?_of_gives (gives : v.Gives g) : ofValue? v = some g.toConfig := by
  have top : v.isTable = true := (gives.passes .cacheEnabled).1
  have passes : ∀ k : QueryKind, (v.within "retries").Passes [k.configName, "max_attempts"] :=
    fun k => (gives.passes (.maxAttempts k)).within
  have retries : (v.within "retries").isTable = true := (passes .descriptor).1
  have retry : ∀ position k, (v.within "retries").fieldOr? position k.configName {} RetryConfig.ofValue? =
      some (g.retry k) := by
    intro position k
    have empty : RetryConfig.ofValue? (table []) = some {} := rfl
    rw [fieldOr?_within retries empty]
    refine retryOfValue?_eq (passes k).within.1 ?_ ?_ ?_ ?_
    · exact (at?_within ..).trans ((at?_within ..).trans (gives.settings (.maxAttempts k)))
    · exact (at?_within ..).trans ((at?_within ..).trans (gives.settings (.delayMillis k)))
    · exact (at?_within ..).trans ((at?_within ..).trans (gives.settings (.backoff k)))
    · exact (at?_within ..).trans ((at?_within ..).trans (gives.settings (.maxDelayMillis k)))
  have kinds : retriesOfValue? (v.within "retries") = some g.toConfig.retries := by
    rw [retriesOfValue?, if_pos (isRecord_of_isTable retries)]
    simp only [retry]
    rfl
  have cache : cacheOfValue? (v.within "cache") = some g.toConfig.cacheEnabled := by
    have isTable : (v.within "cache").isTable = true := (gives.passes .cacheEnabled).within.1
    have enabled : (v.within "cache").at? ["enabled"] =
        (g .cacheEnabled).map Setting.cacheEnabled.toValue :=
      (at?_within ..).trans (gives.settings .cacheEnabled)
    have truth : ∀ b : Bool, (ConfigValue.bool b).bool? = some b := fun _ => rfl
    rw [cacheOfValue?, if_pos (isRecord_of_isTable isTable), fieldOr?_eq isTable enabled truth]
    simp only [Option.map_id_fun', id_eq]
    rfl
  have noRetries : retriesOfValue? (table []) = some (.all {}) := rfl
  have noCache : cacheOfValue? (table []) = some true := rfl
  rw [ofValue?, if_pos (isRecord_of_isTable top), fieldOr?_within top noRetries,
    fieldOr?_within top noCache, kinds, cache]
  rfl

end Config

namespace Given

open ConfigValue

section Entries

variable {α : Type} (write : (s : Setting) → s.Value → α) (g : Given)

def entries (ss : List Setting) : List (String × α) :=
  ss.filterMap fun s => (g s).map fun x => (s.name, write s x)

variable {ss : List Setting}

theorem names_entries_sublist (ss : List Setting) :
    ((g.entries write ss).map Prod.fst).Sublist (ss.map Setting.name) := by
  induction ss with
  | nil => exact .slnil
  | cons s ss ih =>
    rw [entries, List.filterMap_cons]
    cases g s with
    | none => exact ih.cons s.name
    | some x => exact ih.cons_cons s.name

theorem entryOf?_entries (names : (ss.map Setting.name).Nodup) {s : Setting} (member : s ∈ ss) :
    entryOf? s.name (g.entries write ss) = (g s).map (write s) := by
  induction ss with
  | nil => cases member
  | cons t ss ih =>
    obtain ⟨fresh, names⟩ := List.nodup_cons.mp names
    have behind : t.name ∉ (g.entries write ss).map Prod.fst := fun later =>
      fresh ((g.names_entries_sublist write ss).subset later)
    rw [entries, List.filterMap_cons]
    rcases List.mem_cons.mp member with rfl | later
    · cases g s with
      | none => exact entryOf?_eq_none_iff.mpr behind
      | some x => exact if_pos rfl
    · have other : t.name ≠ s.name := fun same => fresh (same ▸ List.mem_map_of_mem later)
      cases g t with
      | none => exact ih names later
      | some x => exact (if_neg other).trans (ih names later)

end Entries

def toValue (g : Given) : ConfigValue :=
  .table [("retries", .table (QueryKind.all.map fun k =>
      (k.configName, .table (g.entries Setting.toValue (Setting.ofKind k))))),
    ("cache", .table (g.entries Setting.toValue [.cacheEnabled]))]

theorem entryOf?_kinds {α : Type} (f : QueryKind → α) (k : QueryKind) :
    entryOf? k.configName (QueryKind.all.map fun k => (k.configName, f k)) = some (f k) := by
  cases k <;> rfl

theorem at?_kind (g : Given) (k : QueryKind) (name : String) :
    g.toValue.at? ["retries", k.configName, name] =
      entryOf? name (g.entries Setting.toValue (Setting.ofKind k)) := by
  have kinds := entryOf?_kinds (fun k => ConfigValue.table (g.entries Setting.toValue (Setting.ofKind k))) k
  rw [toValue, at?, get?, entryOf?, if_pos rfl, Option.bind_some, at?, get?, kinds, Option.bind_some, at?]
  exact Option.bind_fun_some _

theorem gives_toValue (g : Given) : g.toValue.Gives g := by
  have kinds : ∀ (k : QueryKind) (name : String), g.toValue.Passes ["retries", k.configName, name] := by
    intro k name
    refine ⟨rfl, fun w found => ?_⟩
    cases found
    refine ⟨rfl, fun w found => ?_⟩
    have there := entryOf?_kinds (fun k => ConfigValue.table (g.entries Setting.toValue (Setting.ofKind k))) k
    cases there.symm.trans found
    exact ⟨rfl, fun _ _ => trivial⟩
  constructor
  · intro s
    cases s with
    | cacheEnabled =>
      refine ⟨rfl, fun w found => ?_⟩
      cases found
      exact ⟨rfl, fun _ _ => trivial⟩
    | _ => exact kinds _ _
  · intro s
    cases s with
    | cacheEnabled =>
      have single : ([Setting.cacheEnabled].map Setting.name).Nodup := List.nodup_singleton _
      refine (Option.bind_fun_some _).trans ?_
      exact g.entryOf?_entries Setting.toValue single List.mem_cons_self
    | _ =>
      refine (g.at?_kind _ _).trans ?_
      exact g.entryOf?_entries Setting.toValue (Setting.nodup_names_ofKind _) (by simp [Setting.ofKind])

theorem distinct_toValue (g : Given) : g.toValue.Distinct := by
  have plain : ∀ ss, ∀ e ∈ g.entries Setting.toValue ss, e.2.Distinct := by
    intro ss e member
    obtain ⟨s, -, given⟩ := List.mem_filterMap.mp member
    obtain ⟨x, -, rfl⟩ := Option.map_eq_some_iff.mp given
    exact .plain (s.isTable_toValue x)
  have table : ∀ ss : List Setting, (ss.map Setting.name).Nodup →
      (ConfigValue.table (g.entries Setting.toValue ss)).Distinct := fun ss names =>
    .table (names.sublist (g.names_entries_sublist Setting.toValue ss)) (plain ss)
  have kinds : (QueryKind.all.map QueryKind.configName).Nodup := by decide
  have retries : (ConfigValue.table (QueryKind.all.map fun k =>
      (k.configName, .table (g.entries Setting.toValue (Setting.ofKind k))))).Distinct := by
    refine .table ?_ (List.forall_mem_map.mpr fun k _ => table _ (Setting.nodup_names_ofKind k))
    rw [List.map_map]
    exact kinds
  refine .table (by decide : ["retries", "cache"].Nodup) ?_
  exact List.forall_mem_cons.mpr
    ⟨retries, List.forall_mem_singleton.mpr (table [.cacheEnabled] (List.nodup_singleton _))⟩

end Given

theorem Config.toValue_eq (c : Config) : c.toValue = c.given.toValue := by
  have retry : ∀ k, (c.retries.get k).toValue =
      .table (c.given.entries Setting.toValue (Setting.ofKind k)) := by
    intro k
    rw [RetryConfig.toValue]
    cases cap : (c.retries.get k).maxDelayMillis <;>
      simp [Given.entries, Setting.ofKind, given, cap, Setting.toValue, Setting.name]
  simp only [toValue, retriesToValue, retry]
  rfl

end AvbEntity
