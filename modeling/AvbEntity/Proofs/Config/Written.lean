import AvbEntity.Config.File
import AvbEntity.Proofs.Config.Carrier
import AvbEntity.Proofs.Config.Setting
import AvbEntity.Proofs.Toml.Sections

namespace AvbEntity

namespace Setting

def toPlain : (s : Setting) → s.Value → Toml.Plain
  | maxAttempts _, n => .integer n.toNat
  | delayMillis _, n => .integer n.toNat
  | backoff _, m => .word m.name
  | maxDelayMillis _, n => .integer n.toNat
  | cacheEnabled, b => .bool b

theorem toValue_toPlain (s : Setting) (x : s.Value) : (s.toPlain x).toValue = s.toValue x := by
  cases s <;> rfl

theorem isBare_name (s : Setting) : Toml.isBare s.name = true := by
  have bare : ∀ name ∈ ["max_attempts", "delay_ms", "backoff", "max_delay_ms", "enabled"],
      Toml.isBare name = true := by decide
  exact bare _ s.name_cases

theorem carried?_toValue (s : Setting) (x : s.Value) :
    ConfigValue.carried? (s.toValue x) = some (s.toValue x) := by
  cases s <;> rfl

theorem isLegible_toPlain {s : Setting} {x : s.Value} (fits : (s.toPlain x).fits = true) :
    (s.toPlain x).isLegible = true := by
  cases s with
  | backoff k => cases x <;> rfl
  | _ => exact fits

end Setting

namespace Given

variable (g : Given)

def sections : List Toml.Section :=
  (QueryKind.all.map fun k => ⟨["retries", k.configName], g.entries Setting.toPlain (Setting.ofKind k)⟩) ++
    [⟨["cache"], g.entries Setting.toPlain [.cacheEnabled]⟩]

def text? : Option String := Toml.write? g.sections

def Fits : Prop := ∀ s x, g s = some x → (s.toPlain x).fits = true

theorem mem_entries_iff {α : Type} {write : (s : Setting) → s.Value → α} {ss : List Setting}
    {e : String × α} : e ∈ g.entries write ss ↔ ∃ s ∈ ss, ∃ x, g s = some x ∧ (s.name, write s x) = e := by
  simp only [entries, List.mem_filterMap, Option.map_eq_some_iff]

theorem mem_sections_iff {s : Toml.Section} :
    s ∈ g.sections ↔
      (∃ k : QueryKind, ⟨["retries", k.configName], g.entries Setting.toPlain (Setting.ofKind k)⟩ = s) ∨
        s = ⟨["cache"], g.entries Setting.toPlain [.cacheEnabled]⟩ := by
  rw [sections, List.mem_append, List.mem_map, List.mem_singleton]
  have all : ∀ P : QueryKind → Prop, (∃ k ∈ QueryKind.all, P k) ↔ ∃ k, P k := fun P =>
    exists_congr fun k => and_iff_right k.mem_all
  rw [all]

theorem forall_entries_iff {P : Toml.Plain → Prop} :
    (∀ s ∈ g.sections, ∀ e ∈ s.entries, P e.2) ↔ ∀ s x, g s = some x → P (s.toPlain x) := by
  constructor
  · intro each s x given
    have within : ∀ header ss, s ∈ ss →
        (⟨header, g.entries Setting.toPlain ss⟩ : Toml.Section) ∈ g.sections → P (s.toPlain x) :=
      fun header ss member present => each _ present (s.name, s.toPlain x) (g.mem_entries_iff.mpr ⟨s, member, x, given, rfl⟩)
    cases s with
    | cacheEnabled => exact within _ _ List.mem_cons_self (g.mem_sections_iff.mpr (.inr rfl))
    | maxAttempts k | delayMillis k | backoff k | maxDelayMillis k =>
      exact within _ _ (by simp [Setting.ofKind]) (g.mem_sections_iff.mpr (.inl ⟨k, rfl⟩))
  · intro each s member e entry
    rcases g.mem_sections_iff.mp member with ⟨k, rfl⟩ | rfl
    · obtain ⟨s, -, x, given, rfl⟩ := g.mem_entries_iff.mp entry
      exact each s x given
    · obtain ⟨s, -, x, given, rfl⟩ := g.mem_entries_iff.mp entry
      exact each s x given

theorem text?_isSome_iff : g.text?.isSome ↔ g.Fits := by
  have fits : (g.sections.all fun s => s.entries.all fun e => e.2.fits) = true ↔ g.Fits := by
    simp only [List.all_eq_true]
    exact g.forall_entries_iff (P := fun v => v.fits = true)
  rw [text?, Toml.write?, ← fits]
  split
  next all => exact iff_of_true rfl all
  next some => exact iff_of_false Bool.false_ne_true some

theorem legible_sections (fits : g.Fits) : ∀ s ∈ g.sections, s.Legible := by
  have entries : ∀ ss, ∀ e ∈ g.entries Setting.toPlain ss,
      Toml.isBare e.1 = true ∧ e.2.isLegible = true := by
    intro ss e member
    obtain ⟨s, -, x, given, rfl⟩ := g.mem_entries_iff.mp member
    exact ⟨s.isBare_name, Setting.isLegible_toPlain (fits s x given)⟩
  have kinds : ∀ k : QueryKind, ∀ name ∈ ["retries", k.configName], Toml.isBare name = true := by
    intro k
    cases k <;> decide
  have cache : ∀ name ∈ ["cache"], Toml.isBare name = true := by decide
  intro s member
  rcases g.mem_sections_iff.mp member with ⟨k, rfl⟩ | rfl
  · exact ⟨List.cons_ne_nil _ _, (by decide : 2 ≤ Toml.maxDepth), kinds k, entries _⟩
  · exact ⟨List.cons_ne_nil _ _, (by decide : 1 ≤ Toml.maxDepth), cache, entries _⟩

theorem assigned_eq (header : List String) (ss : List Setting) :
    (⟨header, g.entries Setting.toPlain ss⟩ : Toml.Section).assigned = g.entries Setting.toValue ss := by
  rw [Toml.Section.assigned, entries, List.map_filterMap, entries]
  refine List.filterMap_congr fun s _ => ?_
  cases g s with
  | none => rfl
  | some x => exact congrArg (fun v => some (s.name, v)) (s.toValue_toPlain x)

theorem nodup_names_entries {ss : List Setting} (names : (ss.map Setting.name).Nodup) :
    ((g.entries Setting.toValue ss).map Prod.fst).Nodup :=
  names.sublist (g.names_entries_sublist Setting.toValue ss)

def kinds : List (String × List (String × ConfigValue)) :=
  QueryKind.all.map fun k => (k.configName, g.entries Setting.toValue (Setting.ofKind k))

theorem kinds_ne_nil : g.kinds ≠ [] := List.cons_ne_nil _ _

theorem nodup_names_kinds : (g.kinds.map Prod.fst).Nodup := by
  have names : (QueryKind.all.map QueryKind.configName).Nodup := by decide
  rw [kinds, List.map_map]
  exact names

theorem nodup_names_of_mem_kinds : ∀ s ∈ g.kinds, (s.2.map Prod.fst).Nodup :=
  List.forall_mem_map.mpr fun k _ => g.nodup_names_entries (Setting.nodup_names_ofKind k)

theorem foldlM_addSection_sections :
    g.sections.foldlM (fun entries s => Toml.addSection (Toml.keyOf s.header) s.assigned entries) [] =
      some [("retries", .table .implied (Toml.tablesOf g.kinds)),
        ("cache", .table .header
          ((g.entries Setting.toValue [.cacheEnabled]).map fun e => (e.1, .value e.2)))] := by
  have below := Toml.foldlM_addSection_below "retries" g.kinds_ne_nil g.nodup_names_kinds
    g.nodup_names_of_mem_kinds
  have fresh : "cache" ∉ [("retries", Toml.Node.table .implied (Toml.tablesOf g.kinds))].map Prod.fst :=
    (by decide : "cache" ∉ ["retries"])
  have single : ([Setting.cacheEnabled].map Setting.name).Nodup := List.nodup_singleton _
  have cache := Toml.openWith_of_not_mem fresh (g.nodup_names_entries single)
  rw [← g.assigned_eq ["cache"]] at cache
  rw [kinds, List.foldlM_map] at below
  rw [sections, List.foldlM_append, List.foldlM_map]
  simp only [assigned_eq]
  refine (congrArg (· >>= _) below).trans ?_
  rw [← g.assigned_eq ["cache"]]
  exact congrArg (· >>= pure) cache

theorem carried?_entries (ss : List Setting) :
    ConfigValue.carried? (.table (g.entries Setting.toValue ss)) =
      some (.table (g.entries Setting.toValue ss)) := by
  refine ConfigValue.carried?_table_eq_self fun e member => ?_
  obtain ⟨s, -, x, -, rfl⟩ := g.mem_entries_iff.mp member
  have unreserved : ∀ name ∈ ["max_attempts", "delay_ms", "backoff", "max_delay_ms", "enabled"],
      name ≠ ConfigValue.carriedName ∧ name ≠ ConfigValue.carriedNumberName := by decide
  have name := unreserved _ s.name_cases
  exact ⟨name.1, name.2, s.carried?_toValue x⟩

theorem carried?_kinds : ConfigValue.carried? (.table (g.kinds.map fun s => (s.1, .table s.2))) =
    some (.table (g.kinds.map fun s => (s.1, .table s.2))) := by
  have unreserved : ∀ k : QueryKind, k.configName ≠ ConfigValue.carriedName ∧
      k.configName ≠ ConfigValue.carriedNumberName := by
    intro k
    cases k <;> decide
  refine ConfigValue.carried?_table_eq_self ?_
  rw [kinds, List.map_map]
  refine List.forall_mem_map.mpr fun k _ => ?_
  exact ⟨(unreserved k).1, (unreserved k).2, g.carried?_entries (Setting.ofKind k)⟩

theorem ofFile?_toValue : ConfigValue.ofFile? g.toValue = some g.toValue :=
  ConfigValue.ofFile?_table_eq_self
    (List.forall_mem_cons.mpr ⟨g.carried?_kinds, List.forall_mem_singleton.mpr (g.carried?_entries _)⟩)

/-- Settings that were written to a file are read as they were written. -/
theorem read_text? {text : String} (written : g.text? = some text) :
    (Toml.parse? text).bind ConfigValue.ofFile? = some g.toValue := by
  have fits : g.Fits := g.text?_isSome_iff.mp (written ▸ rfl)
  have value : Toml.parse? text = some g.toValue := by
    rw [Toml.parse?_of_write? (g.legible_sections fits) written, foldlM_addSection_sections, Option.map_some]
    simp only [Toml.entryValues, Toml.Node.toValue, Toml.entryValues_tablesOf, Toml.entryValues_values]
    rfl
  rw [value, Option.bind_some, ofFile?_toValue]

end Given

theorem Config.toText?_eq (c : Config) : c.toText? = c.given.text? := by
  have section_eq : ∀ k, retrySection k (c.retries.get k) =
      ⟨["retries", k.configName], c.given.entries Setting.toPlain (Setting.ofKind k)⟩ := by
    intro k
    rw [retrySection]
    cases cap : (c.retries.get k).maxDelayMillis <;>
      simp [Given.entries, Setting.ofKind, given, cap, Setting.toPlain, Setting.name]
  have sections : c.sections = c.given.sections := by
    simp only [Config.sections, section_eq]
    rfl
  rw [toText?, sections, Given.text?]

end AvbEntity
