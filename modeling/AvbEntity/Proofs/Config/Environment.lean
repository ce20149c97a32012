import AvbEntity.Config.Environment
import AvbEntity.Proofs.Config.Setting

namespace AvbEntity

theorem Text.forall_of_itemsUntil? {α : Type} {P : α → Prop} {close separator : Char}
    {skip : List Char → List Char} {item? : List Char → Option (α × List Char)}
    (each : ∀ cs a rest, item? cs = some (a, rest) → P a) {cs rest : List Char} {as : List α}
    (read : itemsUntil? close separator skip item? cs = some (as, rest)) : ∀ a ∈ as, P a := by
  fun_induction itemsUntil? close separator skip item? cs generalizing as rest with
  | case1 => cases read
  | case2 =>
    cases read
    exact nofun
  | case3 => cases read
  | case4 => cases read
  | case5 cs c behind skipped unclosed a later first =>
    cases read
    exact List.forall_mem_singleton.mpr (each _ _ _ first)
  | case6 cs c behind skipped unclosed a later first d further ended undone more ih =>
    obtain ⟨⟨others, left⟩, items, same⟩ := Option.map_eq_some_iff.mp read
    cases same
    exact List.forall_mem_cons.mpr ⟨each _ _ _ first, ih items⟩
  | case7 => cases read

theorem EachOnce.foldl_alterEntry {α : Type} {P : α → Prop} {assigned entries : List (String × α)}
    (once : EachOnce P entries) (each : ∀ e ∈ assigned, P e.2) :
    EachOnce P (assigned.foldl (fun t e => AvbEntity.alterEntry e.1 (fun _ => e.2) t) entries) := by
  induction assigned generalizing entries with
  | nil => exact once
  | cons e assigned ih =>
    obtain ⟨first, others⟩ := List.forall_mem_cons.mp each
    exact ih (once.alterEntry first) others

namespace Variable

theorem distinct_of_assignment? {value? : List Char → Option (ConfigValue × List Char)}
    (values : ∀ cs v rest, value? cs = some (v, rest) → v.Distinct) {cs rest : List Char}
    {assigned : String × ConfigValue} (read : assignment? value? cs = some (assigned, rest)) :
    assigned.2.Distinct := by
  unfold assignment? at read
  obtain ⟨⟨name, behind⟩, -, read⟩ := Option.bind_eq_some_iff.mp read
  dsimp only at read
  split at read
  next =>
    obtain ⟨⟨v, behind⟩, value, read⟩ := Option.bind_eq_some_iff.mp read
    cases read
    exact values _ _ _ value
  next => cases read

theorem isTable_wordValue (cs : List Char) : (wordValue cs).isTable = false := by
  unfold wordValue
  split <;> rfl

theorem distinct_of_value? {depth : Nat} {cs rest : List Char} {v : ConfigValue}
    (read : value? depth cs = some (v, rest)) : v.Distinct := by
  induction depth using Nat.strongRecOn generalizing cs v rest with
  | ind depth ih =>
    unfold value? at read
    obtain ⟨⟨w, behind⟩, inner, same⟩ := Option.map_eq_some_iff.mp read
    cases same
    clear read
    split at inner
    -- only a table has names below it, and its values are of a smaller depth
    case h_5 =>
      obtain ⟨⟨entries, left⟩, items, same⟩ := Option.map_eq_some_iff.mp inner
      cases same
      have each : ∀ e ∈ entries, e.2.Distinct :=
        Text.forall_of_itemsUntil?
          (fun _ _ _ => distinct_of_assignment? fun _ _ _ => ih _ (Nat.lt_succ_self _)) items
      exact ConfigValue.distinct_table_iff.mpr (eachOnce_nil.foldl_alterEntry each)
    -- every other value is plain
    case h_6 =>
      obtain ⟨⟨items, left⟩, -, same⟩ := Option.map_eq_some_iff.mp inner
      cases same
      exact .plain rfl
    case h_7 =>
      obtain ⟨⟨quoted, left⟩, -, same⟩ := Option.map_eq_some_iff.mp inner
      cases same
      exact .plain rfl
    case h_10 =>
      cases inner
      exact .plain (isTable_wordValue _)
    all_goals cases inner
    all_goals exact .plain rfl

theorem distinct_value (v : Variable) : v.value.Distinct := by
  unfold value
  dsimp only
  split
  next read => exact distinct_of_value? read
  next => exact .plain rfl

section Concat

variable {v : Variable} {path : List String}

theorem layer_concat_of_none (unset : v.path? = none) (environment : List Variable) :
    layer (environment ++ [v]) = layer environment := by
  have nothing : [v].filterMap layer? = [] := by simp [layer?, unset]
  rw [layer, List.filterMap_append, nothing, List.append_nil, layer]

theorem layer_concat_of_some (named : v.path? = some path) (environment : List Variable) :
    layer (environment ++ [v]) = .overlay (.nest path v.value) (layer environment) := by
  have single : [v].filterMap layer? = [.nest path v.value] := by simp [layer?, named]
  rw [layer, List.filterMap_append, single, ConfigValue.layered, List.foldl_append]
  rfl

def withPath (path : List String) (environment : List Variable) : List Variable :=
  environment.filter fun v => v.path? = some path

theorem withPath_cons_self (named : v.path? = some path) (environment : List Variable) :
    withPath path (v :: environment) = v :: withPath path environment := by
  simp [withPath, named]

theorem withPath_cons_ne (other : v.path? ≠ some path) (environment : List Variable) :
    withPath path (v :: environment) = withPath path environment := by
  simp [withPath, other]

theorem withPath_concat_self (named : v.path? = some path) (environment : List Variable) :
    withPath path (environment ++ [v]) = withPath path environment ++ [v] := by
  simp [withPath, named]

theorem withPath_concat_ne (other : v.path? ≠ some path) (environment : List Variable) :
    withPath path (environment ++ [v]) = withPath path environment := by
  simp [withPath, other]

end Concat

theorem distinct_layer (environment : List Variable) : (layer environment).Distinct := by
  refine ConfigValue.distinct_layered fun w member => ?_
  obtain ⟨v, -, layer⟩ := List.mem_filterMap.mp member
  obtain ⟨path, -, rfl⟩ := Option.map_eq_some_iff.mp layer
  exact ConfigValue.distinct_nest path v.distinct_value

/-- Whether a variable has a path on the way to another one or beyond it only if the two are the same. -/
def KeepsTo (target : List String) (v : Variable) : Prop :=
  ∀ path, v.path? = some path → path <+: target ∨ target <+: path → path = target

section KeepsTo

variable {environment : List Variable} {name : String} {rest : List String}

theorem passes_layer (apart : ∀ v ∈ environment, v.KeepsTo (name :: rest)) :
    (layer environment).Passes (name :: rest) := by
  induction environment using List.reverseRecOn with
  | nil => exact ⟨rfl, nofun⟩
  | append_singleton environment v ih =>
    rw [List.forall_mem_append, List.forall_mem_singleton] at apart
    obtain unset | ⟨path, named⟩ := Option.eq_none_or_eq_some v.path?
    · rw [layer_concat_of_none unset]
      exact ih apart.1
    · have passes : (ConfigValue.nest path v.value).Passes (name :: rest) :=
        ConfigValue.passes_nest (fun front => apart.2 path named (.inl front)) v.value
      rw [layer_concat_of_some named]
      exact passes.overlay (ConfigValue.distinct_nest path v.distinct_value) (ih apart.1)

/-- At a path that variables keep to, their layer has the value of the last one that has the path. -/
theorem at?_layer (apart : ∀ v ∈ environment, v.KeepsTo (name :: rest))
    (plain : ∀ v, (withPath (name :: rest) environment).getLast? = some v → v.value.isTable = false) :
    (layer environment).at? (name :: rest) =
      (withPath (name :: rest) environment).getLast?.map value := by
  induction environment using List.reverseRecOn with
  | nil => rfl
  | append_singleton environment v ih =>
    rw [List.forall_mem_append, List.forall_mem_singleton] at apart
    obtain unset | ⟨path, named⟩ := Option.eq_none_or_eq_some v.path?
    · have other : v.path? ≠ some (name :: rest) := unset ▸ nofun
      rw [withPath_concat_ne other] at plain ⊢
      rw [layer_concat_of_none unset]
      exact ih apart.1 plain
    · have keeps := apart.2 path named
      have passes : (ConfigValue.nest path v.value).Passes (name :: rest) :=
        ConfigValue.passes_nest (fun front => keeps (.inl front)) v.value
      have distinct := ConfigValue.distinct_nest path v.distinct_value
      rw [layer_concat_of_some named, ConfigValue.at?_overlay distinct passes (passes_layer apart.1)]
      by_cases same : path = name :: rest
      · subst same
        rw [withPath_concat_self named, List.getLast?_concat] at plain ⊢
        rw [ConfigValue.at?_nest]
        exact congrArg some (ConfigValue.atop_of_isTable_eq_false (plain v rfl) _)
      · have other : v.path? ≠ some (name :: rest) := by
          rw [named]
          exact fun found => same (Option.some.inj found)
        have before : ¬ path <+: name :: rest := fun front => same (keeps (.inl front))
        have behind : ¬ name :: rest <+: path := fun front => same (keeps (.inr front))
        rw [withPath_concat_ne other] at plain ⊢
        rw [ConfigValue.at?_nest_eq_none before behind]
        exact ih apart.1 plain

end KeepsTo

end Variable

/-- Whether variables give certain settings: the last variable that has the path of a setting has the value
given for it, and no variable has a path on the way to a setting or beyond one. -/
structure EnvironmentGives (environment : List Variable) (g : Given) : Prop where
  apart : ∀ s : Setting, ∀ v ∈ environment, v.KeepsTo s.path
  settings : ∀ s : Setting,
    (Variable.withPath s.path environment).getLast?.map Variable.value = (g s).map s.toValue

theorem EnvironmentGives.gives {environment : List Variable} {g : Given}
    (given : EnvironmentGives environment g) : (Variable.layer environment).Gives g := by
  have named : ∀ s : Setting, ∃ name rest, s.path = name :: rest := by
    intro s
    cases s <;> exact ⟨_, _, rfl⟩
  constructor
  · intro s
    obtain ⟨name, rest, path⟩ := named s
    exact path ▸ Variable.passes_layer (path ▸ given.apart s)
  · intro s
    have plain : ∀ v, (Variable.withPath s.path environment).getLast? = some v →
        v.value.isTable = false := by
      intro v last
      have value := given.settings s
      rw [last] at value
      obtain ⟨x, -, same⟩ := Option.map_eq_some_iff.mp value.symm
      exact same ▸ s.isTable_toValue x
    rw [← given.settings s]
    obtain ⟨name, rest, path⟩ := named s
    have apart := given.apart s
    rw [path] at apart plain ⊢
    exact Variable.at?_layer apart plain

theorem environmentGives_nothing {environment : List Variable}
    (unset : ∀ v ∈ environment, v.path? = none) : EnvironmentGives environment .nothing := by
  constructor
  · intro s v member path named
    cases (unset v member).symm.trans named
  · intro s
    have none : Variable.withPath s.path environment = [] := by
      rw [Variable.withPath, List.filter_eq_nil_iff]
      intro v member
      simp [unset v member]
    rw [none]
    rfl

end AvbEntity
