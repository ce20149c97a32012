import AvbEntity.Proofs.Config.Variables
import AvbEntity.Proofs.Config.Written
import AvbEntity.Proofs.Toml.Names

namespace AvbEntity

/-- Whether a file gives certain settings: it is read as a source that gives them. A file that is not there
gives none. -/
def FileGives : Option String → Given → Prop
  | none, g => g = .nothing
  | some text, g => ∃ v, (Toml.parse? text).bind ConfigValue.ofFile? = some v ∧ v.Gives g

theorem Given.fileGives_of_text? {g : Given} {text : String} (written : g.text? = some text) :
    FileGives (some text) g :=
  ⟨g.toValue, g.read_text? written, g.gives_toValue⟩

namespace Config

section Load

variable {environment : List Variable}

theorem load_some {text : String} {v : ConfigValue}
    (read : (Toml.parse? text).bind ConfigValue.ofFile? = some v) {c : Config}
    (value : ofValue? (.layered [toValue {}, v, Variable.layer environment]) = some c) :
    load (some text) environment = .ok c := by
  rw [load, read]
  dsimp only [bind, Except.bind]
  rw [value]

theorem load_none {c : Config}
    (value : ofValue? (.layered [toValue {}, .table [], Variable.layer environment]) = some c) :
    load none environment = .ok c := by
  rw [load]
  dsimp only [bind, Except.bind]
  rw [value]

theorem ofValue?_layered {inFile inEnvironment : Given} {v : ConfigValue} (distinct : v.Distinct)
    (gives : v.Gives inFile) (environmentGives : EnvironmentGives environment inEnvironment) :
    ofValue? (.layered [toValue {}, v, Variable.layer environment]) =
      some (inEnvironment.atop inFile).toConfig := by
  let defaults : Given := ({} : Config).given
  have byDefault : (toValue {}).Gives defaults := toValue_eq {} ▸ defaults.gives_toValue
  have distinctDefault : (toValue {}).Distinct := toValue_eq {} ▸ defaults.distinct_toValue
  have layered := (environmentGives.gives).overlay (Variable.distinct_layer environment)
    (gives.overlay distinct (byDefault.overlay distinctDefault ConfigValue.gives_empty))
  have same : (inEnvironment.atop (inFile.atop (defaults.atop .nothing))).toConfig =
      (inEnvironment.atop inFile).toConfig := by
    apply given_injective
    rw [given_toConfig, given_toConfig]
    funext s
    simp only [Given.atop, Given.nothing, Option.or_none, Option.or_assoc, Option.or_self, defaults]
  rw [← same]
  exact ofValue?_of_gives layered

theorem load_eq {file : Option String} {inFile inEnvironment : Given} (fileGives : FileGives file inFile)
    (environmentGives : EnvironmentGives environment inEnvironment) :
    load file environment = .ok (inEnvironment.atop inFile).toConfig := by
  cases file with
  | none =>
    obtain rfl : inFile = .nothing := fileGives
    have distinct : (ConfigValue.table []).Distinct := .table List.nodup_nil nofun
    exact load_none (ofValue?_layered distinct ConfigValue.gives_empty environmentGives)
  | some text =>
    obtain ⟨v, read, gives⟩ := fileGives
    obtain ⟨w, parsed, stands⟩ := Option.bind_eq_some_iff.mp read
    have distinct := ConfigValue.distinct_of_ofFile? (Toml.distinct_of_parse? parsed) stands
    exact load_some read (ofValue?_layered distinct gives environmentGives)

end Load

theorem load_empty (environment : List Variable) : load none environment = load (some "") environment := by
  have nothing : Toml.write? [] = some "" := rfl
  have legible : ∀ s ∈ ([] : List Toml.Section), s.Legible := List.forall_mem_nil _
  have parsed : Toml.parse? "" = some (.table []) := Toml.parse?_of_write? legible nothing
  rw [load, load, parsed]
  rfl

/-- Each setting that is loaded is the environment's where it is given there, or else the file's where it is
given there, or else the default. A file that is not there counts as an empty one. Whatever settings are to be
given, there are variables that give them, and a file, if it can hold their numbers. -/
theorem load_leafwise :
    (∀ file environment inFile inEnvironment, FileGives file inFile →
      EnvironmentGives environment inEnvironment → ∃ c, load file environment = .ok c ∧
        ∀ s, c.given s = ((inEnvironment s).or (inFile s)).or (({} : Config).given s)) ∧
    (∀ environment, load none environment = load (some "") environment) ∧
    (∀ g : Given, EnvironmentGives g.environment g) ∧
    ∀ g : Given, g.Fits → ∃ text, FileGives (some text) g := by
  refine ⟨?_, load_empty, Given.environmentGives_environment, ?_⟩
  · intro file environment inFile inEnvironment fileGives environmentGives
    exact ⟨_, load_eq fileGives environmentGives, congrFun (given_toConfig _)⟩
  · intro g fits
    obtain ⟨text, written⟩ := Option.isSome_iff_exists.mp (g.text?_isSome_iff.mpr fits)
    exact ⟨text, Given.fileGives_of_text? written⟩

end Config

end AvbEntity
