import AvbEntity.Proofs.Config.Layering

namespace AvbEntity

namespace Config

variable (c : Config)

/-- Whether a delay or a cap exceeds 2^63 - 1, the greatest integer that a file can hold. -/
def ExceedsFile : Prop :=
  ∃ k, 0x7FFFFFFFFFFFFFFF < (c.retries.get k).delayMillis.toNat ∨
    ∃ cap, (c.retries.get k).maxDelayMillis = some cap ∧ 0x7FFFFFFFFFFFFFFF < cap.toNat

theorem fits_given_iff : c.given.Fits ↔ ¬ c.ExceedsFile := by
  have bound : ∀ n : Nat, decide (n < Toml.integerBound) = true ↔ ¬ 0x7FFFFFFFFFFFFFFF < n := by
    intro n
    rw [decide_eq_true_iff, Toml.integerBound]
    omega
  constructor
  · rintro fits ⟨k, delay | ⟨cap, set, exceeds⟩⟩
    · exact (bound _).mp (fits (.delayMillis k) _ rfl) delay
    · exact (bound _).mp (fits (.maxDelayMillis k) cap set) exceeds
  · intro within s x given
    cases s with
    | maxAttempts k =>
      have small : x.toNat < 0x10000 := x.toNat_lt
      exact (bound _).mpr (by omega)
    | delayMillis k =>
      cases given
      exact (bound _).mpr fun exceeds => within ⟨k, .inl exceeds⟩
    | backoff k => rfl
    | maxDelayMillis k => exact (bound _).mpr fun exceeds => within ⟨k, .inr ⟨x, given, exceeds⟩⟩
    | cacheEnabled => rfl

theorem toText?_eq_none_iff : c.toText? = none ↔ c.ExceedsFile := by
  rw [toText?_eq, ← Option.not_isSome_iff_eq_none, Given.text?_isSome_iff, fits_given_iff, not_not]

theorem toConfig_given : (Given.nothing.atop c.given).toConfig = c := by
  apply given_injective
  rw [given_toConfig]
  funext s
  cases s with
  | maxDelayMillis k =>
    have unset : ({} : Config).given (.maxDelayMillis k) = none := by cases k <;> rfl
    rw [Given.atop, unset, Option.or_none]
    rfl
  | _ => rfl

/-- Saving and then loading gives back the configuration, if no variable is set; saving fails for the text
exactly if a delay or a cap exceeds 63 bits, and then leaves the place as it was. -/
theorem saved_loads_back (place : FilePlace) :
    let saved := c.save place
    (saved.1 = .ok () → ∀ environment : List Variable, (∀ v ∈ environment, v.path? = none) →
      load saved.2.text? environment = .ok c) ∧
    (place ≠ .blocked → (saved.1 = .error .unwritable ↔ c.ExceedsFile)) ∧
    (saved.1 = .error .unwritable → saved.2 = place) ∧
    (place = .free ∨ (∃ text, place = .file text) → (saved.1 = .ok () ↔ ¬ c.ExceedsFile)) := by
  have back : ∀ text, c.toText? = some text → ∀ environment : List Variable,
      (∀ v ∈ environment, v.path? = none) → load (some text) environment = .ok c := by
    intro text written environment unset
    have inFile : FileGives (some text) c.given := Given.fileGives_of_text? (c.toText?_eq ▸ written)
    rw [load_eq inFile (environmentGives_nothing unset), toConfig_given]
  dsimp only
  cases written : c.toText? with
  | none =>
    have exceeds := c.toText?_eq_none_iff.mp written
    cases place <;> simp [save, written, exceeds]
  | some text =>
    have fits : ¬ c.ExceedsFile := fun exceeds =>
      nomatch written.symm.trans (c.toText?_eq_none_iff.mpr exceeds)
    have loads := back text written
    cases place with
    | free | file => simpa [save, written, fits, FilePlace.text?] using loads
    | directory | blocked => simp [save, written, fits]

end Config

end AvbEntity
