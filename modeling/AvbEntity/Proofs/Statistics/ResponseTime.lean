import AvbEntity.Statistics
import Mathlib.Algebra.Order.Field.Basic
import Mathlib.Algebra.Order.Field.Rat
import Mathlib.Tactic.Linarith
import Mathlib.Tactic.Push
import Mathlib.Tactic.Ring

namespace AvbEntity

namespace Statistics

def moved (mean sample : Int) (count : Nat) : Int := mean + (sample - mean).tdiv count

theorem moved_one (mean sample : Int) : moved mean sample 1 = sample := by
  simp [moved]

theorem moved_between (mean sample : Int) (count : Nat) :
    min mean sample ≤ moved mean sample count ∧ moved mean sample count ≤ max mean sample := by
  have wide : (0 : Int) ≤ count := Int.natCast_nonneg count
  unfold moved
  rcases Int.le_total mean sample with above | below
  · have shareNonneg := Int.tdiv_nonneg (Int.sub_nonneg_of_le above) wide
    have shareLe := Int.tdiv_le_self (a := sample - mean) count (Int.sub_nonneg_of_le above)
    omega
  · have shareNonneg := Int.tdiv_nonneg (Int.sub_nonneg_of_le below) wide
    have shareLe := Int.tdiv_le_self (a := mean - sample) count (Int.sub_nonneg_of_le below)
    have mirrored : (sample - mean).tdiv count = -(mean - sample).tdiv count := by
      rw [← Int.neg_tdiv, Int.neg_sub]
    omega

/-- Multiplied by the number of samples, the mean takes in the sample but for a remainder. -/
theorem moved_mul (mean sample : Int) (earlier : Nat) :
    (earlier + 1 : Nat) * moved mean sample (earlier + 1) =
      earlier * mean + sample - (sample - mean).tmod (earlier + 1 : Nat) := by
  have parts := Int.mul_tdiv_add_tmod (sample - mean) (earlier + 1 : Nat)
  have shares : (earlier + 1 : Nat) * (sample - mean).tdiv (earlier + 1 : Nat) =
      sample - mean - (sample - mean).tmod (earlier + 1 : Nat) := by omega
  rw [moved, Int.mul_add, shares]
  push_cast
  ring

theorem abs_remainder_le (difference : Int) (earlier : Nat) :
    |difference.tmod (earlier + 1 : Nat)| ≤ earlier := by
  have small : difference.natAbs % (earlier + 1) < earlier + 1 := Nat.mod_lt _ (Nat.succ_pos earlier)
  have absolute := Int.natAbs_tmod difference (earlier + 1 : Nat)
  rw [Int.natAbs_natCast] at absolute
  rw [Int.abs_eq_natAbs]
  omega

theorem nanos_spanOfMean {mean : Int} (nonneg : 0 ≤ mean) (short : mean < 2 ^ 64) :
    ((spanOfMean mean).nanos : Int) = mean := by
  have fits : mean.toNat < UInt64.size := by
    have size : UInt64.size = 2 ^ 64 := rfl
    omega
  have held : mean.toNat < UInt64.size * 1000000000 := by
    omega
  rw [spanOfMean, if_pos fits, Duration.ofNanos?, dif_pos held]
  exact Int.toNat_of_nonneg nonneg

def total (samples : List Duration) : Nat := (samples.map (·.nanos)).sum

theorem total_concat (samples : List Duration) (sample : Duration) :
    total (samples ++ [sample]) = total samples + sample.nanos := by
  simp [total]

/-- What the mean is to the samples that it stands for. -/
structure Tracks (s : Statistics) (samples : List Duration) : Prop where
  counted : s.responses.toNat = samples.length
  least : samples ≠ [] → ∃ d ∈ samples, d ≤ s.averageResponse
  greatest : samples ≠ [] → ∃ d ∈ samples, s.averageResponse ≤ d
  /-- Each sample but the first one may have cost one nanosecond more than the one before. -/
  drift : 2 * |(samples.length * s.averageResponse.nanos - total samples : Int)| ≤
    samples.length * (samples.length - 1)

theorem tracks_nil {s : Statistics} (uncounted : s.responses = 0) : Tracks s [] where
  counted := congrArg UInt64.toNat uncounted
  least absurd := (absurd rfl).elim
  greatest absurd := (absurd rfl).elim
  drift := by simp [total]

theorem tracks_singleton {s : Statistics} (one : s.responses = 1) : Tracks s [s.averageResponse] where
  counted := congrArg UInt64.toNat one
  least _ := ⟨_, List.mem_singleton_self _, Nat.le_refl _⟩
  greatest _ := ⟨_, List.mem_singleton_self _, Nat.le_refl _⟩
  drift := by simp [total]

theorem Tracks.exists_bounds {s : Statistics} {samples : List Duration} (tracks : Tracks s samples)
    (sample : Duration) :
    let mean := moved s.averageResponse.nanos sample.nanos (samples.length + 1)
    (∃ d ∈ samples ++ [sample], (d.nanos : Int) ≤ mean) ∧
      ∃ d ∈ samples ++ [sample], mean ≤ (d.nanos : Int) := by
  intro mean
  have own : sample ∈ samples ++ [sample] := by simp
  by_cases first : samples = []
  · have same : mean = sample.nanos := by
      simp only [mean, first, List.length_nil, Nat.zero_add, moved_one]
    exact ⟨⟨sample, own, same.ge⟩, ⟨sample, own, same.le⟩⟩
  · obtain ⟨lower, upper⟩ := moved_between s.averageResponse.nanos sample.nanos (samples.length + 1)
    constructor
    · obtain ⟨d, member, below⟩ := tracks.least first
      have below : d.nanos ≤ s.averageResponse.nanos := below
      rcases Int.le_total s.averageResponse.nanos sample.nanos with order | order
      · exact ⟨d, List.mem_append_left _ member, by omega⟩
      · exact ⟨sample, own, by omega⟩
    · obtain ⟨d, member, above⟩ := tracks.greatest first
      have above : s.averageResponse.nanos ≤ d.nanos := above
      rcases Int.le_total s.averageResponse.nanos sample.nanos with order | order
      · exact ⟨sample, own, by omega⟩
      · exact ⟨d, List.mem_append_left _ member, by omega⟩

theorem Tracks.addResponse {s : Statistics} {samples : List Duration} {sample : Duration}
    (tracks : Tracks s samples) (few : (samples ++ [sample]).length < UInt64.size)
    (short : ∀ d ∈ samples ++ [sample], d.nanos < 2 ^ 64) :
    Tracks (s.addResponse sample) (samples ++ [sample]) := by
  obtain ⟨⟨low, lowMember, lower⟩, ⟨high, highMember, upper⟩⟩ := tracks.exists_bounds sample
  -- the mean stays among the samples, so nothing is cut off where it is stored
  have nonneg : 0 ≤ moved s.averageResponse.nanos sample.nanos (samples.length + 1) := by omega
  have fits : moved s.averageResponse.nanos sample.nanos (samples.length + 1) < 2 ^ 64 := by
    have bound := short high highMember
    omega
  have counted : (s.responses + 1).toNat = samples.length + 1 := by
    have one : (1 : UInt64).toNat = 1 := rfl
    rw [List.length_append, List.length_singleton] at few
    rw [UInt64.toNat_add, tracks.counted, one]
    exact Nat.mod_eq_of_lt few
  have stored : ((s.addResponse sample).averageResponse.nanos : Int) =
      moved s.averageResponse.nanos sample.nanos (samples.length + 1) := by
    rw [← counted] at nonneg fits ⊢
    exact nanos_spanOfMean nonneg fits
  constructor
  case counted =>
    rw [List.length_append, List.length_singleton]
    exact counted
  case least =>
    intro _
    refine ⟨low, lowMember, Int.ofNat_le.mp ?_⟩
    rw [stored]
    exact lower
  case greatest =>
    intro _
    refine ⟨high, highMember, Int.ofNat_le.mp ?_⟩
    rw [stored]
    exact upper
  case drift =>
    have earlier := tracks.drift
    rw [stored, total_concat, List.length_append, List.length_singleton, moved_mul]
    have rounded := abs_remainder_le (sample.nanos - s.averageResponse.nanos) samples.length
    generalize samples.length = count at earlier rounded ⊢
    generalize ((sample.nanos - s.averageResponse.nanos : Int).tmod (count + 1 : Nat)) = rest at rounded ⊢
    have split : (count * s.averageResponse.nanos + sample.nanos - rest -
          (total samples + sample.nanos : Nat) : Int) =
        (count * s.averageResponse.nanos - total samples) + -rest := by
      push_cast
      ring
    have triangle := abs_add_le (count * s.averageResponse.nanos - total samples : Int) (-rest)
    rw [abs_neg] at triangle
    have grown : ((count + 1) * (count + 1 - 1) : Int) = count * (count - 1) + 2 * count := by ring
    rw [split]
    push_cast
    linarith

theorem Tracks.foldl {s : Statistics} {kept : List Duration} (tracks : Tracks s kept)
    (samples : List Duration) (few : (kept ++ samples).length < UInt64.size)
    (short : ∀ d ∈ kept ++ samples, d.nanos < 2 ^ 64) :
    Tracks (samples.foldl Statistics.addResponse s) (kept ++ samples) := by
  induction samples generalizing s kept with
  | nil => simpa using tracks
  | cons sample samples ih =>
    have split : kept ++ sample :: samples = (kept ++ [sample]) ++ samples := by simp
    rw [split] at few short ⊢
    have next : (kept ++ [sample]).length < UInt64.size := by
      rw [List.length_append] at few
      exact Nat.lt_of_le_of_lt (Nat.le_add_right _ _) few
    exact ih (tracks.addResponse next fun d member => short d (List.mem_append_left _ member)) few short

def exactMean (samples : List Duration) : ℚ := total samples / samples.length

theorem Tracks.abs_sub_exactMean_le {s : Statistics} {samples : List Duration}
    (tracks : Tracks s samples) (nonempty : samples ≠ []) :
    |(s.averageResponse.nanos : ℚ) - exactMean samples| ≤ ((samples.length : ℚ) - 1) / 2 := by
  have positive : (0 : ℚ) < samples.length := by
    exact_mod_cast List.length_pos_iff.mpr nonempty
  have drift : 2 * |(samples.length * s.averageResponse.nanos - total samples : ℚ)| ≤
      samples.length * (samples.length - 1) := by
    exact_mod_cast tracks.drift
  have quotient : (s.averageResponse.nanos : ℚ) - exactMean samples =
      (samples.length * s.averageResponse.nanos - total samples) / samples.length := by
    rw [exactMean, sub_div, mul_div_cancel_left₀ _ positive.ne']
  rw [quotient, abs_div, abs_of_pos positive, div_le_iff₀ positive]
  linarith

/-- Statistics in which no sample of a session has been counted yet, with the samples that their mean
stands for all the same: a mean that has been set counts as one sample, unless it is zero. -/
inductive StartsFrom : Statistics → List Duration → Prop where
  | fresh (s : Statistics) (uncounted : s.responses = 0) : StartsFrom s []
  | restored (s : Statistics) (mean : Duration) :
    StartsFrom (s.setAverageResponse mean) (if mean = .zero then [] else [mean])

theorem StartsFrom.tracks {s : Statistics} {kept : List Duration} (start : StartsFrom s kept) :
    Tracks s kept := by
  cases start with
  | fresh s uncounted => exact tracks_nil uncounted
  | restored s mean =>
    split
    next zero => exact tracks_nil (by simp [setAverageResponse, zero, Duration.zero])
    next positive =>
      have nonzero : mean.nanos ≠ 0 := fun none => positive (Duration.ext none)
      exact tracks_singleton (s := s.setAverageResponse mean) (by simp [setAverageResponse, nonzero])

/-- From wherever the samples start, the mean lies among all the samples it stands for, and within half a
nanosecond for each sample but one of their exact mean. -/
theorem average_near_exact {s : Statistics} {kept samples : List Duration} (start : StartsFrom s kept)
    (sampled : samples ≠ []) (few : (kept ++ samples).length < UInt64.size)
    (short : ∀ d ∈ kept ++ samples, d.nanos < 2 ^ 64) :
    let all := kept ++ samples
    let average := (samples.foldl Statistics.addResponse s).averageResponse
    (∃ d ∈ all, d ≤ average) ∧ (∃ d ∈ all, average ≤ d) ∧
      |(average.nanos : ℚ) - exactMean all| ≤ ((all.length : ℚ) - 1) / 2 := by
  intro all average
  have tracks : Tracks (samples.foldl Statistics.addResponse s) all := start.tracks.foldl samples few short
  have nonempty : all ≠ [] := List.append_ne_nil_of_right_ne_nil kept sampled
  exact ⟨tracks.least nonempty, tracks.greatest nonempty, tracks.abs_sub_exactMean_le nonempty⟩

/-- A mean of seven nanoseconds is set, and then come the shortest sample and the longest one there can be:
both times a part of a nanosecond is rounded off. -/
theorem restored_average_near_exact :
    let kept : List Duration := [⟨7, by decide⟩]
    let samples : List Duration := [.zero, ⟨2 ^ 64 - 1, by decide⟩]
    let s := setAverageResponse {} ⟨7, by decide⟩
    let average := (samples.foldl Statistics.addResponse s).averageResponse
    (StartsFrom s kept ∧ samples ≠ [] ∧ (kept ++ samples).length < UInt64.size ∧
        ∀ d ∈ kept ++ samples, d.nanos < 2 ^ 64) ∧
      average.nanos = 6148914691236517207 ∧ total (kept ++ samples) = 3 * average.nanos + 1 ∧
      (∃ d ∈ kept ++ samples, d ≤ average) ∧ (∃ d ∈ kept ++ samples, average ≤ d) ∧
      |(average.nanos : ℚ) - exactMean (kept ++ samples)| ≤ (((kept ++ samples).length : ℚ) - 1) / 2 := by
  intro kept samples s average
  have start : StartsFrom s kept := StartsFrom.restored {} ⟨7, by decide⟩
  have sampled : samples ≠ [] := by decide
  have few : (kept ++ samples).length < UInt64.size := by decide
  have short : ∀ d ∈ kept ++ samples, d.nanos < 2 ^ 64 := by decide
  exact ⟨⟨start, sampled, few, short⟩, by decide, by decide, average_near_exact start sampled few short⟩

end Statistics

end AvbEntity
