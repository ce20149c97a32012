import AvbEntity.Proofs.Query.Schedule

namespace AvbEntity

inductive WordFault where
  | shift
  | product
  | nanoseconds

namespace Words

def shiftedOne (places : UInt32) : Except WordFault UInt32 :=
  if places < 32 then .ok (1 <<< places) else .error .shift

def product (a b : UInt64) : Except WordFault UInt64 :=
  if a.toNat * b.toNat < UInt64.size then .ok (a * b) else .error .product

def product? (a b : UInt64) : Option UInt64 :=
  if a.toNat * b.toNat < UInt64.size then some (a * b) else none

def sum? (a b : UInt64) : Option UInt64 :=
  if a.toNat + b.toNat < UInt64.size then some (a + b) else none

theorem toNat_mul_of_fits {a b : UInt64} (fits : a.toNat * b.toNat < UInt64.size) :
    (a * b).toNat = a.toNat * b.toNat := by
  rw [UInt64.toNat_mul]
  exact Nat.mod_eq_of_lt fits

theorem toNat_add_of_fits {a b : UInt64} (fits : a.toNat + b.toNat < UInt64.size) :
    (a + b).toNat = a.toNat + b.toNat := by
  rw [UInt64.toNat_add]
  exact Nat.mod_eq_of_lt fits

theorem shiftedOne_eq_ok {places : UInt32} (few : places.toNat < 32) :
    ∃ factor, shiftedOne places = .ok factor ∧ factor.toNat = 2 ^ places.toNat := by
  have short : places < 32 := UInt32.lt_iff_toNat_lt.mpr few
  refine ⟨1 <<< places, if_pos short, ?_⟩
  have fits : 2 ^ places.toNat < 2 ^ 32 := Nat.pow_lt_pow_right (by decide) few
  rw [UInt32.toNat_shiftLeft, UInt32.toNat_one, Nat.mod_eq_of_lt few, Nat.shiftLeft_eq, Nat.one_mul]
  exact Nat.mod_eq_of_lt fits

theorem carried_cases (a b carry : UInt64) :
    (∃ word, (product? a b).bind (sum? · carry) = some word ∧
        word.toNat = a.toNat * b.toNat + carry.toNat) ∨
      ((product? a b).bind (sum? · carry) = none ∧
        UInt64.size ≤ a.toNat * b.toNat + carry.toNat) := by
  by_cases fits : a.toNat * b.toNat < UInt64.size
  · have first : product? a b = some (a * b) := if_pos fits
    have value := toNat_mul_of_fits fits
    rw [first, Option.bind_some, ← value]
    by_cases both : (a * b).toNat + carry.toNat < UInt64.size
    · exact .inl ⟨a * b + carry, if_pos both, toNat_add_of_fits both⟩
    · exact .inr ⟨if_neg both, Nat.le_of_not_lt both⟩
  · have first : product? a b = none := if_neg fits
    rw [first, Option.bind_none]
    exact .inr ⟨rfl, Nat.le_trans (Nat.le_of_not_lt fits) (Nat.le_add_right _ _)⟩

end Words

namespace Duration

open Words

def ofWords (seconds nanos : UInt64) : Except WordFault Duration :=
  match ofParts? seconds nanos.toNat with
  | some d => .ok d
  | none => .error .nanoseconds

def timesInWords (d : Duration) (k : UInt32) : Except WordFault (Option Duration) := do
  let nanos ← product (UInt64.ofNat d.subsecondNanos) k.toUInt64
  match (product? (UInt64.ofNat d.seconds) k.toUInt64).bind (sum? · (nanos / 1000000000)) with
  | some seconds => return some (← ofWords seconds (nanos % 1000000000))
  | none => return none

theorem subsecondNanos_lt (d : Duration) : d.subsecondNanos < 1000000000 := Nat.mod_lt _ (by decide)

theorem seconds_lt (d : Duration) : d.seconds < UInt64.size := by
  have bound := d.nanos_lt
  unfold seconds
  omega

theorem nanos_eq (d : Duration) : d.nanos = d.seconds * 1000000000 + d.subsecondNanos := by
  unfold seconds subsecondNanos
  omega

theorem ofParts?_eq_some (seconds : UInt64) {nanos : Nat} (less : nanos < 1000000000) :
    ∃ d, ofParts? seconds nanos = some d ∧ d.nanos = seconds.toNat * 1000000000 + nanos := by
  have bound : seconds.toNat * 1000000000 + nanos < UInt64.size * 1000000000 := by
    have word := seconds.toNat_lt_size
    omega
  exact ⟨⟨_, bound⟩, by rw [ofParts?, if_pos less, ofNanos?, dif_pos bound], rfl⟩

theorem times?_eq_some {d m : Duration} {k : Nat} (equal : m.nanos = d.nanos * k) :
    d.times? k = some m := by
  have fits := m.nanos_lt
  rw [equal] at fits
  rw [times?, ofNanos?, dif_pos fits]
  exact congrArg some (Duration.ext equal.symm)

theorem times?_eq_none {d : Duration} {k : Nat} (long : UInt64.size * 1000000000 ≤ d.nanos * k) :
    d.times? k = none := by
  rw [times?, ofNanos?, dif_neg (Nat.not_lt_of_le long)]

/-- With words, multiplication has always a result, and it is that of unbounded numbers. -/
theorem timesInWords_eq (d : Duration) (k : UInt32) : d.timesInWords k = .ok (d.times? k.toNat) := by
  have factor : k.toUInt64.toNat = k.toNat := UInt32.toNat_toUInt64 k
  have small : (UInt64.ofNat d.subsecondNanos).toNat = d.subsecondNanos :=
    UInt64.toNat_ofNat_of_lt' (Nat.lt_trans d.subsecondNanos_lt (by decide))
  have large : (UInt64.ofNat d.seconds).toNat = d.seconds := UInt64.toNat_ofNat_of_lt' d.seconds_lt
  have whole : d.nanos * k.toNat =
      d.seconds * k.toNat * 1000000000 + d.subsecondNanos * k.toNat := by
    rw [d.nanos_eq, Nat.add_mul, Nat.mul_right_comm]
  have nanosFit : d.subsecondNanos * k.toNat < UInt64.size :=
    Nat.lt_of_lt_of_le (Nat.mul_lt_mul'' d.subsecondNanos_lt k.toNat_lt) (by decide)
  rw [← small, ← factor] at nanosFit
  have nanos := toNat_mul_of_fits nanosFit
  rw [small, factor] at nanos
  have start : product (UInt64.ofNat d.subsecondNanos) k.toUInt64 =
      .ok (UInt64.ofNat d.subsecondNanos * k.toUInt64) := if_pos nanosFit
  unfold timesInWords
  rw [start]
  generalize UInt64.ofNat d.subsecondNanos * k.toUInt64 = product at nanos ⊢
  have carry : (product / 1000000000).toNat = product.toNat / 1000000000 := UInt64.toNat_div ..
  have left : (product % 1000000000).toNat = product.toNat % 1000000000 := UInt64.toNat_mod ..
  rcases carried_cases (UInt64.ofNat d.seconds) k.toUInt64 (product / 1000000000) with
    ⟨seconds, sum, value⟩ | ⟨sum, long⟩
  · rw [large, factor, carry] at value
    have less : (product % 1000000000).toNat < 1000000000 := left ▸ Nat.mod_lt _ (by decide)
    obtain ⟨m, parts, total⟩ := ofParts?_eq_some seconds less
    have equal : m.nanos = d.nanos * k.toNat := by omega
    simp only [bind, Except.bind, pure, Except.pure, sum, ofWords, parts, times?_eq_some equal]
  · rw [large, factor, carry] at long
    have beyond : UInt64.size * 1000000000 ≤ d.nanos * k.toNat := by omega
    simp only [bind, Except.bind, pure, Except.pure, sum, times?_eq_none beyond]

end Duration

namespace RetryPolicy

open Words

def earlier (attempt : UInt16) : UInt16 := if attempt = 0 then 0 else attempt - 1

def delayInWords (p : RetryPolicy) (attempt : UInt16) : Except WordFault Duration :=
  match p.backoff with
  | .fixed => .ok p.delay
  | .exponential cap => do
    let factor ← shiftedOne (min (earlier attempt).toUInt32 31)
    match ← p.delay.timesInWords factor with
    | some delay => return delay.min cap
    | none => return cap

theorem toNat_earlier (attempt : UInt16) : (earlier attempt).toNat = attempt.toNat - 1 := by
  unfold earlier
  split
  next zero => rw [zero]; rfl
  next given =>
    have positive : 1 ≤ attempt.toNat := Nat.pos_of_ne_zero fun zero => given (UInt16.toNat_inj.mp zero)
    exact UInt16.toNat_sub_of_le _ _ (UInt16.le_iff_toNat_le.mpr positive)

theorem toNat_places (attempt : UInt16) :
    (min (earlier attempt).toUInt32 31).toNat = doublings attempt := by
  have limit : (31 : UInt32).toNat = 31 := rfl
  rw [UInt32.toNat_min, UInt16.toNat_toUInt32, toNat_earlier, limit, doublings]

theorem delayInWords_eq (p : RetryPolicy) (attempt : UInt16) :
    p.delayInWords attempt = .ok (p.delayFor attempt) := by
  unfold delayInWords delayFor
  cases p.backoff with
  | fixed => rfl
  | exponential cap =>
    have few : (min (earlier attempt).toUInt32 31).toNat < 32 := by
      rw [toNat_places, doublings]
      omega
    obtain ⟨factor, shifted, value⟩ := shiftedOne_eq_ok few
    rw [toNat_places] at value
    simp only [bind, Except.bind, pure, Except.pure, shifted, Duration.timesInWords_eq, value,
      Nat.pow_eq]
    cases p.delay.times? (2 ^ doublings attempt) <;> rfl

theorem delayFor_mono (p : RetryPolicy) {a b : UInt16} (order : a ≤ b) :
    p.delayFor a ≤ p.delayFor b := by
  show (p.delayFor a).nanos ≤ (p.delayFor b).nanos
  cases backoff : p.backoff with
  | fixed => simp [delayFor, backoff]
  | exponential cap =>
    have more : doublings a ≤ doublings b := by
      have words : a.toNat ≤ b.toNat := UInt16.le_iff_toNat_le.mp order
      unfold doublings
      omega
    have grown : p.delay.nanos * 2 ^ doublings a ≤ p.delay.nanos * 2 ^ doublings b :=
      Nat.mul_le_mul_left _ (Nat.pow_le_pow_right (by decide) more)
    rw [nanos_delayFor backoff, nanos_delayFor backoff]
    omega

/-- The delays of a policy: they can be computed with words without a fault, a later attempt waits no less
than an earlier one, and growing delays keep to the cap; up to the thirty-second attempt they are the doubled
delay or the cap in whole nanoseconds, also where the doubled delay is no span of time. -/
theorem delays_safe_and_monotone (p : RetryPolicy) :
    (∀ attempt, p.delayInWords attempt = .ok (p.delayFor attempt)) ∧
      (∀ a b : UInt16, a ≤ b → p.delayFor a ≤ p.delayFor b) ∧
      ∀ cap, p.backoff = .exponential cap →
        (∀ attempt, p.delayFor attempt ≤ cap) ∧
          ∀ attempt : UInt16, 1 ≤ attempt.toNat → attempt.toNat ≤ 32 →
            (p.delayFor attempt).nanos =
              min (p.delay.nanos * 2 ^ (attempt.toNat - 1)) cap.nanos := by
  refine ⟨p.delayInWords_eq, fun a b => p.delayFor_mono, fun cap grows => ⟨fun attempt => ?_, ?_⟩⟩
  · show (p.delayFor attempt).nanos ≤ cap.nanos
    rw [nanos_delayFor grows]
    exact Nat.min_le_right _ _
  · intro attempt first few
    rw [nanos_delayFor grows, doublings_eq few]

end RetryPolicy

end AvbEntity
