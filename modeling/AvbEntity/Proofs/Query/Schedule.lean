import AvbEntity.Config.Validation
import AvbEntity.Proofs.Query.Outstanding

namespace AvbEntity

namespace Duration

theorem nanos_of_times? {d m : Duration} {k : Nat} (fits : d.times? k = some m) :
    m.nanos = d.nanos * k := by
  unfold times? ofNanos? at fits
  split at fits
  · cases fits
    rfl
  · cases fits

theorem nanos_le_of_times?_eq_none {d : Duration} {k : Nat} (long : d.times? k = none)
    (m : Duration) : m.nanos ≤ d.nanos * k := by
  unfold times? ofNanos? at long
  split at long
  · cases long
  · rename_i beyond
    exact Nat.le_of_lt (Nat.lt_of_lt_of_le m.nanos_lt (Nat.le_of_not_lt beyond))

end Duration

namespace RetryPolicy

/-- A growing delay is the doubled one or the cap, whichever is shorter, without a bound on numbers. -/
theorem nanos_delayFor {p : RetryPolicy} {cap : Duration} (grows : p.backoff = .exponential cap)
    (attempt : UInt16) :
    (p.delayFor attempt).nanos = min (p.delay.nanos * 2 ^ doublings attempt) cap.nanos := by
  simp only [delayFor, grows]
  split
  · rename_i delay fits
    rw [Duration.nanos_min, Duration.nanos_of_times? fits]
    rfl
  · rename_i long
    exact (Nat.min_eq_right (Duration.nanos_le_of_times?_eq_none long cap)).symm

theorem doublings_eq {attempt : UInt16} (few : attempt.toNat ≤ 32) :
    doublings attempt = attempt.toNat - 1 := by
  unfold doublings
  omega

end RetryPolicy

namespace RetryConfig

def capMillis (r : RetryConfig) : Nat :=
  match r.maxDelayMillis with
  | some cap => cap.toNat
  | none => min (8 * r.delayMillis.toNat) (2 ^ 64 - 1)

def delayAt (r : RetryConfig) (attempt : Nat) : Nat :=
  match r.backoff with
  | .fixed => r.delayMillis.toNat
  | .exponential => min (r.delayMillis.toNat * 2 ^ (attempt - 1)) r.capMillis

/-- Settings that can be used: not too many attempts, a delay, and no cap below the delay where the
delay grows. -/
structure Usable (r : RetryConfig) : Prop where
  attempts : r.maxAttempts.toNat ≤ 32
  delay : 0 < r.delayMillis.toNat
  cap : r.backoff = .exponential → r.delayMillis.toNat ≤ r.capMillis

theorem toNat_effectiveCap (r : RetryConfig) : r.effectiveCap.toNat = r.capMillis := by
  unfold effectiveCap capMillis
  cases r.maxDelayMillis with
  | some cap => rfl
  | none =>
    have fits : min (8 * r.delayMillis.toNat) (UInt64.size - 1) < 2 ^ 64 := by
      have size : UInt64.size = 2 ^ 64 := rfl
      omega
    rw [Option.getD_none, UInt64.toNat_ofNat_of_lt' fits]
    rfl

def usablePolicy (r : RetryConfig) : RetryPolicy where
  maxAttempts := r.maxAttempts
  delay := .ofMillis r.delayMillis
  backoff := match r.backoff with
    | .fixed => .fixed
    | .exponential => .exponential (.ofMillis r.effectiveCap)

theorem toPolicy_eq_ok_iff {r : RetryConfig} {p : RetryPolicy} :
    r.toPolicy = .ok p ↔ r.Usable ∧ r.usablePolicy = p := by
  have limit : attemptsLimit.toNat = 32 := rfl
  unfold toPolicy
  split
  · rename_i many
    have more : 32 < r.maxAttempts.toNat := UInt16.lt_iff_toNat_lt.mp many
    exact iff_of_false nofun fun ⟨usable, _⟩ => Nat.not_lt_of_le usable.attempts more
  rename_i few
  have attempts : r.maxAttempts.toNat ≤ 32 := Nat.le_of_not_lt fun more =>
    few (UInt16.lt_iff_toNat_lt.mpr more)
  split
  · rename_i absent
    exact iff_of_false nofun fun ⟨usable, _⟩ =>
      Nat.ne_of_gt usable.delay (congrArg UInt64.toNat absent)
  rename_i given
  have delay : 0 < r.delayMillis.toNat := Nat.pos_of_ne_zero fun zero =>
    given (UInt64.toNat_inj.mp zero)
  cases backoff : r.backoff with
  | fixed =>
    have usable : r.Usable := ⟨attempts, delay, by simp [backoff]⟩
    simp [usable, usablePolicy, backoff]
  | exponential =>
    have order : r.effectiveCap < r.delayMillis ↔ r.capMillis < r.delayMillis.toNat := by
      rw [UInt64.lt_iff_toNat_lt, toNat_effectiveCap]
    simp only [order]
    split
    · rename_i below
      exact iff_of_false nofun fun ⟨usable, _⟩ => Nat.not_lt_of_le (usable.cap backoff) below
    · rename_i above
      have usable : r.Usable := ⟨attempts, delay, fun _ => Nat.le_of_not_lt above⟩
      simp [usable, usablePolicy, backoff]

theorem nanos_delayFor (r : RetryConfig) {attempt : UInt16} (few : attempt.toNat ≤ 32) :
    (r.usablePolicy.delayFor attempt).nanos = r.delayAt attempt.toNat * 1000000 := by
  cases backoff : r.backoff with
  | fixed => simp [RetryPolicy.delayFor, usablePolicy, delayAt, backoff, Duration.ofMillis]
  | exponential =>
    have grows : r.usablePolicy.backoff = .exponential (.ofMillis r.effectiveCap) := by
      simp [usablePolicy, backoff]
    have cap : (Duration.ofMillis r.effectiveCap).nanos = r.capMillis * 1000000 := by
      rw [← toNat_effectiveCap]
      rfl
    have delay : r.usablePolicy.delay.nanos = r.delayMillis.toNat * 1000000 := rfl
    rw [RetryPolicy.nanos_delayFor grows, RetryPolicy.doublings_eq few, cap, delay, delayAt, backoff,
      Nat.mul_right_comm, Nat.mul_min_mul_right]

end RetryConfig

namespace Config

theorem policy_eq_ok_iff {c : Config} {k : QueryKind} {p : RetryPolicy} :
    c.policy k = .ok p ↔ (c.retries.get k).Usable ∧ (c.retries.get k).usablePolicy = p := by
  rw [← RetryConfig.toPolicy_eq_ok_iff, policy]
  cases (c.retries.get k).toPolicy <;> simp [Except.mapError]

theorem bind_eq_ok_iff {ε α β : Type} {x : Except ε α} {f : α → Except ε β} {b : β} :
    x >>= f = .ok b ↔ ∃ a, x = .ok a ∧ f a = .ok b := by
  cases x with
  | error e => simp [bind, Except.bind]
  | ok a => simp [bind, Except.bind]

theorem toSettings_eq_ok_iff {c : Config} {s : Settings} :
    c.toSettings = .ok s ↔
      (∀ k, c.policy k = .ok (s.policies.get k)) ∧ c.cacheEnabled = s.cacheEnabled := by
  simp only [toSettings, bind_eq_ok_iff]
  constructor
  · rintro ⟨_, registerUnsolicited, _, milanInfo, _, descriptor, _, dynamicInfo, _, descriptorInfo,
      settings⟩
    cases settings
    refine ⟨fun k => ?_, rfl⟩
    cases k <;> assumption
  · rintro ⟨policies, cache⟩
    refine ⟨_, policies .registerUnsolicited, _, policies .milanInfo, _, policies .descriptor, _,
      policies .dynamicInfo, _, policies .descriptorInfo, ?_⟩
    rw [cache]
    rfl

theorem exists_toSettings_iff {c : Config} :
    (∃ s, c.toSettings = .ok s) ↔ ∀ k, (c.retries.get k).Usable := by
  constructor
  · rintro ⟨s, accepted⟩ k
    exact (policy_eq_ok_iff.mp ((toSettings_eq_ok_iff.mp accepted).1 k)).1
  · intro usable
    let policy (k : QueryKind) : RetryPolicy := (c.retries.get k).usablePolicy
    refine ⟨⟨⟨policy .registerUnsolicited, policy .milanInfo, policy .descriptor,
      policy .dynamicInfo, policy .descriptorInfo⟩, c.cacheEnabled⟩, ?_⟩
    refine toSettings_eq_ok_iff.mpr ⟨fun k => policy_eq_ok_iff.mpr ⟨usable k, ?_⟩, rfl⟩
    cases k <;> rfl

end Config

namespace PendingQueries

variable {κ : Type}

structure Spent (q : PendingQueries κ) (policy : RetryPolicy) (asked : Nat) : Prop where
  under : q.policy = policy
  retries : q.retries.toNat = min asked policy.maxAttempts.toNat

variable {q : PendingQueries κ} {policy : RetryPolicy} {asked : Nat}

theorem spent_new (policy : RetryPolicy) : (new policy : PendingQueries κ).Spent policy 0 :=
  ⟨rfl, (Nat.zero_min _).symm⟩

theorem Spent.retry_cases (spent : q.Spent policy asked) :
    (asked < policy.maxAttempts.toNat ∧ ∃ attempt : UInt16, attempt.toNat = asked + 1 ∧
        q.retry = (.retry (policy.delayFor attempt), { q with retries := attempt })) ∨
      (policy.maxAttempts.toNat ≤ asked ∧ q.retry = (.exhausted, q)) := by
  have used := spent.retries
  have exhausted : q.isExhausted = true ↔ policy.maxAttempts.toNat ≤ asked := by
    rw [isExhausted, decide_eq_true_iff, UInt16.le_iff_toNat_le, spent.under]
    omega
  unfold retry
  split
  · rename_i full
    exact .inr ⟨exhausted.mp full, rfl⟩
  · rename_i left
    have more : asked < policy.maxAttempts.toNat := Nat.lt_of_not_le fun full => left (exhausted.mpr full)
    -- the count is below the budget, which is a word, so one more does not wrap around
    have bound := policy.maxAttempts.toNat_lt
    have attempt : (q.retries + 1).toNat = asked + 1 := by
      rw [UInt16.toNat_add, UInt16.toNat_one]
      omega
    exact .inl ⟨more, q.retries + 1, attempt, by rw [spent.under]⟩

theorem Spent.retry (spent : q.Spent policy asked) : q.retry.2.Spent policy (asked + 1) := by
  have used := spent.retries
  rcases spent.retry_cases with ⟨more, attempt, number, h⟩ | ⟨full, h⟩ <;>
  · rw [h]
    refine ⟨spent.under, ?_⟩
    simp only
    omega

theorem Spent.expect [DecidableEq κ] (spent : q.Spent policy asked) (key : κ) :
    (q.expect key).Spent policy asked := by
  unfold PendingQueries.expect
  split
  · exact spent
  · exact ⟨spent.under, spent.retries⟩

theorem Spent.take [DecidableEq κ] (spent : q.Spent policy asked) (key : κ) :
    (q.take key).2.Spent policy asked :=
  ⟨spent.under, spent.retries⟩

theorem Spent.clearAll (spent : q.Spent policy asked) : q.clearAll.Spent policy asked :=
  ⟨spent.under, spent.retries⟩

end PendingQueries

def Operation.isRetry (k : QueryKind) : Operation → Bool
  | .retry l => l = k
  | _ => false

namespace RemoteEntity

section Step

variable {e : RemoteEntity} {k : QueryKind} {policy : RetryPolicy} {asked : Nat}

theorem spent_set {l : QueryKind} {q : PendingQueries l.Key}
    (keeps : ∀ policy asked, (e.queries.get l).Spent policy asked → q.Spent policy asked)
    (spent : (e.queries.get k).Spent policy asked) :
    ((e.queries.set l q).get k).Spent policy asked := by
  by_cases same : k = l
  · subst same
    rw [QueryTable.get_set_self]
    exact keeps policy asked spent
  · rw [QueryTable.get_set_ne _ same]
    exact spent

theorem spent_apply (spent : (e.queries.get k).Spent policy asked) (op : Operation) :
    ((e.apply op).queries.get k).Spent policy (asked + if op.isRetry k then 1 else 0) := by
  cases op with
  | expect l question =>
    exact spent_set (fun _ _ before => before.expect _) spent
  | take l question =>
    simp only [apply, take]
    split
    · exact spent
    · exact spent_set (fun _ _ before => before.take _) spent
  | clearQueries l =>
    exact spent_set (fun _ _ before => before.clearAll) spent
  | retry l =>
    by_cases equal : l = k
    · subst equal
      simpa [apply, RemoteEntity.retry, Operation.isRetry] using spent.retry
    · simpa [apply, RemoteEntity.retry, Operation.isRetry, equal,
        QueryTable.get_set_ne _ (Ne.symm equal)] using spent
  | _ =>
    rw [queries_apply rfl]
    exact spent

end Step

theorem spent_run (identity : EntityIdentity) (settings : Settings) (now : Duration)
    (ops : List Operation) (k : QueryKind) :
    (((new identity settings now).run ops).queries.get k).Spent (settings.policies.get k)
      (ops.countP (Operation.isRetry k)) := by
  induction ops using List.reverseRecOn with
  | nil =>
    have start : ((new identity settings now).run []).queries.get k = .new (settings.policies.get k) :=
      QueryTable.get_new ..
    rw [start]
    exact PendingQueries.spent_new _
  | append_singleton ops op ih =>
    rw [run_concat, List.countP_append, List.countP_singleton]
    exact spent_apply ih op

/-- A configuration is accepted exactly if the settings of every kind of query are usable. On an entity
with an accepted configuration, after any run, asking once more for a repetition of a kind of query is
granted exactly if that was asked for at most as often as the settings allow, this time included, and
the delay is that of unbounded arithmetic; any further time there is no repetition, and no delay. -/
theorem retries_follow_configuration (c : Config) :
    ((∃ settings, c.toSettings = .ok settings) ↔ ∀ k, (c.retries.get k).Usable) ∧
      ∀ settings, c.toSettings = .ok settings → ∀ identity now ops k,
        let r := c.retries.get k
        let attempt := ops.countP (Operation.isRetry k) + 1
        let decision := (((new identity settings now).run ops).retry k).1
        (decision.shouldRetry = true ↔ attempt ≤ r.maxAttempts.toNat) ∧
          decision.delay.nanos =
            if attempt ≤ r.maxAttempts.toNat then r.delayAt attempt * 1000000 else 0 := by
  refine ⟨Config.exists_toSettings_iff, ?_⟩
  intro settings accepted identity now ops k r attempt decision
  obtain ⟨usable, policy⟩ :=
    Config.policy_eq_ok_iff.mp ((Config.toSettings_eq_ok_iff.mp accepted).1 k)
  have spent := spent_run identity settings now ops k
  rw [← policy] at spent
  have most : r.usablePolicy.maxAttempts = r.maxAttempts := rfl
  rcases spent.retry_cases with ⟨more, number, value, h⟩ | ⟨full, h⟩
  · have asked : decision = .retry (r.usablePolicy.delayFor number) := congrArg Prod.fst h
    have within : attempt ≤ r.maxAttempts.toNat := more
    have few : number.toNat ≤ 32 := value ▸ Nat.le_trans within usable.attempts
    have delay := r.nanos_delayFor few
    rw [value] at delay
    rw [asked, if_pos within]
    exact ⟨iff_of_true rfl within, delay⟩
  · have refused : decision = .exhausted := congrArg Prod.fst h
    have beyond : ¬ attempt ≤ r.maxAttempts.toNat := Nat.not_le_of_lt (Nat.lt_succ_of_le full)
    rw [refused, if_neg beyond]
    exact ⟨iff_of_false Bool.false_ne_true beyond, rfl⟩

end RemoteEntity

end AvbEntity
