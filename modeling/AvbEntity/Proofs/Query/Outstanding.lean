import AvbEntity.Proofs.Model.Edit
import AvbEntity.Proofs.LastEvent
import AvbEntity.Proofs.Query.Packing
import Mathlib.Data.List.Basic
import Mathlib.Data.List.Induction

namespace AvbEntity

namespace PendingQueries

variable {κ : Type}

@[simp] theorem mem_expect [DecidableEq κ] {q : PendingQueries κ} {key other : κ} :
    other ∈ (q.expect key).outstanding ↔ other = key ∨ other ∈ q.outstanding := by
  unfold expect
  split
  · rename_i member
    constructor
    · exact .inr
    · rintro (rfl | h)
      · exact member
      · exact h
  · exact List.mem_cons

@[simp] theorem mem_clearMatching {q : PendingQueries κ} {p : κ → Bool} {key : κ} :
    key ∈ (q.clearMatching p).outstanding ↔ key ∈ q.outstanding ∧ p key = false := by
  simp [clearMatching]

@[simp] theorem mem_take [DecidableEq κ] {q : PendingQueries κ} {key other : κ} :
    other ∈ (q.take key).2.outstanding ↔ other ∈ q.outstanding ∧ other ≠ key := by
  simp [take]

@[simp] theorem not_mem_clearAll {q : PendingQueries κ} {key : κ} :
    key ∉ q.clearAll.outstanding := by
  simp [clearAll]

@[simp] theorem outstanding_retry (q : PendingQueries κ) :
    q.retry.2.outstanding = q.outstanding := by
  unfold retry
  split <;> rfl

theorem allSatisfied_iff {q : PendingQueries κ} :
    q.allSatisfied = true ↔ ∀ key, key ∉ q.outstanding := by
  simp [allSatisfied, List.isEmpty_iff, List.eq_nil_iff_forall_not_mem]

end PendingQueries

namespace Operation

def isQuery : Operation → Bool
  | .expect .. | .take .. | .clearQueries _ | .retry _ => true
  | _ => false

/-- Whether an operation, performed on an entity, is one on a question: it expects the answer, takes
it, which a fatal error prevents, or takes back all questions of the kind. -/
def Concerns (e : RemoteEntity) (k : QueryKind) (q : k.Question) (op : Operation) : Prop :=
  op = .expect k q ∨ (op = .take k q ∧ e.isFatal = false) ∨ op = .clearQueries k

end Operation

namespace RemoteEntity

def Awaits (e : RemoteEntity) (k : QueryKind) (q : k.Question) : Prop :=
  k.pack q ∈ (e.queries.get k).outstanding

def LastExpects (e : RemoteEntity) (ops : List Operation) (k : QueryKind) (q : k.Question) : Prop :=
  ∃ before after, ops = before ++ .expect k q :: after ∧
    ∀ middle op rest, after = middle ++ op :: rest →
      ¬ op.Concerns (e.run (before ++ .expect k q :: middle)) k q

theorem queries_setEntityDescriptor (e : RemoteEntity) (d : EntityDescriptor) :
    (e.setEntityDescriptor d).queries = e.queries := by
  unfold setEntityDescriptor
  split <;> rfl

theorem queries_adopt (e : RemoteEntity) (kept : EntityModel) (d : EntityDescriptor) (all : Bool) :
    (e.adopt kept d all).2.queries = e.queries := by
  unfold adopt
  split
  · exact queries_setEntityDescriptor _ d
  · rfl

theorem queries_apply {op : Operation} (other : op.isQuery = false) (e : RemoteEntity) :
    (e.apply op).queries = e.queries := by
  by_cases update : op.isUpdate = true
  · rw [apply_update e update]
  cases op with
  | expect | take | clearQueries | retry => cases other
  | setEntityDescriptor d => exact queries_setEntityDescriptor e d
  | adopt kept d all => exact queries_adopt e kept d all
  | finish now =>
    simp only [apply, finish]
    split <;> rfl
  | _ => first | exact absurd rfl update | rfl

theorem mem_outstanding_expect (e : RemoteEntity) (l k : QueryKind) (p : l.Question) (key : k.Key) :
    key ∈ ((e.expect l (l.pack p)).queries.get k).outstanding ↔
      (∃ q, Operation.expect l p = .expect k q ∧ k.pack q = key) ∨
        key ∈ (e.queries.get k).outstanding := by
  by_cases same : k = l
  · subst same
    simp [expect, eq_comm]
  · simp [expect, QueryTable.get_set_ne _ same, Ne.symm same]

theorem mem_outstanding_take (e : RemoteEntity) (l k : QueryKind) (p : l.Question) (key : k.Key) :
    key ∈ ((e.take l (l.pack p)).2.queries.get k).outstanding ↔
      key ∈ (e.queries.get k).outstanding ∧
        ¬ ∃ q, Operation.take l p = .take k q ∧ e.isFatal = false ∧ k.pack q = key := by
  unfold take
  by_cases fatal : e.isFatal = true
  · simp [fatal]
  · by_cases same : k = l
    · subst same
      simp [fatal, eq_comm]
    · simp [fatal, QueryTable.get_set_ne _ same, Ne.symm same]

theorem mem_outstanding_clearQueries (e : RemoteEntity) (l k : QueryKind) (key : k.Key) :
    key ∈ ((e.clearQueries l).queries.get k).outstanding ↔
      key ∈ (e.queries.get k).outstanding ∧ Operation.clearQueries l ≠ .clearQueries k := by
  by_cases same : k = l
  · subst same
    simp [clearQueries]
  · simp [clearQueries, QueryTable.get_set_ne _ same, Ne.symm same]

theorem outstanding_retry (e : RemoteEntity) (l k : QueryKind) :
    ((e.retry l).2.queries.get k).outstanding = (e.queries.get k).outstanding := by
  by_cases same : k = l
  · subst same
    simp [retry]
  · simp [retry, QueryTable.get_set_ne _ same]

/-- All that an operation does to the awaited keys of a kind. -/
theorem mem_outstanding_apply (e : RemoteEntity) (op : Operation) (k : QueryKind) (key : k.Key) :
    key ∈ ((e.apply op).queries.get k).outstanding ↔
      (∃ q, op = .expect k q ∧ k.pack q = key) ∨
        (key ∈ (e.queries.get k).outstanding ∧
          (¬ ∃ q, op = .take k q ∧ e.isFatal = false ∧ k.pack q = key) ∧
          op ≠ .clearQueries k) := by
  by_cases query : op.isQuery = true
  · cases op with
    | expect l p => simp [apply, mem_outstanding_expect]
    | take l p => simp [apply, mem_outstanding_take]
    | clearQueries l => simp [apply, mem_outstanding_clearQueries]
    | retry l => simp [apply, outstanding_retry]
    | _ => cases query
  · have other : op.isQuery = false := by simpa using query
    have expects : ∀ q, op ≠ .expect k q := by
      rintro q rfl
      cases other
    have takes : ∀ q, op ≠ .take k q := by
      rintro q rfl
      cases other
    have clears : op ≠ .clearQueries k := by
      rintro rfl
      cases other
    simp [queries_apply other, expects, takes, clears]

theorem awaits_apply (e : RemoteEntity) (op : Operation) (k : QueryKind) (q : k.Question) :
    (e.apply op).Awaits k q ↔ op = .expect k q ∨ (e.Awaits k q ∧ ¬ op.Concerns e k q) := by
  have packed : ∀ p : k.Question, k.pack p = k.pack q ↔ p = q := fun p =>
    ⟨k.pack_injective, fun h => by rw [h]⟩
  simp only [Awaits, mem_outstanding_apply, packed, exists_eq_right, exists_eq_right_right,
    Operation.Concerns]
  tauto

theorem lastExpects_iff {e : RemoteEntity} {ops : List Operation} {k : QueryKind} {q : k.Question} :
    e.LastExpects ops k q ↔
      LastOpens (fun _ op => op = .expect k q) (fun before op => op.Concerns (e.run before) k q) ops := by
  simp only [LastExpects, LastOpens]
  constructor
  · rintro ⟨before, after, split, quiet⟩
    exact ⟨before, _, after, split, rfl, quiet⟩
  · rintro ⟨before, _, after, split, rfl, quiet⟩
    exact ⟨before, after, split, quiet⟩

theorem not_awaits_new (identity : EntityIdentity) (settings : Settings) (now : Duration)
    (k : QueryKind) (q : k.Question) : ¬ (new identity settings now).Awaits k q := by
  simp [Awaits, new, PendingQueries.new]

theorem awaits_run_iff (identity : EntityIdentity) (settings : Settings) (now : Duration)
    (ops : List Operation) (k : QueryKind) (q : k.Question) :
    ((new identity settings now).run ops).Awaits k q ↔
      (new identity settings now).LastExpects ops k q := by
  induction ops using List.reverseRecOn with
  | nil =>
    rw [lastExpects_iff]
    exact iff_of_false (not_awaits_new identity settings now k q) not_lastOpens_nil
  | append_singleton ops op ih =>
    rw [lastExpects_iff] at ih ⊢
    rw [run_concat, awaits_apply, lastOpens_concat, ih]

def OnlyQuestions (e : RemoteEntity) (k : QueryKind) : Prop :=
  ∀ key ∈ (e.queries.get k).outstanding, ∃ q : k.Question, k.pack q = key

theorem OnlyQuestions.apply {e : RemoteEntity} {k : QueryKind} (only : e.OnlyQuestions k)
    (op : Operation) : (e.apply op).OnlyQuestions k := by
  intro key member
  rcases (mem_outstanding_apply e op k key).mp member with ⟨q, _, rfl⟩ | ⟨member, _⟩
  · exact ⟨q, rfl⟩
  · exact only key member

theorem onlyQuestions_run (identity : EntityIdentity) (settings : Settings) (now : Duration)
    (ops : List Operation) (k : QueryKind) :
    ((new identity settings now).run ops).OnlyQuestions k := by
  induction ops using List.reverseRecOn with
  | nil =>
    intro key member
    simp [run, new, PendingQueries.new] at member
  | append_singleton ops op ih =>
    rw [run_concat]
    exact ih.apply op

theorem take_fst (e : RemoteEntity) (k : QueryKind) (q : k.Question) :
    (e.take k (k.pack q)).1 = true ↔ e.isFatal = false ∧ e.Awaits k q := by
  unfold take
  by_cases fatal : e.isFatal = true
  · simp [fatal]
  · simp [fatal, Awaits, PendingQueries.take, PendingQueries.isExpected]

theorem take_snd_of_fatal {e : RemoteEntity} (fatal : e.isFatal = true) (k : QueryKind)
    (key : k.Key) : (e.take k key).2 = e := by
  simp [take, fatal]

theorem OnlyQuestions.allAnswered_iff {e : RemoteEntity} {k : QueryKind}
    (only : e.OnlyQuestions k) : e.allAnswered k = true ↔ ∀ q, ¬ e.Awaits k q := by
  rw [allAnswered, PendingQueries.allSatisfied_iff]
  constructor
  · intro none q
    exact none (k.pack q)
  · intro none key member
    obtain ⟨q, rfl⟩ := only key member
    exact none q member

/-- An answer is taken exactly if no fatal error is set and the last operation on its question expects
it, and nothing is awaited exactly if there is no such question. An operation on anything else leaves
a question as it is, and after a fatal error nothing is taken away. -/
theorem take_iff_last_expects (identity : EntityIdentity) (settings : Settings) (now : Duration)
    (ops : List Operation) (k : QueryKind) :
    let start := new identity settings now
    let e := start.run ops
    (∀ q, (e.take k (k.pack q)).1 = true ↔ e.isFatal = false ∧ start.LastExpects ops k q) ∧
      (e.allAnswered k = true ↔ ∀ q, ¬ start.LastExpects ops k q) ∧
      (∀ op q, ¬ op.Concerns e k q → ((e.apply op).Awaits k q ↔ e.Awaits k q)) ∧
      (e.isFatal = true → ∀ q, (e.take k (k.pack q)).2 = e) := by
  intro start e
  have awaits : ∀ q, e.Awaits k q ↔ start.LastExpects ops k q :=
    awaits_run_iff identity settings now ops k
  refine ⟨?_, ?_, ?_, ?_⟩
  · intro q
    rw [take_fst, awaits]
  · rw [(onlyQuestions_run identity settings now ops k).allAnswered_iff]
    exact forall_congr' fun q => not_congr (awaits q)
  · intro op q aside
    have different : op ≠ .expect k q := fun h => aside (.inl h)
    simp only [awaits_apply, different, aside, not_false_eq_true, and_true, false_or]
  · intro fatal q
    exact take_snd_of_fatal fatal k _

end RemoteEntity

end AvbEntity
