import Mathlib.Data.List.Basic
import Mathlib.Data.List.Induction

namespace AvbEntity

variable {ε : Type} {opens concerns : List ε → ε → Prop} {events : List ε}

/-- Whether the last event of a run that concerns a thing is one that opens it. What an event opens and
what it concerns may depend on the events before it. -/
def LastOpens (opens concerns : List ε → ε → Prop) (events : List ε) : Prop :=
  ∃ before event after, events = before ++ event :: after ∧ opens before event ∧
    ∀ middle next rest, after = middle ++ next :: rest → ¬ concerns (before ++ event :: middle) next

theorem not_lastOpens_nil : ¬ LastOpens opens concerns [] := by
  rintro ⟨before, event, after, split, -⟩
  simp at split

theorem concat_eq_append_cons_iff {last event : ε} {before after : List ε} :
    events ++ [last] = before ++ event :: after ↔
      (before = events ∧ event = last ∧ after = []) ∨
        ∃ init, after = init ++ [last] ∧ events = before ++ event :: init := by
  constructor
  · intro split
    rcases List.eq_nil_or_concat' after with rfl | ⟨init, final, rfl⟩
    · obtain ⟨rfl, single⟩ := List.append_inj' split rfl
      exact .inl ⟨rfl, (List.singleton_inj.mp single).symm, rfl⟩
    · rw [← List.cons_append, ← List.append_assoc] at split
      obtain ⟨rfl, single⟩ := List.append_inj' split rfl
      obtain rfl := List.singleton_inj.mp single
      exact .inr ⟨init, rfl, rfl⟩
  · rintro (⟨rfl, rfl, rfl⟩ | ⟨init, rfl, rfl⟩)
    · rfl
    · simp

theorem lastOpens_concat {last : ε} :
    LastOpens opens concerns (events ++ [last]) ↔
      opens events last ∨ (LastOpens opens concerns events ∧ ¬ concerns events last) := by
  constructor
  · rintro ⟨before, event, after, split, opened, quiet⟩
    rcases concat_eq_append_cons_iff.mp split with ⟨rfl, rfl, rfl⟩ | ⟨init, rfl, rfl⟩
    · exact .inl opened
    · refine .inr ⟨⟨before, event, init, rfl, opened, ?_⟩, quiet init last [] rfl⟩
      rintro middle next rest rfl
      exact quiet middle next (rest ++ [last]) (by simp)
  · rintro (opened | ⟨⟨before, event, after, rfl, opened, quiet⟩, unconcerned⟩)
    · exact ⟨events, last, [], rfl, opened, fun middle next rest split => by simp at split⟩
    · refine ⟨before, event, after ++ [last], by simp, opened, ?_⟩
      intro middle next rest split
      rcases concat_eq_append_cons_iff.mp split with ⟨rfl, rfl, rfl⟩ | ⟨init, rfl, rfl⟩
      · exact unconcerned
      · exact quiet middle next init rfl

theorem throughout_foldl_iff {σ : Type} {step : σ → ε → σ} {P : σ → Prop} {Keeps : σ → ε → Prop}
    (kept : ∀ s event, P s → (P (step s event) ↔ Keeps s event)) {start : σ} (first : P start)
    (events : List ε) :
    (∀ before after, events = before ++ after → P (before.foldl step start)) ↔
      ∀ before event after, events = before ++ event :: after →
        Keeps (before.foldl step start) event := by
  constructor
  · intro throughout before event after split
    have now := throughout before (event :: after) split
    have next := throughout (before ++ [event]) after (by simp [split])
    rw [List.foldl_concat] at next
    exact (kept _ event now).mp next
  · intro keeps before
    induction before using List.reverseRecOn with
    | nil => exact fun _ _ => first
    | append_singleton before event ih =>
      intro after split
      have split : events = before ++ event :: after := by simpa using split
      have now := ih (event :: after) split
      rw [List.foldl_concat]
      exact (kept _ event now).mpr (keeps before event after split)

end AvbEntity
