import AvbEntity.Proofs.Json.Escape

namespace AvbEntity.Json

inductive WellWritten : Json → Prop
  | null : WellWritten .null
  | bool (b : Bool) : WellWritten (.bool b)
  | number {l : List Char} (literal : isNumber l = true) (chars : ∀ c ∈ l, isNumberChar c = true) :
    WellWritten (.number l)
  | string {raw : List Char} (body : IsBody raw) : WellWritten (.string raw)
  | array {items : List Json} (inner : ∀ v ∈ items, WellWritten v) : WellWritten (.array items)
  | object {members : List (List Char × Json)} (names : ∀ m ∈ members, IsBody m.1)
    (inner : ∀ m ∈ members, WellWritten m.2) : WellWritten (.object members)

namespace LexState

abbrev past (ts : List Token) : LexState := ⟨ts, .between⟩

def EndsToken (c : Char) : Prop := isNumberChar c = false ∧ c.isAlpha = false

/-- Whether a state becomes that after some tokens at the next character that ends a token. -/
structure Settles (s : LexState) (ts : List Token) : Prop where
  finish : s.finish = some ts.reverse
  step : ∀ c, EndsToken c → s.step c = start ts c

theorem settles_past (ts : List Token) : (past ts).Settles ts := ⟨rfl, fun _ _ => rfl⟩

theorem Settles.run {s : LexState} {ts : List Token} {c : Char} (settles : s.Settles ts)
    (ends : EndsToken c) (cs : List Char) : s.run (c :: cs) = (past ts).run (c :: cs) := by
  rw [LexState.run, settles.step c ends]
  rfl

theorem run_newline (depth : Nat) (ts : List Token) (cs : List Char) :
    (past ts).run (newline depth ++ cs) = (past ts).run cs := by
  have blanks : ∀ k, (past ts).run (List.replicate k ' ' ++ cs) = (past ts).run cs := by
    intro k
    induction k with
    | zero => rfl
    | succ k ih => exact ih
  exact blanks (2 * depth)

theorem not_isBlank_of_isNumberChar {c : Char} (h : isNumberChar c = true) : isBlank c = false := by
  rw [← Bool.not_eq_true]
  intro blank
  simp only [isBlank, Bool.or_eq_true, beq_iff_eq] at blank
  rcases blank with ((rfl | rfl) | rfl) | rfl <;> exact absurd h (by decide)

theorem run_numberChars {l : List Char} (chars : ∀ c ∈ l, isNumberChar c = true) (ts : List Token)
    (seen : List Char) : run ⟨ts, .number seen⟩ l = some ⟨ts, .number (l.reverse ++ seen)⟩ := by
  induction l generalizing seen with
  | nil => rfl
  | cons c l ih =>
    have here : isNumberChar c = true := chars c List.mem_cons_self
    have rest := ih (fun d member => chars d (List.mem_cons_of_mem _ member)) (c :: seen)
    simpa [run, step, here] using rest

theorem run_number {l : List Char} (literal : isNumber l = true) (chars : ∀ c ∈ l, isNumberChar c = true)
    (ts : List Token) : ∃ s, (past ts).run l = some s ∧ s.Settles (.number l :: ts) := by
  cases l with
  | nil => cases literal
  | cons c l =>
    have here : isNumberChar c = true := chars c List.mem_cons_self
    have first : start ts c = some ⟨ts, .number [c]⟩ := by
      simp [start, here, not_isBlank_of_isNumberChar here]
    have rest := run_numberChars (fun d member => chars d (List.mem_cons_of_mem _ member)) ts [c]
    have token : numberToken? (l.reverse ++ [c]).reverse = some (.number (c :: l)) := by
      simp [numberToken?, literal]
    refine ⟨_, by rw [run, step, first]; exact rest, ?_, fun d ends => ?_⟩
    · rw [finish, token, Option.map_some]
    · rw [step, if_neg (by simp [ends.1]), token, Option.bind_some]

theorem settles_word {seen : List Char} {t : Token} (word : wordToken? seen.reverse = some t)
    (ts : List Token) : Settles ⟨ts, .word seen⟩ (t :: ts) where
  finish := by rw [finish, word, Option.map_some]
  step c ends := by rw [step, if_neg (by simp [ends.2]), word, Option.bind_some]

theorem run_string {raw : List Char} (body : IsBody raw) (ts : List Token) (cs : List Char) :
    (past ts).run ('"' :: (raw ++ '"' :: cs)) = (past (.string raw :: ts)).run cs := by
  have opened : (past ts).run ('"' :: (raw ++ '"' :: cs)) =
      LexState.run ⟨ts, .string []⟩ (raw ++ '"' :: cs) := rfl
  rw [opened, run_append, body, Option.bind_some, run, step, if_pos rfl, Option.bind_some,
    List.append_nil, List.reverse_reverse]

end LexState

open LexState

def Lexes (v : Json) : Prop :=
  ∀ depth ts, ∃ s, (past ts).run (render depth v) = some s ∧ s.Settles ((tokens v).reverse ++ ts)

theorem Lexes.run_append {v : Json} (lexes : Lexes v) (depth : Nat) (ts : List Token) {cs : List Char}
    (ends : ∃ c rest, cs = c :: rest ∧ EndsToken c) :
    (past ts).run (render depth v ++ cs) = (past ((tokens v).reverse ++ ts)).run cs := by
  -- the last token of the value is complete only at the character after it
  obtain ⟨s, read, settles⟩ := lexes depth ts
  obtain ⟨c, rest, rfl, ends⟩ := ends
  rw [LexState.run_append, read, Option.bind_some, settles.run ends]

theorem endsToken_renderItems (depth : Nat) (vs : List Json) :
    ∃ c rest, renderItems depth vs = c :: rest ∧ EndsToken c := by
  cases vs with
  | nil => exact ⟨_, _, rfl, rfl, rfl⟩
  | cons v vs => exact ⟨_, _, rfl, rfl, rfl⟩

theorem endsToken_renderMembers (depth : Nat) (ms : List (List Char × Json)) :
    ∃ c rest, renderMembers depth ms = c :: rest ∧ EndsToken c := by
  cases ms with
  | nil => exact ⟨_, _, rfl, rfl, rfl⟩
  | cons m ms => exact ⟨_, _, rfl, rfl, rfl⟩

theorem run_renderItems {vs : List Json} (lexes : ∀ v ∈ vs, Lexes v) (depth : Nat) (ts : List Token) :
    (past ts).run (renderItems depth vs) = some (past ((itemTokens vs).reverse ++ ts)) := by
  induction vs generalizing ts with
  | nil => rw [renderItems, run_newline]; rfl
  | cons v vs ih =>
    have here := lexes v List.mem_cons_self
    have rest := ih fun w member => lexes w (List.mem_cons_of_mem _ member)
    have comma : (past ts).run (renderItems depth (v :: vs)) =
        (past (.comma :: ts)).run (newline (depth + 1) ++ (render (depth + 1) v ++ renderItems depth vs)) :=
      rfl
    rw [comma, run_newline, here.run_append _ _ (endsToken_renderItems depth vs), rest]
    simp [itemTokens]

theorem Lexes.run_member {name : List Char} {v : Json} (body : IsBody name) (lexes : Lexes v)
    (depth : Nat) (ts : List Token) {cs : List Char} (ends : ∃ c rest, cs = c :: rest ∧ EndsToken c) :
    (past ts).run (newline depth ++ '"' :: (name ++ '"' :: ':' :: ' ' :: (render depth v ++ cs))) =
      (past ((tokens v).reverse ++ .colon :: .string name :: ts)).run cs := by
  have colon : ∀ us rest, (past us).run (':' :: ' ' :: rest) = (past (.colon :: us)).run rest :=
    fun _ _ => rfl
  rw [run_newline, run_string body, colon, lexes.run_append _ _ ends]

theorem run_renderMembers {ms : List (List Char × Json)} (names : ∀ m ∈ ms, IsBody m.1)
    (lexes : ∀ m ∈ ms, Lexes m.2) (depth : Nat) (ts : List Token) :
    (past ts).run (renderMembers depth ms) = some (past ((memberTokens ms).reverse ++ ts)) := by
  induction ms generalizing ts with
  | nil => rw [renderMembers, run_newline]; rfl
  | cons m ms ih =>
    obtain ⟨name, v⟩ := m
    have body : IsBody name := names _ List.mem_cons_self
    have here : Lexes v := lexes _ List.mem_cons_self
    have rest := ih (fun m member => names m (List.mem_cons_of_mem _ member))
      fun m member => lexes m (List.mem_cons_of_mem _ member)
    have comma : (past ts).run (renderMembers depth ((name, v) :: ms)) =
        (past (.comma :: ts)).run (newline (depth + 1) ++ '"' :: (name ++ '"' :: ':' :: ' ' ::
          (render (depth + 1) v ++ renderMembers depth ms))) := rfl
    rw [comma, here.run_member body _ _ (endsToken_renderMembers depth ms), rest]
    simp [memberTokens]

/-- The lexer splits the text of a well written value into the value's tokens. -/
theorem run_render {v : Json} (well : WellWritten v) : Lexes v := by
  induction well with
  | null => exact fun _ ts => ⟨⟨ts, .word ['l', 'l', 'u', 'n']⟩, rfl, settles_word rfl ts⟩
  | bool b =>
    intro _ ts
    cases b with
    | true => exact ⟨⟨ts, .word ['e', 'u', 'r', 't']⟩, rfl, settles_word rfl ts⟩
    | false => exact ⟨⟨ts, .word ['e', 's', 'l', 'a', 'f']⟩, rfl, settles_word rfl ts⟩
  | number literal chars => exact fun _ ts => run_number literal chars ts
  | string body => exact fun _ ts => ⟨_, run_string body ts [], settles_past _⟩
  | @array items _ lexes =>
    intro depth ts
    cases items with
    | nil => exact ⟨_, rfl, settles_past _⟩
    | cons v vs =>
      have here := lexes v List.mem_cons_self
      have rest := run_renderItems (fun w member => lexes w (List.mem_cons_of_mem _ member)) depth
      have opened : (past ts).run (render depth (.array (v :: vs))) = (past (.openBracket :: ts)).run
          (newline (depth + 1) ++ (render (depth + 1) v ++ renderItems depth vs)) := rfl
      rw [opened, run_newline, here.run_append _ _ (endsToken_renderItems depth vs), rest]
      exact ⟨_, rfl, by simpa [tokens] using settles_past _⟩
  | @object members names _ lexes =>
    intro depth ts
    cases members with
    | nil => exact ⟨_, rfl, settles_past _⟩
    | cons m ms =>
      obtain ⟨name, v⟩ := m
      have body : IsBody name := names _ List.mem_cons_self
      have here : Lexes v := lexes _ List.mem_cons_self
      have rest := run_renderMembers (fun m member => names m (List.mem_cons_of_mem _ member))
        (fun m member => lexes m (List.mem_cons_of_mem _ member)) depth
      have opened : (past ts).run (render depth (.object ((name, v) :: ms))) =
          (past (.openBrace :: ts)).run (newline (depth + 1) ++ '"' :: (name ++ '"' :: ':' :: ' ' ::
            (render (depth + 1) v ++ renderMembers depth ms))) := rfl
      rw [opened, here.run_member body _ _ (endsToken_renderMembers depth ms), rest]
      exact ⟨_, rfl, by simpa [tokens] using settles_past _⟩

theorem parse?_render {v : Json} (well : WellWritten v) : parse? (render 0 v) = some v := by
  obtain ⟨s, read, settles⟩ := run_render well 0 []
  have split : tokenize? (render 0 v) = some (tokens v) := by
    rw [tokenize?, read, Option.bind_some, settles.finish, List.append_nil, List.reverse_reverse]
  rw [parse?, split]
  exact ofTokens?_tokens v

theorem ofText?_pretty {v : Json} (well : WellWritten v) : ofText? v.pretty = some v := by
  rw [ofText?, pretty, String.toList_ofList, parse?_render well]

end AvbEntity.Json
