import AvbEntity.Json.Lexer

namespace AvbEntity.Json

/-- A container in progress; what it holds so far stands last first. -/
inductive Frame where
  | array (items : List Json)
  | object (members : List (List Char × Json)) (name : List Char)

inductive ParseState where
  | value (frames : List Frame)
  | firstItem (frames : List Frame)
  | firstMember (frames : List Frame)
  | member (frames : List Frame) (members : List (List Char × Json))
  | colon (frames : List Frame) (members : List (List Char × Json)) (name : List Char)
  | after (frames : List Frame) (value : Json)

namespace ParseState

def startValue (frames : List Frame) : Token → Option ParseState
  | .null => some (.after frames .null)
  | .bool b => some (.after frames (.bool b))
  | .number l => some (.after frames (.number l))
  | .string r => some (.after frames (.string r))
  | .openBracket => some (.firstItem frames)
  | .openBrace => some (.firstMember frames)
  | _ => none

def step : ParseState → Token → Option ParseState
  | .value fs, t => startValue fs t
  | .firstItem fs, .closeBracket => some (.after fs (.array []))
  | .firstItem fs, t => startValue (.array [] :: fs) t
  | .firstMember fs, .closeBrace => some (.after fs (.object []))
  | .firstMember fs, .string name => some (.colon fs [] name)
  | .member fs ms, .string name => some (.colon fs ms name)
  | .colon fs ms name, .colon => some (.value (.object ms name :: fs))
  | .after (.array items :: fs) v, .comma => some (.value (.array (v :: items) :: fs))
  | .after (.array items :: fs) v, .closeBracket => some (.after fs (.array (v :: items).reverse))
  | .after (.object ms name :: fs) v, .comma => some (.member fs ((name, v) :: ms))
  | .after (.object ms name :: fs) v, .closeBrace =>
    some (.after fs (.object ((name, v) :: ms).reverse))
  | _, _ => none

def run (s : ParseState) : List Token → Option ParseState
  | [] => some s
  | t :: ts => (s.step t).bind fun s => s.run ts

def finish : ParseState → Option Json
  | .after [] v => some v
  | _ => none

theorem run_append (s : ParseState) (ts us : List Token) :
    s.run (ts ++ us) = (s.run ts).bind fun s => s.run us := by
  induction ts generalizing s with
  | nil => rfl
  | cons t ts ih =>
    simp only [List.cons_append, run]
    cases s.step t with
    | none => rfl
    | some s' => exact ih s'

end ParseState

def ofTokens? (ts : List Token) : Option Json :=
  (ParseState.run (.value []) ts).bind ParseState.finish

def parse? (cs : List Char) : Option Json := tokenize? cs >>= ofTokens?

mutual

def tokens : Json → List Token
  | .null => [.null]
  | .bool b => [.bool b]
  | .number l => [.number l]
  | .string r => [.string r]
  | .array [] => [.openBracket, .closeBracket]
  | .array (v :: vs) => .openBracket :: (tokens v ++ itemTokens vs)
  | .object [] => [.openBrace, .closeBrace]
  | .object ((name, v) :: ms) =>
    .openBrace :: .string name :: .colon :: (tokens v ++ memberTokens ms)

def itemTokens : List Json → List Token
  | [] => [.closeBracket]
  | v :: vs => .comma :: (tokens v ++ itemTokens vs)

def memberTokens : List (List Char × Json) → List Token
  | [] => [.closeBrace]
  | (name, v) :: ms => .comma :: .string name :: .colon :: (tokens v ++ memberTokens ms)

end

namespace ParseState

theorem run_cons (s : ParseState) (t : Token) (ts : List Token) :
    s.run (t :: ts) = (s.step t).bind fun s => s.run ts := rfl

mutual

/-- Where a value may come, the tokens of a value lead to what may follow it. -/
theorem run_value_tokens (v : Json) (fs : List Frame) (ts : List Token) :
    (ParseState.value fs).run (tokens v ++ ts) = (after fs v).run ts := by
  match v with
  | .null => rfl
  | .bool _ => rfl
  | .number _ => rfl
  | .string _ => rfl
  | .array [] => rfl
  | .array (v :: vs) =>
    have first : (ParseState.value fs).run (tokens (.array (v :: vs)) ++ ts) =
        (ParseState.value (.array [] :: fs)).run (tokens v ++ (itemTokens vs ++ ts)) := by
      simp only [tokens, List.cons_append, List.append_assoc, run_cons, step, startValue]
      exact run_firstItem_tokens v fs _
    rw [first, run_value_tokens v, run_after_itemTokens vs [] v fs ts]
    rfl
  | .object [] => rfl
  | .object ((name, v) :: ms) =>
    have first : (ParseState.value fs).run (tokens (.object ((name, v) :: ms)) ++ ts) =
        (ParseState.value (.object [] name :: fs)).run (tokens v ++ (memberTokens ms ++ ts)) := by
      simp [tokens, run_cons, step, startValue]
    rw [first, run_value_tokens v, run_after_memberTokens ms [] name v fs ts]
    rfl

theorem run_firstItem_tokens (v : Json) (fs : List Frame) (ts : List Token) :
    (firstItem fs).run (tokens v ++ ts) = (ParseState.value (.array [] :: fs)).run (tokens v ++ ts) := by
  match v with
  | .null => rfl
  | .bool _ => rfl
  | .number _ => rfl
  | .string _ => rfl
  | .array [] => rfl
  | .array (_ :: _) => simp [tokens, run_cons, step, startValue]
  | .object [] => rfl
  | .object (_ :: _) => simp [tokens, run_cons, step, startValue]

theorem run_after_itemTokens (vs : List Json) (items : List Json) (v : Json) (fs : List Frame)
    (ts : List Token) : (after (.array items :: fs) v).run (itemTokens vs ++ ts) =
      (after fs (.array (items.reverse ++ v :: vs))).run ts := by
  match vs with
  | [] => simp [itemTokens, run_cons, step]
  | w :: ws =>
    have next : (after (.array items :: fs) v).run (itemTokens (w :: ws) ++ ts) =
        (ParseState.value (.array (v :: items) :: fs)).run (tokens w ++ (itemTokens ws ++ ts)) := by
      simp [itemTokens, run_cons, step]
    rw [next, run_value_tokens w, run_after_itemTokens ws (v :: items) w fs ts]
    simp

theorem run_after_memberTokens (ms members : List (List Char × Json)) (name : List Char) (v : Json)
    (fs : List Frame) (ts : List Token) :
    (after (.object members name :: fs) v).run (memberTokens ms ++ ts) =
      (after fs (.object (members.reverse ++ (name, v) :: ms))).run ts := by
  match ms with
  | [] => simp [memberTokens, run_cons, step]
  | (n, w) :: ws =>
    have next : (after (.object members name :: fs) v).run (memberTokens ((n, w) :: ws) ++ ts) =
        (ParseState.value (.object ((name, v) :: members) n :: fs)).run
          (tokens w ++ (memberTokens ws ++ ts)) := by
      simp [memberTokens, run_cons, step]
    rw [next, run_value_tokens w, run_after_memberTokens ws ((name, v) :: members) n w fs ts]
    simp

end

end ParseState

theorem ofTokens?_tokens (v : Json) : ofTokens? (tokens v) = some v := by
  have h := ParseState.run_value_tokens v [] []
  rw [List.append_nil] at h
  rw [ofTokens?, h]
  rfl

end AvbEntity.Json
