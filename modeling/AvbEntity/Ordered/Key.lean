namespace AvbEntity

/-- Keys that a natural number tells apart and puts in order. -/
class OrderedKey (κ : Type) where
  rank : κ → Nat
  rank_injective : ∀ a b, rank a = rank b → a = b

namespace OrderedKey

theorem rank_inj {κ : Type} [OrderedKey κ] {a b : κ} : rank a = rank b ↔ a = b :=
  ⟨rank_injective a b, fun h => h ▸ rfl⟩

theorem eq_of_ascending {α : Type} {number : α → Nat} {l r : List α}
    (left : l.Pairwise fun a b => number a < number b)
    (right : r.Pairwise fun a b => number a < number b) (same : ∀ a, a ∈ l ↔ a ∈ r) : l = r := by
  induction l generalizing r with
  | nil =>
    cases r with
    | nil => rfl
    | cons b r => exact absurd ((same b).mpr List.mem_cons_self) List.not_mem_nil
  | cons a l ih =>
    cases r with
    | nil => exact absurd ((same a).mp List.mem_cons_self) List.not_mem_nil
    | cons b r =>
      have aboveA := List.pairwise_cons.mp left
      have aboveB := List.pairwise_cons.mp right
      -- each head is the other one, or stands in the other's rest and so above it
      have heads : a = b := by
        rcases List.mem_cons.mp ((same a).mp List.mem_cons_self) with equal | later
        · exact equal
        · rcases List.mem_cons.mp ((same b).mpr List.mem_cons_self) with equal | earlier
          · exact equal.symm
          · exact absurd (Nat.lt_trans (aboveB.1 _ later) (aboveA.1 _ earlier)) (Nat.lt_irrefl _)
      subst heads
      congr 1
      apply ih aboveA.2 aboveB.2
      intro e
      constructor
      · intro member
        rcases List.mem_cons.mp ((same e).mp (List.mem_cons_of_mem _ member)) with rfl | rest
        · exact absurd (aboveA.1 _ member) (Nat.lt_irrefl _)
        · exact rest
      · intro member
        rcases List.mem_cons.mp ((same e).mpr (List.mem_cons_of_mem _ member)) with rfl | rest
        · exact absurd (aboveB.1 _ member) (Nat.lt_irrefl _)
        · exact rest

instance : OrderedKey UInt16 where
  rank := UInt16.toNat
  rank_injective _ _ := UInt16.toNat_inj.mp

instance : OrderedKey UInt32 where
  rank := UInt32.toNat
  rank_injective _ _ := UInt32.toNat_inj.mp

instance : OrderedKey UInt64 where
  rank := UInt64.toNat
  rank_injective _ _ := UInt64.toNat_inj.mp

end OrderedKey

end AvbEntity
