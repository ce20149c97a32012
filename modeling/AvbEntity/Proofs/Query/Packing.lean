import AvbEntity.Query.Table
import Mathlib.Algebra.Group.Nat.Defs

namespace AvbEntity

theorem shifted_or_eq_add (high low width : Nat) (bound : low < 2 ^ width) :
    (high <<< width) ||| low = high * 2 ^ width + low := by
  rw [← Nat.shiftLeft_add_eq_or_of_lt bound, Nat.shiftLeft_eq]

theorem DescriptorKey.toNat_of (type : DescriptorType) (index : UInt16) :
    (of type index).packed.toNat = type.code.toNat * 2 ^ 16 + index.toNat := by
  have code := type.code.toNat_lt
  have fits : type.code.toNat <<< 16 < 2 ^ 32 := by
    rw [Nat.shiftLeft_eq]
    omega
  simp only [of, UInt32.toNat_or, UInt32.toNat_shiftLeft, UInt16.toNat_toUInt32, UInt32.reduceToNat,
    Nat.reduceMod]
  rw [Nat.mod_eq_of_lt fits]
  exact shifted_or_eq_add _ _ 16 index.toNat_lt

theorem DescriptorKey.of_injective {s t : DescriptorType} {i j : UInt16} (h : of s i = of t j) :
    s = t ∧ i = j := by
  have sum := congrArg (fun k => k.packed.toNat) h
  simp only [toNat_of] at sum
  have hi := i.toNat_lt
  have hj := j.toNat_lt
  have types : s.code.toNat = t.code.toNat := by omega
  have indices : i.toNat = j.toNat := by omega
  exact ⟨DescriptorType.code_injective (UInt16.toNat_inj.mp types), UInt16.toNat_inj.mp indices⟩

theorem DynamicQueryKey.toNat_of (query : DynamicQuery) (index sub : UInt16) :
    (of query index sub).packed.toNat =
      query.code.toNat * 2 ^ 32 + index.toNat * 2 ^ 16 + sub.toNat := by
  have code := query.code.toNat_lt
  have hi := index.toNat_lt
  have hs := sub.toNat_lt
  have fits : query.code.toNat <<< 32 < 2 ^ 64 := by
    rw [Nat.shiftLeft_eq]
    omega
  have indexFits : index.toNat <<< 16 < 2 ^ 64 := by
    rw [Nat.shiftLeft_eq]
    omega
  have low : index.toNat <<< 16 ||| sub.toNat = index.toNat * 2 ^ 16 + sub.toNat :=
    shifted_or_eq_add _ _ 16 hs
  simp only [of, UInt64.toNat_or, UInt64.toNat_shiftLeft, UInt16.toNat_toUInt64, UInt64.reduceToNat,
    Nat.reduceMod]
  rw [Nat.mod_eq_of_lt fits, Nat.mod_eq_of_lt indexFits, Nat.or_assoc, low,
    shifted_or_eq_add _ _ 32 (by omega), Nat.add_assoc]

theorem DynamicQueryKey.of_injective {p q : DynamicQuery} {i j s t : UInt16}
    (h : of p i s = of q j t) : p = q ∧ i = j ∧ s = t := by
  have sum := congrArg (fun k => k.packed.toNat) h
  simp only [toNat_of] at sum
  have hi := i.toNat_lt
  have hj := j.toNat_lt
  have hs := s.toNat_lt
  have ht := t.toNat_lt
  have queries : p.code.toNat = q.code.toNat := by omega
  have indices : i.toNat = j.toNat := by omega
  have subs : s.toNat = t.toNat := by omega
  exact ⟨DynamicQuery.code_injective (UInt16.toNat_inj.mp queries), UInt16.toNat_inj.mp indices,
    UInt16.toNat_inj.mp subs⟩

theorem DescriptorQueryKey.toNat_of (query : DescriptorQuery) (index : UInt16) :
    (of query index).packed.toNat = query.code.toNat * 2 ^ 16 + index.toNat := by
  have code := query.code.toNat_lt
  have fits : query.code.toNat <<< 16 < 2 ^ 64 := by
    rw [Nat.shiftLeft_eq]
    omega
  simp only [of, UInt64.toNat_or, UInt64.toNat_shiftLeft, UInt16.toNat_toUInt64, UInt64.reduceToNat,
    Nat.reduceMod]
  rw [Nat.mod_eq_of_lt fits]
  exact shifted_or_eq_add _ _ 16 index.toNat_lt

theorem DescriptorQueryKey.of_injective {p q : DescriptorQuery} {i j : UInt16}
    (h : of p i = of q j) : p = q ∧ i = j := by
  have sum := congrArg (fun k => k.packed.toNat) h
  simp only [toNat_of] at sum
  have hi := i.toNat_lt
  have hj := j.toNat_lt
  have queries : p.code.toNat = q.code.toNat := by omega
  have indices : i.toNat = j.toNat := by omega
  exact ⟨DescriptorQuery.code_injective (UInt16.toNat_inj.mp queries), UInt16.toNat_inj.mp indices⟩

theorem QueryKind.pack_injective (k : QueryKind) {p q : k.Question} (h : k.pack p = k.pack q) :
    p = q := by
  cases k with
  | registerUnsolicited => rfl
  | milanInfo => exact h
  | descriptor =>
    obtain ⟨configuration, key⟩ := Prod.mk.inj h
    obtain ⟨type, index⟩ := DescriptorKey.of_injective key
    exact Prod.ext configuration (Prod.ext type index)
  | dynamicInfo =>
    obtain ⟨configuration, key⟩ := Prod.mk.inj h
    obtain ⟨query, index, sub⟩ := DynamicQueryKey.of_injective key
    exact Prod.ext configuration (Prod.ext query (Prod.ext index sub))
  | descriptorInfo =>
    obtain ⟨configuration, key⟩ := Prod.mk.inj h
    obtain ⟨query, index⟩ := DescriptorQueryKey.of_injective key
    exact Prod.ext configuration (Prod.ext query index)

end AvbEntity
