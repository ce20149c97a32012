import AvbEntity.Proofs.Model.Edit
import AvbEntity.Proofs.Query.Packing

namespace AvbEntity

namespace StringReference

theorem toNat_offset (r : StringReference) : r.offset.toNat = r.raw.toNat / 8 := by
  have shift : r.offset.toNat = r.raw.toNat >>> 3 := UInt16.toNat_shiftRight ..
  rw [shift, Nat.shiftRight_eq_div_pow]

theorem toNat_index (r : StringReference) : r.index.toNat = r.raw.toNat % 8 := by
  have mask : r.index.toNat = r.raw.toNat &&& 7 := UInt16.toNat_and ..
  rw [mask]
  exact Nat.and_two_pow_sub_one_eq_mod r.raw.toNat 3

theorem offset_le (r : StringReference) : r.offset.toNat ≤ 8191 := by
  have bound := r.raw.toNat_lt
  rw [toNat_offset]
  omega

theorem toNat_shiftLeft_three {offset : UInt16} (bound : offset.toNat ≤ 8191) :
    (offset <<< 3).toNat = offset.toNat <<< 3 := by
  have fits : offset.toNat <<< 3 < 2 ^ 16 := by
    rw [Nat.shiftLeft_eq]
    omega
  simp only [UInt16.toNat_shiftLeft, UInt16.reduceToNat, Nat.reduceMod]
  exact Nat.mod_eq_of_lt fits

@[simp] theorem globalOffset_eq (r : StringReference) : r.globalOffset = r.raw := by
  have bound := r.raw.toNat_lt
  apply UInt16.toNat_inj.mp
  rw [globalOffset, UInt16.toNat_add, toNat_shiftLeft_three r.offset_le, Nat.shiftLeft_eq,
    toNat_offset, toNat_index]
  omega

theorem toNat_raw_ofParts {offset : UInt16} {index : UInt8} (inOffset : offset.toNat ≤ 8191)
    (inIndex : index.toNat < 8) : (ofParts offset index).raw.toNat = offset.toNat * 8 + index.toNat := by
  have mask : (index.toUInt16 &&& 7).toNat = index.toNat := by
    rw [UInt16.toNat_and, UInt8.toNat_toUInt16]
    exact (Nat.and_two_pow_sub_one_eq_mod index.toNat 3).trans (Nat.mod_eq_of_lt inIndex)
  rw [ofParts, UInt16.toNat_or, toNat_shiftLeft_three inOffset, mask]
  exact shifted_or_eq_add _ _ 3 inIndex

theorem eq_ofParts_iff {r : StringReference} {offset : UInt16} {index : UInt8}
    (inOffset : offset.toNat ≤ 8191) (inIndex : index.toNat < 8) :
    r.raw = (ofParts offset index).raw ↔ r.offset = offset ∧ r.index.toNat = index.toNat := by
  rw [← UInt16.toNat_inj, toNat_raw_ofParts inOffset inIndex, ← UInt16.toNat_inj, toNat_offset,
    toNat_index]
  omega

end StringReference

theorem ConfigurationDynamic.eq_of_table {a b : ConfigurationDynamic}
    (own : ({ a with localizedStrings := ∅ } : ConfigurationDynamic) = { b with localizedStrings := ∅ })
    (table : a.localizedStrings = b.localizedStrings) : a = b := by
  cases a
  cases b
  simp only [ConfigurationDynamic.mk.injEq] at own table ⊢
  exact ⟨own.1, own.2.1, own.2.2.1, own.2.2.2.1, table⟩

namespace RemoteEntity

theorem mem_zip_range {n i : Nat} {a : String} {l : List String} :
    (i, a) ∈ (List.range n).zip l ↔ i < n ∧ l[i]? = some a := by
  have number : ∀ j, (List.range n)[j]? = some i ↔ j < n ∧ j = i := by
    intro j
    simp [List.getElem?_eq_some_iff]
  rw [List.mem_iff_getElem?]
  simp only [List.getElem?_zip_eq_some, number]
  constructor
  · rintro ⟨j, ⟨small, rfl⟩, found⟩
    exact ⟨small, found⟩
  · rintro ⟨small, found⟩
    exact ⟨i, ⟨small, rfl⟩, found⟩

theorem pairwise_zip_range (n : Nat) (l : List String) :
    ((List.range n).zip l).Pairwise fun d e => d.1 < e.1 := by
  rw [List.pairwise_iff_getElem]
  intro i j hi hj order
  simpa only [List.getElem_zip, List.getElem_range] using order

theorem get?_localize {offset : UInt16} (bound : offset.toNat ≤ 8191) (strings : List String)
    (table : SortedMap UInt16 String) (r : StringReference) :
    (localize offset strings table).get? r.raw =
      if r.offset = offset ∧ r.index.toNat < 7 ∧ r.index.toNat < strings.length
      then strings[r.index.toNat]? else table.get? r.raw := by
  have key : ∀ i < 7, ∀ s : StringReference,
      s.raw = (StringReference.ofParts offset (UInt8.ofNat i)).globalOffset ↔
        s.offset = offset ∧ s.index.toNat = i := by
    intro i small s
    have exact : (UInt8.ofNat i).toNat = i := UInt8.toNat_ofNat_of_lt (Nat.lt_trans small (by decide))
    rw [StringReference.globalOffset_eq, StringReference.eq_ofParts_iff bound (by omega), exact]
  by_cases written : r.offset = offset ∧ r.index.toNat < 7 ∧ r.index.toNat < strings.length
  · obtain ⟨here, slot, enough⟩ := written
    rw [if_pos ⟨here, slot, enough⟩, List.getElem?_eq_getElem enough]
    apply SortedMap.get?_insertAll_of_mem
    · refine List.pairwise_map.mpr ((pairwise_zip_range 7 strings).imp_of_mem ?_)
      rintro ⟨i, s⟩ ⟨j, t⟩ first second order same
      have own := (key j (mem_zip_range.mp second).1 (StringReference.ofParts offset (UInt8.ofNat j))).mp
        (StringReference.globalOffset_eq _).symm
      have other := (key i (mem_zip_range.mp first).1 (StringReference.ofParts offset (UInt8.ofNat j))).mp
        ((StringReference.globalOffset_eq _).symm.trans same.symm)
      exact absurd (other.2.symm.trans own.2) (Nat.ne_of_lt order)
    · refine List.mem_map.mpr ⟨(r.index.toNat, strings[r.index.toNat]), ?_, ?_⟩
      · exact mem_zip_range.mpr ⟨slot, List.getElem?_eq_getElem enough⟩
      · rw [Prod.mk.injEq]
        exact ⟨((key _ slot r).mpr ⟨here, rfl⟩).symm, rfl⟩
  · rw [if_neg written]
    apply SortedMap.get?_insertAll_of_not_mem
    intro e member same
    obtain ⟨⟨i, s⟩, inside, rfl⟩ := List.mem_map.mp member
    obtain ⟨small, found⟩ := mem_zip_range.mp inside
    obtain ⟨here, number⟩ := (key i small r).mp same.symm
    obtain ⟨enough, -⟩ := List.getElem?_eq_some_iff.mp found
    exact written ⟨here, by omega, by omega⟩

theorem localizeEdit_own (index : UInt16) (d : StringsStatic) (m : ConfigurationDynamic) :
    ({ localizeEdit index d m with localizedStrings := ∅ } : ConfigurationDynamic) =
      { m with localizedStrings := ∅ } := by
  unfold localizeEdit
  split <;> rfl

@[simp] theorem localeBase_localizeEdit (index : UInt16) (d : StringsStatic) (m : ConfigurationDynamic) :
    (localizeEdit index d m).localeBase = m.localeBase := by
  unfold localizeEdit
  split <;> rfl

@[simp] theorem localeCount_localizeEdit (index : UInt16) (d : StringsStatic) (m : ConfigurationDynamic) :
    (localizeEdit index d m).localeCount = m.localeCount := by
  unfold localizeEdit
  split <;> rfl

/-- A descriptor is written at the references that lead to it from the start of the selected locale, and
only if it is one of those of the locale. -/
theorem get?_localizeEdit (index : UInt16) (d : StringsStatic) (m : ConfigurationDynamic)
    (r : StringReference) :
    (localizeEdit index d m).localizedStrings.get? r.raw =
      if (r.offset < m.localeCount ∧ index.toNat = m.localeBase.toNat + r.offset.toNat) ∧
        r.index.toNat < 7 ∧ r.index.toNat < d.strings.length
      then d.strings[r.index.toNat]? else m.localizedStrings.get? r.raw := by
  have bound := r.offset_le
  unfold localizeEdit
  split
  · rename_i outside
    rw [if_neg]
    rintro ⟨⟨selected, sum⟩, -⟩
    have start : m.localeBase ≤ index := UInt16.le_iff_toNat_le.mpr (by omega)
    have difference : index - m.localeBase = r.offset := by
      apply UInt16.toNat_inj.mp
      rw [UInt16.toNat_sub_of_le _ _ start]
      omega
    rw [difference] at outside
    simp only [← UInt16.toNat_inj, UInt16.lt_iff_toNat_lt, UInt16.le_iff_toNat_le,
      StringReference.maxOffset, UInt16.reduceToNat] at outside selected
    omega
  · rename_i inside
    simp only [not_or, UInt16.not_lt, UInt16.not_le] at inside
    obtain ⟨-, start, selected, reach⟩ := inside
    have difference : (index - m.localeBase).toNat = index.toNat - m.localeBase.toNat :=
      UInt16.toNat_sub_of_le _ _ start
    have fits : (index - m.localeBase).toNat ≤ 8191 := UInt16.le_iff_toNat_le.mp reach
    have lead : r.offset = index - m.localeBase ↔
        r.offset < m.localeCount ∧ index.toNat = m.localeBase.toNat + r.offset.toNat := by
      constructor
      · intro same
        have sum := congrArg UInt16.toNat same
        have order := UInt16.le_iff_toNat_le.mp start
        exact ⟨same ▸ selected, by omega⟩
      · rintro ⟨-, sum⟩
        exact UInt16.toNat_inj.mp (by omega)
    rw [get?_localize fits]
    simp only [lead]

theorem localizeEdit_comm {i j : UInt16} (different : i ≠ j) (d d' : StringsStatic)
    (m : ConfigurationDynamic) :
    localizeEdit i d (localizeEdit j d' m) = localizeEdit j d' (localizeEdit i d m) := by
  apply ConfigurationDynamic.eq_of_table
  · rw [localizeEdit_own, localizeEdit_own, localizeEdit_own, localizeEdit_own]
  · apply SortedMap.ext_get?
    intro k
    have iAfter := get?_localizeEdit i d (localizeEdit j d' m) ⟨k⟩
    have jAfter := get?_localizeEdit j d' (localizeEdit i d m) ⟨k⟩
    rw [localeBase_localizeEdit, localeCount_localizeEdit] at iAfter jAfter
    refine iAfter.trans (Eq.trans ?_ jAfter.symm)
    rw [get?_localizeEdit, get?_localizeEdit]
    by_cases writtenByI : i.toNat = m.localeBase.toNat + (⟨k⟩ : StringReference).offset.toNat
    · have notByJ : j.toNat ≠ m.localeBase.toNat + (⟨k⟩ : StringReference).offset.toNat := fun sum =>
        different (UInt16.toNat_inj.mp (writtenByI.trans sum.symm))
      simp only [notByJ, and_false, false_and, if_false]
    · simp only [writtenByI, and_false, false_and, if_false]

end RemoteEntity

end AvbEntity
