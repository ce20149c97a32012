import AvbEntity.Proofs.Strings.Selection

namespace AvbEntity

structure StringsReading where
  configuration : UInt16
  index : UInt16
  descriptor : StringsStatic

namespace StringsReading

def toOperation (reading : StringsReading) : Operation :=
  .setStrings reading.configuration reading.index reading.descriptor

def text? (configuration base offset : UInt16) (number : Nat) (reading : StringsReading) : Option String :=
  if reading.configuration = configuration ∧ reading.index.toNat = base.toNat + offset.toNat
  then reading.descriptor.strings[number]? else none

def lastText? (readings : List StringsReading) (configuration base offset : UInt16) (number : Nat) :
    Option String :=
  (readings.filterMap (text? configuration base offset number)).getLast?

theorem lastText?_concat (readings : List StringsReading) (reading : StringsReading)
    (configuration base offset : UInt16) (number : Nat) :
    lastText? (readings ++ [reading]) configuration base offset number =
      (reading.text? configuration base offset number).or
        (lastText? readings configuration base offset number) := by
  unfold lastText?
  cases found : reading.text? configuration base offset number with
  | none => simp [found]
  | some text => simp [found]

end StringsReading

namespace RemoteEntity

open StringsReading

def reading (e : RemoteEntity) (readings : List StringsReading) : RemoteEntity :=
  e.run (readings.map StringsReading.toOperation)

theorem reading_concat (e : RemoteEntity) (readings : List StringsReading) (last : StringsReading) :
    e.reading (readings ++ [last]) = (e.reading readings).apply last.toOperation := by
  rw [reading, List.map_append, List.map_singleton, run_concat, reading]

theorem configuration_apply_reading (e : RemoteEntity) (reading : StringsReading) (i : UInt16) :
    (e.apply reading.toOperation).model.configuration i =
      if i = reading.configuration
      then (StringsChange.learn reading.index reading.descriptor).apply (e.model.configuration i)
      else e.model.configuration i := by
  rw [toOperation, model_apply_setStrings, EntityModel.configuration_modifyConfiguration]
  split
  next same => rw [same]
  next => rfl

theorem range_reading (e : RemoteEntity) (readings : List StringsReading) (i : UInt16) :
    ((e.reading readings).model.configuration i).dynamic.localeBase =
        (e.model.configuration i).dynamic.localeBase ∧
      ((e.reading readings).model.configuration i).dynamic.localeCount =
        (e.model.configuration i).dynamic.localeCount := by
  induction readings using List.reverseRecOn with
  | nil => exact ⟨rfl, rfl⟩
  | append_singleton readings last ih =>
    rw [reading_concat, configuration_apply_reading]
    split
    · obtain ⟨base, count⟩ := ih
      exact ⟨(localeBase_localizeEdit ..).trans base, (localeCount_localizeEdit ..).trans count⟩
    · exact ih

/-- What the readings write under a reference: the string of that number, if the reference leads into the
selected range and there is room for the number. -/
def written? (m : ConfigurationModel) (i : UInt16) (r : StringReference) (readings : List StringsReading) :
    Option String :=
  if r.offset < m.dynamic.localeCount ∧ r.index.toNat < 7
  then lastText? readings i m.dynamic.localeBase r.offset r.index.toNat else none

theorem written?_singleton (m : ConfigurationModel) (i : UInt16) (r : StringReference)
    (reading : StringsReading) :
    written? m i r [reading] = if r.offset < m.dynamic.localeCount ∧ r.index.toNat < 7
      then reading.text? i m.dynamic.localeBase r.offset r.index.toNat else none := by
  have single := lastText?_concat [] reading i m.dynamic.localeBase r.offset r.index.toNat
  rw [written?, ← List.nil_append [reading], single]
  simp [lastText?]

theorem get?_table_apply_reading (e : RemoteEntity) (last : StringsReading) (i : UInt16)
    (r : StringReference) :
    ((e.apply last.toOperation).model.configuration i).dynamic.localizedStrings.get? r.globalOffset =
      (written? (e.model.configuration i) i r [last]).or
        ((e.model.configuration i).dynamic.localizedStrings.get? r.globalOffset) := by
  rw [configuration_apply_reading, written?_singleton, text?]
  by_cases here : i = last.configuration
  · rw [if_pos here, StringsChange.get?_table_learn]
    split
    · rename_i written
      obtain ⟨⟨selected, sum⟩, room, enough⟩ := written
      rw [if_pos ⟨selected, room⟩, if_pos ⟨here.symm, sum⟩, List.getElem?_eq_getElem enough]
      rfl
    · rename_i unwritten
      split
      · rename_i reached
        split
        · rename_i own
          have short : last.descriptor.strings.length ≤ r.index.toNat := by
            by_contra enough
            exact unwritten ⟨⟨reached.1, own.2⟩, reached.2, Nat.lt_of_not_le enough⟩
          rw [List.getElem?_eq_none short, Option.none_or]
        · rw [Option.none_or]
      · rw [Option.none_or]
  · have elsewhere : ∀ sum : Prop, ¬ (last.configuration = i ∧ sum) := fun _ given => here given.1.symm
    rw [if_neg here, if_neg (elsewhere _), ite_self, Option.none_or]

/-- After any readings the table has under a reference what the last of them has written there, or else
what stood there before. -/
theorem get?_table_reading (e : RemoteEntity) (readings : List StringsReading) (i : UInt16)
    (r : StringReference) :
    ((e.reading readings).model.configuration i).dynamic.localizedStrings.get? r.globalOffset =
      (written? (e.model.configuration i) i r readings).or
        ((e.model.configuration i).dynamic.localizedStrings.get? r.globalOffset) := by
  induction readings using List.reverseRecOn with
  | nil => simp [written?, lastText?, reading, run]
  | append_singleton readings last ih =>
    obtain ⟨base, count⟩ := range_reading e readings i
    rw [reading_concat, get?_table_apply_reading, ih, ← Option.or_assoc]
    congr 1
    simp only [written?, base, count, lastText?_concat]
    split
    · simp [lastText?]
    · rfl

theorem readable_reading (e : RemoteEntity) (readings : List StringsReading) :
    (e.reading readings).isFatal = e.isFatal ∧ (e.reading readings).identity = e.identity := by
  induction readings using List.reverseRecOn with
  | nil => exact ⟨rfl, rfl⟩
  | append_singleton readings last ih =>
    rw [reading_concat]
    exact ih

/-- A readable entity whose configuration has no localized strings yet gives out, after a range is selected
and STRINGS descriptors are read, exactly the strings of the last readings: under a reference to an offset
below the count and one of the first seven numbers the string that the last reading of that descriptor with
as many strings has, under every other one none. Different references are different keys of the table. -/
theorem localized_under_selection (e : RemoteEntity) (sound : e.isFatal = false)
    (aem : e.identity.supportsAem = true) (i base count : UInt16)
    (unlocalized : ∀ m, e.model.configurations.get? i = some m → m.dynamic.localizedStrings = ∅)
    (readings : List StringsReading) :
    let final := (e.apply (.selectLocale i base count)).reading readings
    (∀ (offset : UInt16) (number : UInt8), offset.toNat ≤ 0x1FFF → number.toNat ≤ 7 →
      final.localizedString i (.ofParts offset number) =
        if offset < count ∧ number.toNat < 7
        then (lastText? readings i base offset number.toNat).getD "" else "") ∧
      final.localizedString i .null = "" ∧
      ∀ (offset other : UInt16) (number another : UInt8), offset.toNat ≤ 0x1FFF → other.toNat ≤ 0x1FFF →
        number.toNat ≤ 7 → another.toNat ≤ 7 →
        (StringReference.ofParts offset number).globalOffset =
          (StringReference.ofParts other another).globalOffset → offset = other ∧ number = another := by
  intro final
  obtain ⟨sameFatal, sameIdentity⟩ := readable_reading (e.apply (.selectLocale i base count)) readings
  have soundFinal : final.isFatal = false := sameFatal.trans sound
  have aemFinal : final.identity.supportsAem = true :=
    (congrArg EntityIdentity.supportsAem sameIdentity).trans aem
  have selected : (e.apply (.selectLocale i base count)).model.configuration i =
      (StringsChange.select base count).apply (e.model.configuration i) :=
    (e.model.configuration_modifyConfiguration i i _).trans (if_pos rfl)
  have nothing : (e.model.configuration i).dynamic.localizedStrings = ∅ := by
    unfold EntityModel.configuration SortedMap.getD
    cases present : e.model.configurations.get? i with
    | none => rfl
    | some m => exact unlocalized m present
  have text : ∀ r ≠ StringReference.null, final.localizedString i r =
      (written? ((StringsChange.select base count).apply (e.model.configuration i)) i r readings).getD "" := by
    intro r notNull
    have table := get?_table_reading (e.apply (.selectLocale i base count)) readings i r
    rw [selected] at table
    have empty : ((StringsChange.select base count).apply
        (e.model.configuration i)).dynamic.localizedStrings.get? r.globalOffset = none :=
      congrArg (fun strings => strings.get? r.globalOffset) nothing
    rw [empty, Option.or_none] at table
    rw [localizedString_of_readable soundFinal aemFinal, if_neg notNull, SortedMap.getD, table]
  have null : final.localizedString i .null = "" := by
    rw [localizedString_of_readable soundFinal aemFinal, if_pos rfl]
  refine ⟨?_, null, ?_⟩
  · intro offset number inOffset inNumber
    obtain ⟨offset_eq, index_eq⟩ :=
      (StringReference.eq_ofParts_iff inOffset (Nat.lt_succ_of_le inNumber)).mp rfl
    by_cases isNull : StringReference.ofParts offset number = .null
    · -- the null reference has the number that no string of a descriptor has
      have last : number.toNat = 7 := by
        rw [← index_eq, isNull]
        rfl
      rw [isNull, null, if_neg fun given => by omega]
    · rw [text _ isNull, written?, offset_eq, index_eq]
      exact apply_ite (fun found => Option.getD found "") ..
  · intro offset other number another inOffset inOther inNumber inAnother same
    rw [StringReference.globalOffset_eq, StringReference.globalOffset_eq] at same
    obtain ⟨offset_eq, index_eq⟩ :=
      (StringReference.eq_ofParts_iff inOffset (Nat.lt_succ_of_le inNumber)).mp rfl
    obtain ⟨sameOffset, sameIndex⟩ :=
      (StringReference.eq_ofParts_iff inOther (Nat.lt_succ_of_le inAnother)).mp same
    exact ⟨offset_eq.symm.trans sameOffset, UInt8.toNat_inj.mp (index_eq.symm.trans sameIndex)⟩

def readingsAtEnd : List StringsReading :=
  [⟨0, 65534, { strings := ["Input", "Output"] }⟩, ⟨1, 65534, { strings := ["Clock"] }⟩,
    ⟨0, 0, { strings := ["Port"] }⟩, ⟨0, 65534, { strings := ["Source"] }⟩]

theorem last_readings_are_given_out :
    let found := new { capabilities := .aemSupported } {} .zero
    let final := (found.apply (.selectLocale 0 65534 4)).reading readingsAtEnd
    found.isFatal = false ∧ found.identity.supportsAem = true ∧
      (∀ m, found.model.configurations.get? 0 = some m → m.dynamic.localizedStrings = ∅) ∧
      (2 : UInt16).toNat ≤ 0x1FFF ∧ (1 : UInt8).toNat ≤ 7 ∧
      final.localizedString 0 (.ofParts 0 0) = "Source" ∧
      final.localizedString 0 (.ofParts 0 1) = "Output" ∧ final.localizedString 0 (.ofParts 2 0) = "" := by
  intro found final
  have unlocalized : ∀ m, found.model.configurations.get? 0 = some m →
      m.dynamic.localizedStrings = ∅ := nofun
  have aem : found.identity.supportsAem = true := by decide
  obtain ⟨texts, -, -⟩ := localized_under_selection found rfl aem 0 65534 4 unlocalized readingsAtEnd
  refine ⟨rfl, aem, unlocalized, by decide, by decide, ?_, ?_, ?_⟩
  · exact (texts 0 0 (by decide) (by decide)).trans (by decide)
  · exact (texts 0 1 (by decide) (by decide)).trans (by decide)
  · exact (texts 2 0 (by decide) (by decide)).trans (by decide)

end RemoteEntity

end AvbEntity
