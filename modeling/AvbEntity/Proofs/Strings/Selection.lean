import AvbEntity.Proofs.Entity.Fatal
import AvbEntity.Proofs.Strings.Table
import Mathlib.Data.List.Induction

namespace AvbEntity

namespace ConfigurationModel

def Tells (m : ConfigurationModel) (r : StringReference) (text : String) : Prop :=
  r ≠ .null ∧ text ≠ "" ∧ m.dynamic.localizedStrings.get? r.globalOffset = some text

def HasText (m : ConfigurationModel) (base count : UInt16) (r : StringReference) (text : String) : Prop :=
  r.offset < count ∧ ∃ index n, index.toNat = base.toNat + r.offset.toNat ∧
    (m.models .strings).get? index = some n ∧ n.static.strings[r.index.toNat]? = some text

def InStep (m : ConfigurationModel) : Prop :=
  ∀ r text, m.Tells r text → m.HasText m.dynamic.localeBase m.dynamic.localeCount r text

def Slotted (m : ConfigurationModel) : Prop := ∀ r text, m.Tells r text → r.index.toNat < 7

theorem not_tells_default (r : StringReference) (text : String) :
    ¬ (default : ConfigurationModel).Tells r text := by
  rintro ⟨-, -, told⟩
  cases told

theorem inStep_default : (default : ConfigurationModel).InStep :=
  fun r text told => absurd told (not_tells_default r text)

theorem slotted_default : (default : ConfigurationModel).Slotted :=
  fun r text told => absurd told (not_tells_default r text)

structure SameStrings (m n : ConfigurationModel) : Prop where
  base : n.dynamic.localeBase = m.dynamic.localeBase
  count : n.dynamic.localeCount = m.dynamic.localeCount
  table : n.dynamic.localizedStrings = m.dynamic.localizedStrings
  descriptors : n.models .strings = m.models .strings

namespace SameStrings

theorem refl (m : ConfigurationModel) : m.SameStrings m := ⟨rfl, rfl, rfl, rfl⟩

theorem trans {l m n : ConfigurationModel} (first : l.SameStrings m) (second : m.SameStrings n) :
    l.SameStrings n where
  base := second.base.trans first.base
  count := second.count.trans first.count
  table := second.table.trans first.table
  descriptors := second.descriptors.trans first.descriptors

variable {m n : ConfigurationModel} (same : m.SameStrings n)

include same

theorem tells_iff (r : StringReference) (text : String) : n.Tells r text ↔ m.Tells r text := by
  rw [Tells, Tells, same.table]

theorem inStep_iff : n.InStep ↔ m.InStep := by
  simp only [InStep, same.tells_iff, HasText, same.base, same.count, same.descriptors]

theorem slotted_iff : n.Slotted ↔ m.Slotted := by
  simp only [Slotted, same.tells_iff]

end SameStrings

theorem sameStrings_upsert (m : ConfigurationModel) {c : Category} (other : c ≠ .strings) (index : UInt16)
    (f : c.Model → c.Model) : m.SameStrings (m.upsert c index f) where
  base := congrArg ConfigurationDynamic.localeBase (m.dynamic_upsert c index f)
  count := congrArg ConfigurationDynamic.localeCount (m.dynamic_upsert c index f)
  table := congrArg ConfigurationDynamic.localizedStrings (m.dynamic_upsert c index f)
  descriptors := m.models_upsert_ne other.symm index f

end ConfigurationModel

inductive StringsChange where
  | select (base count : UInt16)
  | learn (index : UInt16) (d : StringsStatic)
  | rewrite (index : UInt16) (f : StringsStatic → StringsStatic)

namespace StringsChange

open ConfigurationModel

def apply : StringsChange → ConfigurationModel → ConfigurationModel
  | select base count, m =>
    { m with dynamic := { m.dynamic with localeBase := base, localeCount := count } }
  | learn index d, m =>
    { m.upsert .strings index (Category.learn .strings d) with
      dynamic := RemoteEntity.localizeEdit index d m.dynamic }
  | rewrite index f, m => m.upsert .strings index fun n => { n with static := f n.static }

/-- A change keeps what the table tells: a new range has it as well, a descriptor that is read has at
least the strings that the table has of it, and one that is changed in another way has the same texts for
them. -/
def Keeps (m : ConfigurationModel) : StringsChange → Prop
  | select base count => ∀ r text, m.Tells r text → m.HasText base count r text
  | learn index d => ∀ r text, m.Tells r text →
    index.toNat = m.dynamic.localeBase.toNat + r.offset.toNat → r.index.toNat < d.strings.length
  | rewrite index f => ∀ r text, m.Tells r text →
    index.toNat = m.dynamic.localeBase.toNat + r.offset.toNat →
    (f ((m.models .strings).getD index default).static).strings[r.index.toNat]? = some text

variable {m : ConfigurationModel}

theorem models_rewrite (index : UInt16) (f : StringsStatic → StringsStatic) :
    ((rewrite index f).apply m).models .strings =
      (m.models .strings).upsert index fun n => { n with static := f n.static } :=
  m.models_upsert_self ..

theorem inStep_rewrite_iff (before : m.InStep) (index : UInt16) (f : StringsStatic → StringsStatic) :
    ((rewrite index f).apply m).InStep ↔ (rewrite index f).Keeps m := by
  have self : (((rewrite index f).apply m).models .strings).get? index =
      some { (m.models .strings).getD index default with
        static := f ((m.models .strings).getD index default).static } := by
    rw [models_rewrite, SortedMap.get?_upsert_self]
  constructor
  · intro after r text told leads
    obtain ⟨-, other, n, sum, found, entry⟩ := after r text told
    obtain rfl : other = index := UInt16.toNat_inj.mp (sum.trans leads.symm)
    obtain rfl := Option.some.inj (self.symm.trans found)
    exact entry
  · intro keeps r text told
    obtain ⟨selected, other, n, sum, found, entry⟩ := before r text told
    by_cases same : other = index
    · subst same
      exact ⟨selected, other, _, sum, self, keeps r text told sum⟩
    · refine ⟨selected, other, n, sum, ?_, entry⟩
      rw [models_rewrite, SortedMap.get?_upsert_ne _ same]
      exact found

theorem get?_table_learn (index : UInt16) (d : StringsStatic) (r : StringReference) :
    ((learn index d).apply m).dynamic.localizedStrings.get? r.globalOffset =
      if (r.offset < m.dynamic.localeCount ∧
          index.toNat = m.dynamic.localeBase.toNat + r.offset.toNat) ∧
        r.index.toNat < 7 ∧ r.index.toNat < d.strings.length
      then d.strings[r.index.toNat]? else m.dynamic.localizedStrings.get? r.globalOffset := by
  rw [StringReference.globalOffset_eq]
  exact RemoteEntity.get?_localizeEdit index d m.dynamic r

theorem inStep_learn_iff (before : m.InStep) (slotted : m.Slotted) (index : UInt16) (d : StringsStatic) :
    ((learn index d).apply m).InStep ↔ (learn index d).Keeps m := by
  have self : (((learn index d).apply m).models .strings).get? index =
      some (Category.learn .strings d ((m.models .strings).getD index default)) :=
    SortedMap.get?_upsert_self ..
  have base : ((learn index d).apply m).dynamic.localeBase = m.dynamic.localeBase :=
    RemoteEntity.localeBase_localizeEdit index d m.dynamic
  have count : ((learn index d).apply m).dynamic.localeCount = m.dynamic.localeCount :=
    RemoteEntity.localeCount_localizeEdit index d m.dynamic
  constructor
  · intro after r text told leads
    by_contra short
    -- the string stays in the table, but the descriptor has none of its number
    have stays : ((learn index d).apply m).Tells r text := by
      refine ⟨told.1, told.2.1, ?_⟩
      rw [get?_table_learn, if_neg fun written => short written.2.2]
      exact told.2.2
    obtain ⟨-, other, n, sum, found, entry⟩ := after r text stays
    rw [base] at sum
    obtain rfl : other = index := UInt16.toNat_inj.mp (sum.trans leads.symm)
    obtain rfl := Option.some.inj (self.symm.trans found)
    exact short (List.getElem?_eq_some_iff.mp entry).1
  · intro keeps r text told
    rw [base, count]
    obtain ⟨notNull, notEmpty, held⟩ := told
    rw [get?_table_learn] at held
    split at held
    · rename_i written
      exact ⟨written.1.1, index, _, written.1.2, self, held⟩
    · rename_i unwritten
      have told : m.Tells r text := ⟨notNull, notEmpty, held⟩
      obtain ⟨selected, other, n, sum, found, entry⟩ := before r text told
      have different : other ≠ index := by
        rintro rfl
        exact unwritten ⟨⟨selected, sum⟩, slotted r text told, keeps r text told sum⟩
      exact ⟨selected, other, n, sum, (SortedMap.get?_upsert_ne _ different _).trans found, entry⟩

/-- What the table tells stays in step over a change exactly if the change keeps it. -/
theorem inStep_apply_iff (before : m.InStep) (slotted : m.Slotted) (change : StringsChange) :
    (change.apply m).InStep ↔ change.Keeps m := by
  cases change with
  | select base count => exact Iff.rfl
  | learn index d => exact inStep_learn_iff before slotted index d
  | rewrite index f => exact inStep_rewrite_iff before index f

theorem slotted_apply (slotted : m.Slotted) (change : StringsChange) : (change.apply m).Slotted := by
  cases change with
  | select base count => exact slotted
  | rewrite index f => exact slotted
  | learn index d =>
    rintro r text ⟨notNull, notEmpty, held⟩
    rw [get?_table_learn] at held
    split at held
    · rename_i written
      exact written.2.1
    · exact slotted r text ⟨notNull, notEmpty, held⟩

end StringsChange

namespace EntityModel

theorem sameStrings_modifyConfiguration (t : EntityModel) (i j : UInt16)
    {f : ConfigurationModel → ConfigurationModel}
    (spares : ∀ m : ConfigurationModel, m.SameStrings (f m)) :
    (t.configuration j).SameStrings ((t.modifyConfiguration i f).configuration j) := by
  rw [configuration_modifyConfiguration]
  split
  next same => exact same ▸ spares _
  · exact .refl _

end EntityModel

namespace ModelEdit

def sparesStrings : ModelEdit → Bool
  | .own .. | .activate _ | .describe .. => true
  | .learn p _ | .rewrite p _ | .update p _ => p.category != .strings
  | .replace _ | .adjust .. => false

theorem sameStrings_apply (t : EntityModel) {edit : ModelEdit} (spares : edit.sparesStrings = true)
    (i : UInt16) : (t.configuration i).SameStrings ((edit.apply t).configuration i) := by
  cases edit with
  | replace u => cases spares
  | adjust j f => cases spares
  | own static dynamic => exact .refl _
  | activate j =>
    simp only [EntityModel.configuration, apply, SortedMap.getD, SortedMap.get?_mapEntries]
    cases t.configurations.get? i with
    | none => exact .refl _
    | some m => exact ⟨rfl, rfl, rfl, m.models_withHalves _ _ _⟩
  | describe j d active =>
    exact t.sameStrings_modifyConfiguration j i fun m => ⟨rfl, rfl, rfl, m.models_withHalves _ _ _⟩
  | learn p d | rewrite p f | update p f =>
    have other : p.category ≠ .strings := bne_iff_ne.mp spares
    exact t.sameStrings_modifyConfiguration p.configuration i fun m => m.sameStrings_upsert other _ _

theorem sameStrings_foldl (t : EntityModel) {edits : List ModelEdit}
    (spares : ∀ edit ∈ edits, edit.sparesStrings = true) (i : UInt16) :
    (t.configuration i).SameStrings ((edits.foldl apply t).configuration i) := by
  induction edits generalizing t with
  | nil => exact .refl _
  | cons edit edits ih =>
    have first := sameStrings_apply t (spares edit List.mem_cons_self) i
    exact first.trans (ih (edit.apply t) fun other later => spares other (List.mem_cons_of_mem _ later))

end ModelEdit

namespace Operation

def replacesModel : Operation → Bool
  | .setModel _ | .adopt .. => true
  | _ => false

def stringsChange? : Operation → Option (UInt16 × StringsChange)
  | .selectLocale i base count => some (i, .select base count)
  | .setStrings i index d => some (i, .learn index d)
  | .setDescriptor .strings i index d => some (i, .rewrite index fun _ => d)
  | .modifyStatic .strings i index f => some (i, .rewrite index f)
  | .modifyDynamic .strings i index _ => some (i, .rewrite index fun d => d)
  | _ => none

end Operation

namespace RemoteEntity

theorem sameStrings_apply (e : RemoteEntity) {op : Operation}
    (spares : ∀ edit ∈ e.edits op, edit.sparesStrings = true) (i : UInt16) :
    (e.model.configuration i).SameStrings ((e.apply op).model.configuration i) := by
  rw [model_apply]
  exact ModelEdit.sameStrings_foldl e.model spares i

theorem sparesStrings_edits_update (e : RemoteEntity) {op : Operation} (update : op.isUpdate = true)
    (names : ∀ i name, op ≠ .setConfigurationName i name)
    (selects : ∀ i base count, op ≠ .selectLocale i base count) :
    ∀ edit ∈ e.edits op, edit.sparesStrings = true := by
  rcases e.edits_update_cases update with
    ⟨f, -, made⟩ | ⟨i, rfl⟩ | ⟨i, name, rfl⟩ | ⟨i, base, count, rfl⟩ | ⟨c, i, index, f, other, made⟩
  · simp [made, ModelEdit.sparesStrings]
  · simp [edits, ModelEdit.sparesStrings]
  · exact absurd rfl (names i name)
  · exact absurd rfl (selects i base count)
  · simpa [made, ModelEdit.sparesStrings] using other

theorem model_apply_setStrings (e : RemoteEntity) (i index : UInt16) (d : StringsStatic) :
    (e.apply (.setStrings i index d)).model =
      e.model.modifyConfiguration i (StringsChange.learn index d).apply := by
  rw [RemoteEntity.apply, setStrings_eq]
  rfl

/-- All that an operation does to the strings of configurations, if it does not take over a model: it makes
its change in one configuration, or it changes none, or it drops a whole model. -/
theorem strings_apply_cases (e : RemoteEntity) {op : Operation} (keepsModel : op.replacesModel = false) :
    (∃ i change, op.stringsChange? = some (i, change) ∧
        (e.apply op).model = e.model.modifyConfiguration i change.apply) ∨
      (op.stringsChange? = none ∧ ∀ i,
        (e.model.configuration i).SameStrings ((e.apply op).model.configuration i) ∨
          (e.apply op).model.configuration i = default) := by
  have spared : op.stringsChange? = none → (∀ edit ∈ e.edits op, edit.sparesStrings = true) →
      op.stringsChange? = none ∧ ∀ i,
        (e.model.configuration i).SameStrings ((e.apply op).model.configuration i) ∨
          (e.apply op).model.configuration i = default :=
    fun none spares => ⟨none, fun i => .inl (e.sameStrings_apply spares i)⟩
  cases op with
  | setModel | adopt => cases keepsModel
  | selectLocale i base count => exact .inl ⟨i, .select base count, rfl, rfl⟩
  | setStrings i index d => exact .inl ⟨i, .learn index d, rfl, e.model_apply_setStrings i index d⟩
  | setDescriptor c i index d =>
    by_cases strings : c = .strings
    · subst strings
      exact .inl ⟨i, .rewrite index fun _ => d, rfl, rfl⟩
    · refine .inr (spared ?_ (by simpa [edits, ModelEdit.sparesStrings] using strings))
      cases c <;> first | rfl | exact absurd rfl strings
  | modifyStatic c i index f =>
    by_cases strings : c = .strings
    · subst strings
      exact .inl ⟨i, .rewrite index f, rfl, rfl⟩
    · refine .inr (spared ?_ (by simpa [edits, ModelEdit.sparesStrings] using strings))
      cases c <;> first | rfl | exact absurd rfl strings
  | modifyDynamic c i index f =>
    by_cases strings : c = .strings
    · subst strings
      exact .inl ⟨i, .rewrite index fun d => d, rfl, rfl⟩
    · refine .inr (spared ?_ (by simpa [edits, ModelEdit.sparesStrings] using strings))
      cases c <;> first | rfl | exact absurd rfl strings
  | setEntityDescriptor d =>
    right
    by_cases told : e.isAdvertised = true
    · refine ⟨rfl, fun i => .inr ?_⟩
      simp only [RemoteEntity.apply, setEntityDescriptor, told, if_true]
      rfl
    · exact spared rfl (by simp [edits, entityEdits, told, ModelEdit.sparesStrings])
  | setConfigurationName i name =>
    exact .inr ⟨rfl, fun j => .inl (e.model.sameStrings_modifyConfiguration i j fun m =>
      ⟨rfl, rfl, rfl, m.models_withHalves _ _ _⟩)⟩
  | _ =>
    refine .inr (spared rfl ?_)
    first
    | exact e.sparesStrings_edits_update rfl (by simp) (by simp)
    | simp [edits, ModelEdit.sparesStrings]

section Step

variable {e : RemoteEntity} {op : Operation}

theorem slotted_apply (keepsModel : op.replacesModel = false)
    (before : ∀ i, (e.model.configuration i).Slotted) (i : UInt16) :
    ((e.apply op).model.configuration i).Slotted := by
  rcases e.strings_apply_cases keepsModel with ⟨j, change, -, changed⟩ | ⟨-, spared⟩
  · rw [changed, EntityModel.configuration_modifyConfiguration]
    split
    · exact change.slotted_apply (before j)
    · exact before i
  · rcases spared i with same | dropped
    · exact same.slotted_iff.mpr (before i)
    · exact dropped ▸ ConfigurationModel.slotted_default

theorem inStep_apply_iff (keepsModel : op.replacesModel = false)
    (before : ∀ i, (e.model.configuration i).InStep) (slotted : ∀ i, (e.model.configuration i).Slotted) :
    (∀ i, ((e.apply op).model.configuration i).InStep) ↔
      ∀ i change, op.stringsChange? = some (i, change) → change.Keeps (e.model.configuration i) := by
  rcases e.strings_apply_cases keepsModel with ⟨j, change, made, changed⟩ | ⟨none, spared⟩
  · have there := change.inStep_apply_iff (before j) (slotted j)
    simp only [changed, EntityModel.configuration_modifyConfiguration]
    constructor
    · intro after i other same
      obtain ⟨rfl, rfl⟩ := Prod.mk.inj (Option.some.inj (made.symm.trans same))
      have here := after j
      rw [if_pos rfl] at here
      exact there.mp here
    · intro keeps i
      split
      · exact there.mpr (keeps j change made)
      · exact before i
  · constructor
    · intro _ i change made
      rw [none] at made
      cases made
    · intro _ i
      rcases spared i with same | dropped
      · exact same.inStep_iff.mpr (before i)
      · exact dropped ▸ ConfigurationModel.inStep_default

end Step

/-- The texts given out for the references of a configuration are those that its selected locale has for
them, by the STRINGS descriptors as they are. -/
def FollowsLocale (e : RemoteEntity) (i : UInt16) : Prop :=
  ∀ r, e.localizedString i r ≠ "" →
    (e.model.configuration i).HasText (e.model.configuration i).dynamic.localeBase
      (e.model.configuration i).dynamic.localeCount r (e.localizedString i r)

theorem localizedString_of_readable {e : RemoteEntity} (sound : e.isFatal = false)
    (aem : e.identity.supportsAem = true) (i : UInt16) (r : StringReference) :
    e.localizedString i r = if r = .null then "" else
      (e.model.configuration i).dynamic.localizedStrings.getD r.globalOffset "" := by
  have null : r.isNull = true ↔ r = .null := beq_iff_eq
  unfold localizedString
  rw [readConfiguration_of_readable sound aem]
  simp only [null, EntityModel.configuration, SortedMap.getD]
  cases e.model.configurations.get? i <;> rfl

theorem tells_iff_localizedString {e : RemoteEntity} (sound : e.isFatal = false)
    (aem : e.identity.supportsAem = true) (i : UInt16) (r : StringReference) (text : String) :
    (e.model.configuration i).Tells r text ↔ text ≠ "" ∧ e.localizedString i r = text := by
  rw [localizedString_of_readable sound aem, ConfigurationModel.Tells, SortedMap.getD]
  by_cases isNull : r = .null
  · simp [isNull, eq_comm]
  · cases (e.model.configuration i).dynamic.localizedStrings.get? r.globalOffset with
    | none => simp [isNull, eq_comm]
    | some held => simp [isNull]

theorem readable_of_localizedString_ne {e : RemoteEntity} {i : UInt16} {r : StringReference}
    (given : e.localizedString i r ≠ "") : e.isFatal = false ∧ e.identity.supportsAem = true := by
  have unread : ∀ error, e.readModel = .error error → e.localizedString i r = "" := by
    intro error failed
    unfold localizedString readConfiguration
    rw [failed]
    split <;> rfl
  unfold readModel at unread
  cases fatal : e.isFatal with
  | true => exact absurd (unread _ (if_pos fatal)) given
  | false =>
    cases aem : e.identity.supportsAem with
    | true => exact ⟨rfl, rfl⟩
    | false => exact absurd (unread _ (by rw [fatal, aem]; rfl)) given

theorem followsLocale_iff (e : RemoteEntity) (i : UInt16) :
    e.FollowsLocale i ↔
      (e.isFatal = false → e.identity.supportsAem = true → (e.model.configuration i).InStep) := by
  constructor
  · intro follows sound aem r text told
    obtain ⟨notEmpty, rfl⟩ := (tells_iff_localizedString sound aem i r text).mp told
    exact follows r notEmpty
  · intro inStep r given
    obtain ⟨sound, aem⟩ := readable_of_localizedString_ne given
    exact inStep sound aem r _ ((tells_iff_localizedString sound aem i r _).mpr ⟨given, rfl⟩)

theorem slotted_run {e : RemoteEntity} {ops : List Operation}
    (keepsModel : ∀ op ∈ ops, op.replacesModel = false)
    (start : ∀ i, (e.model.configuration i).Slotted) :
    ∀ i, ((e.run ops).model.configuration i).Slotted := by
  induction ops generalizing e with
  | nil => exact start
  | cons op ops ih =>
    exact ih (fun other later => keepsModel other (List.mem_cons_of_mem _ later))
      (slotted_apply (keepsModel op List.mem_cons_self) start)

/-- The tables of an entity that has been found are in step with the selected locales throughout a run
exactly if each change of strings keeps what they tell. The texts that a state gives out are those of the
selected locales exactly if the tables are in step then or cannot be read. -/
theorem in_step_throughout_iff (identity : EntityIdentity) (settings : Settings) (now : Duration)
    (ops : List Operation) (keepsModel : ∀ op ∈ ops, op.replacesModel = false) :
    let start := new identity settings now
    ((∀ before after, ops = before ++ after → ∀ i, ((start.run before).model.configuration i).InStep) ↔
      ∀ before op after i change, ops = before ++ op :: after → op.stringsChange? = some (i, change) →
        change.Keeps ((start.run before).model.configuration i)) ∧
    ∀ before after, ops = before ++ after → ∀ i, (start.run before).FollowsLocale i ↔
      ((start.run before).isFatal = false → (start.run before).identity.supportsAem = true →
        ((start.run before).model.configuration i).InStep) := by
  intro start
  have slotted : ∀ before after, ops = before ++ after →
      ∀ i, ((start.run before).model.configuration i).Slotted := by
    rintro before after rfl
    exact slotted_run (fun op member => keepsModel op (List.mem_append_left _ member))
      fun _ => ConfigurationModel.slotted_default
  refine ⟨⟨?_, ?_⟩, fun before _ _ i => followsLocale_iff (start.run before) i⟩
  · intro throughout before op after i change split made
    have keeps : op.replacesModel = false := keepsModel op (by simp [split])
    have next := throughout (before ++ [op]) after (by simpa using split)
    rw [run_concat] at next
    have step := inStep_apply_iff keeps (throughout before _ split) (slotted before _ split)
    exact step.mp next i change made
  · intro keepsTold before
    induction before using List.reverseRecOn with
    | nil => exact fun _ _ _ => ConfigurationModel.inStep_default
    | append_singleton before op ih =>
      intro after split
      have split : ops = before ++ op :: after := by simpa using split
      have keeps : op.replacesModel = false := keepsModel op (by simp [split])
      rw [run_concat]
      have step := inStep_apply_iff keeps (ih _ split) (slotted before _ split)
      exact step.mpr fun i change made => keepsTold before op after i change split made

def reselected : List Operation :=
  [.selectLocale 0 0 1, .setStrings 0 0 { strings := ["Input"] }, .selectLocale 0 1 1]

def rereadShorter : List Operation :=
  [.selectLocale 0 0 1, .setStrings 0 0 { strings := ["Input", "Output"] },
    .setStrings 0 0 { strings := ["Input"] }]

theorem not_hasText_reselected :
    let found := new { capabilities := .aemSupported } {} .zero
    ¬ ((found.run reselected).model.configuration 0).HasText 1 1 ⟨0⟩ "Input" := by
  rintro found ⟨-, index, n, sum, held, -⟩
  obtain rfl : index = 1 := UInt16.toNat_inj.mp sum
  have absent : (((found.run reselected).model.configuration 0).models .strings).get? 1 = none := by
    decide
  exact absurd (absent.symm.trans held) nofun

theorem reselection_loses_step :
    let found := new { capabilities := .aemSupported } {} .zero
    (∀ op ∈ reselected, op.replacesModel = false) ∧
      ¬ ∀ before op after i change, reselected = before ++ op :: after →
        op.stringsChange? = some (i, change) →
        change.Keeps ((found.run before).model.configuration i) := by
  intro found
  have keepsModel : ∀ op ∈ reselected, op.replacesModel = false := by decide
  obtain ⟨throughout, -⟩ :=
    in_step_throughout_iff { capabilities := .aemSupported } {} .zero reselected keepsModel
  refine ⟨keepsModel, fun keeps => ?_⟩
  have told : ((found.run reselected).model.configuration 0).Tells ⟨0⟩ "Input" :=
    ⟨by decide, by decide, by decide⟩
  exact not_hasText_reselected (throughout.mpr keeps reselected [] rfl 0 ⟨0⟩ "Input" told)

/-- A text is given out still when a locale without descriptors is selected, and when the descriptor that it
was read from has been read again without it. -/
theorem text_of_former_locale :
    let found := new { capabilities := .aemSupported } {} .zero
    ((found.run reselected).localizedString 0 ⟨0⟩ = "Input" ∧
      ((found.run reselected).model.find? ⟨.strings, 0, 1⟩).isNone = true ∧
      ¬ (found.run reselected).FollowsLocale 0) ∧
    (found.run rereadShorter).localizedString 0 ⟨1⟩ = "Output" ∧
      ¬ (found.run rereadShorter).FollowsLocale 0 := by
  intro found
  have given : (found.run reselected).localizedString 0 ⟨0⟩ = "Input" := by decide
  refine ⟨⟨given, by decide, ?_⟩, by decide, ?_⟩
  · intro follows
    have selected := follows ⟨0⟩ (by decide)
    rw [given] at selected
    exact not_hasText_reselected selected
  · intro follows
    obtain ⟨-, index, n, sum, held, entry⟩ := follows ⟨1⟩ (by decide)
    obtain rfl : index = 0 := UInt16.toNat_inj.mp (sum.trans (by decide))
    have short : (((found.run rereadShorter).model.configuration 0).models .strings).get? 0 =
        some ⟨{ strings := ["Input"] }, ()⟩ := by decide
    obtain rfl := Option.some.inj (short.symm.trans held)
    exact absurd entry (by decide)

end RemoteEntity

end AvbEntity
