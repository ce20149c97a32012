import AvbEntity.Model.Document
import AvbEntity.Proofs.Descriptor.Flags
import AvbEntity.Proofs.Time.Timestamp

namespace AvbEntity

open Json

instance : Faithful Eui64 := ⟨fun id => (Faithful.survives id.value).map Eui64.mk rfl rfl rfl⟩

instance : Faithful StringReference :=
  ⟨fun r => (Faithful.survives r.raw).map StringReference.mk rfl rfl rfl⟩

instance : Faithful ControlValues :=
  ⟨fun c => (Faithful.survives c.values).map ControlValues.mk rfl rfl rfl⟩

instance {family : FlagFamily} [family.Legible] : Faithful (FlagSet family) :=
  ⟨fun s => survives_of_text rfl rfl s.read?_write⟩

instance : FaithfulNames ClockSourceType := ⟨fun t => by cases t <;> rfl⟩

instance : FaithfulNames ConnectionState := ⟨fun s => by cases s <;> rfl⟩

instance : FaithfulNames DescriptorType := ⟨fun t => by cases t <;> rfl⟩

instance : FaithfulKey DescriptorType := ⟨ofName?_escape, fun t => isBody_escape t.name.toList⟩

instance (c : Category) : Faithful c.Static := by
  cases c <;> exact inferInstance

instance (c : Category) : Faithful c.Dynamic := by
  cases c <;> exact inferInstance

set_option synthInstance.maxSize 1000 in
instance : Faithful ConfigurationModel := inferInstance

instance : Faithful EntityModel := inferInstance

/-- The text of a model is read back as the model, and the text of a document as the document, if the
time at which it was kept is in a year that is supported. -/
theorem ModelDocument.texts_read_back :
    (∀ t : EntityModel, EntityModel.ofText? t.toText = some t) ∧
    ∀ d : ModelDocument, Timestamp.isSupportedYear d.cachedAt.date.year = true →
      ModelDocument.ofText? d.toText = some d := by
  constructor
  · intro t
    rw [EntityModel.ofText?, EntityModel.toText]
    exact ofText?_bind_decode? (Faithful.survives t)
  · intro d supported
    have modelId := (Faithful.survives d.modelId).member
    have cachedAt : Survives d.cachedAt := survives_of_text rfl rfl (Timestamp.read?_write supported)
    have tree := (Faithful.survives d.tree).member
    have members : MembersSurvive (d.modelId, d.cachedAt, d.tree, ()) :=
      .cons modelId (.cons cachedAt.member (.cons tree (FaithfulMembers.survives ())))
    have whole : Survives d := survives_of_members members
    rw [ofText?, toText]
    exact ofText?_bind_decode? whole

theorem ModelDocument.leap_day_reads_back :
    let d : ModelDocument :=
      { modelId := ⟨42⟩
        cachedAt := ⟨⟨2024, 2, 29, by decide, by decide, by decide, by decide⟩, 754, 5, 250000000,
          by decide, by decide, by decide⟩
        tree := { dynamic := { entityName := "Mixer", counters := some ∅ } } }
    Timestamp.isSupportedYear d.cachedAt.date.year = true ∧ ModelDocument.ofText? d.toText = some d := by
  intro d
  have supported : Timestamp.isSupportedYear d.cachedAt.date.year = true := by decide
  exact ⟨supported, texts_read_back.2 d supported⟩

end AvbEntity
