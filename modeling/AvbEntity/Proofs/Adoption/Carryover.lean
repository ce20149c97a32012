import AvbEntity.Proofs.Adoption.Acceptance
import AvbEntity.Proofs.Model.Place

namespace AvbEntity

theorem DescriptorModel.eq_of_halves {σ δ : Type} {a b : Option (DescriptorModel σ δ)}
    (static : a.map (·.static) = b.map (·.static))
    (dynamic : a.map (·.dynamic) = b.map (·.dynamic)) : a = b := by
  rcases a with _ | ⟨s, d⟩ <;> rcases b with _ | ⟨s', d'⟩
  · rfl
  · cases static
  · cases static
  · cases static
    cases dynamic
    rfl

/-- Models that differ at most in the current values of the entity and of its descriptors. -/
structure SameStatic (t u : EntityModel) : Prop where
  own : t.static = u.static
  halves : ∀ c, (t.configurations.get? c).map (fun m => (m.static, m.dynamic)) =
    (u.configurations.get? c).map fun m => (m.static, m.dynamic)
  descriptors : ∀ p, (t.find? p).map (·.static) = (u.find? p).map (·.static)

namespace SameStatic

variable {t u : EntityModel}

theorem symm (same : SameStatic t u) : SameStatic u t :=
  ⟨same.own.symm, fun c => (same.halves c).symm, fun p => (same.descriptors p).symm⟩

theorem exists_partner (same : SameStatic t u) {c : UInt16} {m : ConfigurationModel}
    (found : t.configurations.get? c = some m) :
    ∃ n, u.configurations.get? c = some n ∧ n.static = m.static ∧ n.dynamic = m.dynamic := by
  have halves := same.halves c
  rw [found, Option.map_some, eq_comm, Option.map_eq_some_iff] at halves
  obtain ⟨n, partner, equal⟩ := halves
  exact ⟨n, partner, (Prod.mk.inj equal).1, (Prod.mk.inj equal).2⟩

section Partner

variable {c : UInt16} {m n : ConfigurationModel}

theorem map_static_models (same : SameStatic t u) (found : t.configurations.get? c = some m)
    (partner : u.configurations.get? c = some n) (category : Category) (index : UInt16) :
    ((m.models category).get? index).map (·.static) =
      ((n.models category).get? index).map (·.static) := by
  have descriptor := same.descriptors ⟨category, c, index⟩
  simpa only [EntityModel.find?, found, partner, Option.bind_some] using descriptor

theorem isComplete (same : SameStatic t u) (found : t.configurations.get? c = some m)
    (partner : u.configurations.get? c = some n) (static : n.static = m.static)
    (complete : m.isComplete = true) : n.isComplete = true := by
  rw [ConfigurationModel.isComplete_iff] at complete ⊢
  intro category
  calc n.declared category
      = m.declared category := by rw [ConfigurationModel.declared, static, ConfigurationModel.declared]
    _ = (m.models category).size := complete category
    _ = (n.models category).size :=
      SortedMap.size_congr (same.map_static_models found partner category)

end Partner

theorem configurations_eq (same : SameStatic t u)
    (current : ∀ p, (t.find? p).map (·.dynamic) = (u.find? p).map (·.dynamic)) :
    t.configurations = u.configurations := by
  apply SortedMap.ext_get?
  intro c
  cases found : t.configurations.get? c with
  | none =>
    have halves := same.halves c
    rw [found, Option.map_none, eq_comm, Option.map_eq_none_iff] at halves
    exact halves.symm
  | some m =>
    obtain ⟨n, partner, static, dynamic⟩ := same.exists_partner found
    have equal : m = n := by
      apply ConfigurationModel.ext_models static.symm dynamic.symm
      intro category
      apply SortedMap.ext_get?
      intro index
      have value := current ⟨category, c, index⟩
      simp only [EntityModel.find?, found, partner, Option.bind_some] at value
      exact DescriptorModel.eq_of_halves (same.map_static_models found partner category index) value
    rw [partner, equal]

theorem modifyPlace {p : Place} {m : p.category.Model} (known : t.find? p = some m)
    (f : p.category.Dynamic → p.category.Dynamic) :
    SameStatic t (t.modifyPlace p fun m => { m with dynamic := f m.dynamic }) where
  own := rfl
  halves := by
    intro c
    by_cases same : c = p.configuration
    · subst same
      obtain ⟨n, found, -⟩ := Option.bind_eq_some_iff.mp known
      simp [EntityModel.modifyPlace, found, SortedMap.getD]
    · rw [EntityModel.modifyPlace, EntityModel.get?_modifyConfiguration_ne t same]
  descriptors := by
    intro q
    by_cases same : q = p
    · subst same
      simp [known]
    · rw [EntityModel.find?_modifyPlace_ne t same]

open RemoteEntity in
theorem accepts (same : SameStatic t u) {e : RemoteEntity} {d : EntityDescriptor} {all : Bool}
    (accepted : e.accepts t d all = true) : e.accepts u d all = true := by
  obtain ⟨vendor, name, expected, agree⟩ := accepts_iff.mp accepted
  refine accepts_iff.mpr ⟨same.own ▸ vendor, same.own ▸ name, ?_, ?_⟩
  · cases all with
    | true =>
      rw [hasExpectedConfigurations_all_iff] at expected ⊢
      refine ⟨(SortedMap.size_congr same.halves).symm.trans expected.1, ?_⟩
      intro c n partner
      obtain ⟨m, found, static, -⟩ := same.symm.exists_partner partner
      exact same.isComplete found partner static.symm (expected.2 c m found)
    | false =>
      rw [hasExpectedConfigurations_current_iff] at expected ⊢
      obtain ⟨m, found, complete⟩ := expected
      obtain ⟨n, partner, static, -⟩ := same.exists_partner found
      exact ⟨n, partner, same.isComplete found partner static complete⟩
  · intro c own held contra
    obtain ⟨declared, n, partner, differ⟩ := contradicts_iff.mp contra
    obtain ⟨m, found, static, -⟩ := same.symm.exists_partner partner
    refine agree c own held (contradicts_iff.mpr ⟨declared, m, found, ?_⟩)
    rw [static]
    exact differ

theorem accepts_eq (same : SameStatic t u) (e : RemoteEntity) (d : EntityDescriptor) (all : Bool) :
    e.accepts t d all = e.accepts u d all :=
  Bool.eq_iff_iff.mpr ⟨same.accepts, same.symm.accepts⟩

end SameStatic

namespace RemoteEntity

/-- An entity that takes over a kept model has it with the ENTITY descriptor written over it, and is
else as before, exactly if it has not been advertised, or had failed and what is written is the empty
model. An advertised entity has no model afterwards, and has failed. -/
theorem adopted_exactly_iff (e : RemoteEntity) (kept : EntityModel) (d : EntityDescriptor)
    (all : Bool) (taken : (e.adopt kept d all).1 = true) :
    let told : EntityModel :=
      { static := { vendorName := d.vendorName, modelName := d.modelName }
        dynamic := { kept.dynamic with
          firmwareVersion := d.firmwareVersion
          serialNumber := d.serialNumber
          entityName := d.entityName
          groupName := d.groupName
          currentConfiguration := d.currentConfiguration }
        configurations := kept.configurations }
    ((e.adopt kept d all).2 = { e with model := told, graph := none } ↔
        (e.isAdvertised = true → e.isFatal = true ∧ told = {})) ∧
      (e.isAdvertised = true →
        (e.adopt kept d all).2 = { e with model := {}, graph := none, isFatal := true }) := by
  intro told
  rcases e.adopt_cases kept d all with ⟨-, h⟩ | ⟨-, fresh, h⟩ | ⟨-, advertised, h⟩
  · rw [h] at taken
    cases taken
  · have never : e.isAdvertised = true → False := by simp [fresh]
    rw [h]
    exact ⟨⟨fun _ advertised => (never advertised).elim, fun _ => rfl⟩,
      fun advertised => (never advertised).elim⟩
  · rw [h]
    refine ⟨⟨?_, ?_⟩, fun _ => rfl⟩
    · intro same _
      exact ⟨(congrArg isFatal same).symm, (congrArg model same).symm⟩
    · intro nothing
      obtain ⟨fatal, empty⟩ := nothing advertised
      rw [empty, ← fatal]

theorem fresh_entity_has_taken_model :
    ((new {} {} .zero).adopt numbered { configurationsCount := 2, entityName := "Box" } true).1 =
        true ∧
      ((new {} {} .zero).adopt numbered { configurationsCount := 2, entityName := "Box" } true).2 =
        { new {} {} .zero with
          model := { dynamic := { entityName := "Box" }, configurations := numbered.configurations }
          graph := none } := by
  have taken : ((new {} {} .zero).adopt numbered
      { configurationsCount := 2, entityName := "Box" } true).1 = true := by decide
  have exact_iff := (adopted_exactly_iff (new {} {} .zero) numbered
    { configurationsCount := 2, entityName := "Box" } true taken).1
  refine ⟨taken, exact_iff.mpr ?_⟩
  intro advertised
  cases advertised

/-- An entity that has been advertised tells that it took a model, and has none and has failed. -/
theorem advertised_entity_tells_of_dropped_model :
    let e := (new {} {} .zero).run [.setAdvertised true]
    let result := e.adopt numbered { configurationsCount := 2 } true
    result.1 = true ∧ numbered.configurations.contains 1 = true ∧
      result.2.knowsConfiguration 1 = false ∧ e.isFatal = false ∧ result.2.isFatal = true := by
  decide

section Agreement

variable {e : RemoteEntity} {kept : EntityModel} {d : EntityDescriptor} {all : Bool}

theorem find?_adopt (fresh : e.isAdvertised = false) (taken : (e.adopt kept d all).1 = true)
    (p : Place) : (e.adopt kept d all).2.model.find? p = kept.find? p := by
  rw [adopt_snd_of_fresh fresh taken]
  rfl

theorem counters_adopt (fresh : e.isAdvertised = false) (taken : (e.adopt kept d all).1 = true) :
    (e.adopt kept d all).2.model.dynamic.counters = kept.dynamic.counters := by
  rw [adopt_snd_of_fresh fresh taken]
  rfl

end Agreement

/-- Models that agree in their static halves are taken or refused alike. If they are taken the entity is
the same for both exactly if they have the same counters and the same current values of descriptors. -/
theorem adopt_agrees_iff (e : RemoteEntity) (kept other : EntityModel) (d : EntityDescriptor)
    (all : Bool) (fresh : e.isAdvertised = false) (same : SameStatic kept other) :
    (e.adopt kept d all).1 = (e.adopt other d all).1 ∧
      ((e.adopt kept d all).2 = (e.adopt other d all).2 ↔
        ((e.adopt kept d all).1 = true → kept.dynamic.counters = other.dynamic.counters ∧
          ∀ p, (kept.find? p).map (·.dynamic) = (other.find? p).map (·.dynamic))) := by
  have answer : (e.adopt kept d all).1 = (e.adopt other d all).1 := by
    rw [adopt_fst, adopt_fst, same.accepts_eq]
  refine ⟨answer, ?_, ?_⟩
  · -- what the models hold besides the static halves is read back from the entity
    intro equal taken
    have takenToo := answer.symm.trans taken
    constructor
    · rw [← counters_adopt fresh taken, equal, counters_adopt fresh takenToo]
    · intro p
      rw [← find?_adopt fresh taken, equal, find?_adopt fresh takenToo]
  · intro current
    cases taken : (e.adopt kept d all).1 with
    | false =>
      rw [adopt_snd_of_refused taken, adopt_snd_of_refused (answer.symm.trans taken)]
    | true =>
      obtain ⟨counters, values⟩ := current taken
      rw [adopt_snd_of_fresh fresh taken, adopt_snd_of_fresh fresh (answer.symm.trans taken)]
      simp only [describeEntity, counters, same.configurations_eq values]

theorem names_of_source_are_hidden :
    let kept : EntityModel :=
      { dynamic := { entityName := "Box", serialNumber := "17", currentConfiguration := 1 }
        configurations := numbered.configurations }
    (new {} {} .zero).isAdvertised = false ∧ SameStatic kept numbered ∧
      ((new {} {} .zero).adopt kept { configurationsCount := 2 } true).2 =
        ((new {} {} .zero).adopt numbered { configurationsCount := 2 } true).2 := by
  intro kept
  have same : SameStatic kept numbered := ⟨rfl, fun _ => rfl, fun _ => rfl⟩
  obtain ⟨-, agree⟩ := adopt_agrees_iff (new {} {} .zero) kept numbered { configurationsCount := 2 }
    true rfl same
  exact ⟨rfl, same, agree.mpr fun _ => ⟨rfl, fun _ => rfl⟩⟩

def established : ConnectionInfo := ⟨⟨⟨42⟩, 1⟩, .connected⟩

def unconnected : RemoteEntity := (declaring 0).setDescriptor .streamInput 0 0 default

def connected : RemoteEntity := (unconnected.setConnection 0 established).2

/-- An entity that takes over the model of a connected device tells of a connection, where it tells of
none had it taken over the model that the device had before. -/
theorem connection_of_source_is_visible :
    let e := new { capabilities := .aemSupported } {} .zero
    let before := e.adopt unconnected.model { configurationsCount := 1 } true
    let after := e.adopt connected.model { configurationsCount := 1 } true
    e.isAdvertised = false ∧ SameStatic unconnected.model connected.model ∧
      before.1 = true ∧ after.1 = true ∧
      before.2.inputConnection 0 = .ok {} ∧ after.2.inputConnection 0 = .ok established := by
  intro e before after
  have known : unconnected.model.find? ⟨.streamInput, 0, 0⟩ = some default := rfl
  refine ⟨rfl, SameStatic.modifyPlace known fun m => { m with connection := established }, ?_⟩
  decide

end RemoteEntity

end AvbEntity
