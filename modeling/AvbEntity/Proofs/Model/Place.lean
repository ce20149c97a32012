import AvbEntity.Entity.Update

namespace AvbEntity

structure Place where
  category : Category
  configuration : UInt16
  index : UInt16
deriving DecidableEq

namespace ConfigurationModel

@[simp] theorem models_default (c : Category) : (default : ConfigurationModel).models c = ∅ := by
  cases c <;> rfl

@[simp] theorem models_withHalves (m : ConfigurationModel) (static : ConfigurationStatic)
    (dynamic : ConfigurationDynamic) (c : Category) :
    ({ m with static, dynamic } : ConfigurationModel).models c = m.models c := by
  cases c <;> rfl

theorem models_upsert_self (t : ConfigurationModel) (c : Category) (index : UInt16)
    (f : c.Model → c.Model) : (t.upsert c index f).models c = (t.models c).upsert index f :=
  models_setModels_self ..

theorem models_upsert_ne (t : ConfigurationModel) {c d : Category} (h : d ≠ c) (index : UInt16)
    (f : c.Model → c.Model) : (t.upsert c index f).models d = t.models d :=
  models_setModels_ne t h _

@[simp] theorem static_upsert (t : ConfigurationModel) (c : Category) (index : UInt16)
    (f : c.Model → c.Model) : (t.upsert c index f).static = t.static :=
  static_setModels ..

@[simp] theorem dynamic_upsert (t : ConfigurationModel) (c : Category) (index : UInt16)
    (f : c.Model → c.Model) : (t.upsert c index f).dynamic = t.dynamic :=
  dynamic_setModels ..

end ConfigurationModel

namespace EntityModel

def find? (t : EntityModel) (p : Place) : Option p.category.Model :=
  (t.configurations.get? p.configuration).bind fun m => (m.models p.category).get? p.index

def configuration (t : EntityModel) (i : UInt16) : ConfigurationModel := t.configurations.getD i default

def modifyConfiguration (t : EntityModel) (configuration : UInt16)
    (f : ConfigurationModel → ConfigurationModel) : EntityModel :=
  { t with configurations := t.configurations.upsert configuration f }

def modifyPlace (t : EntityModel) (p : Place) (f : p.category.Model → p.category.Model) :
    EntityModel :=
  t.modifyConfiguration p.configuration fun m => m.upsert p.category p.index f

variable (t : EntityModel)

@[simp] theorem get?_modifyConfiguration_self (configuration : UInt16)
    (f : ConfigurationModel → ConfigurationModel) :
    (t.modifyConfiguration configuration f).configurations.get? configuration =
      some (f (t.configurations.getD configuration default)) :=
  SortedMap.get?_upsert_self ..

theorem get?_modifyConfiguration_ne {configuration other : UInt16} (h : other ≠ configuration)
    (f : ConfigurationModel → ConfigurationModel) :
    (t.modifyConfiguration configuration f).configurations.get? other =
      t.configurations.get? other :=
  SortedMap.get?_upsert_ne _ h f

theorem contains_modifyConfiguration (configuration : UInt16)
    (f : ConfigurationModel → ConfigurationModel) (i : UInt16) :
    (t.modifyConfiguration configuration f).configurations.contains i =
      (t.configurations.contains i || i == configuration) := by
  by_cases same : i = configuration
  · subst same
    simp [SortedMap.contains]
  · simp [SortedMap.contains, get?_modifyConfiguration_ne t same, same]

theorem configuration_modifyConfiguration (i j : UInt16) (f : ConfigurationModel → ConfigurationModel) :
    (t.modifyConfiguration i f).configuration j =
      if j = i then f (t.configuration i) else t.configuration j := by
  by_cases same : j = i
  · subst same
    rw [if_pos rfl, configuration, SortedMap.getD, get?_modifyConfiguration_self]
    rfl
  · rw [if_neg same, configuration, SortedMap.getD, get?_modifyConfiguration_ne t same]
    rfl

theorem get?_models_getD (p : Place) :
    ((t.configurations.getD p.configuration default).models p.category).get? p.index = t.find? p := by
  unfold find? SortedMap.getD
  cases t.configurations.get? p.configuration <;> simp

theorem find?_modifyConfiguration {f : ConfigurationModel → ConfigurationModel}
    (keeps : ∀ m c, (f m).models c = m.models c) (configuration : UInt16) (p : Place) :
    (t.modifyConfiguration configuration f).find? p = t.find? p := by
  by_cases same : p.configuration = configuration
  · subst same
    rw [← get?_models_getD t p]
    simp only [find?, get?_modifyConfiguration_self, Option.bind_some, keeps]
  · simp only [find?, get?_modifyConfiguration_ne t same]

@[simp] theorem find?_modifyPlace_self (p : Place) (f : p.category.Model → p.category.Model) :
    (t.modifyPlace p f).find? p = some (f ((t.find? p).getD default)) := by
  rw [← get?_models_getD t p]
  simp only [find?, modifyPlace, get?_modifyConfiguration_self, Option.bind_some,
    ConfigurationModel.models_upsert_self, SortedMap.get?_upsert_self]
  rfl

theorem find?_modifyPlace_ne {p q : Place} (h : q ≠ p) (f : p.category.Model → p.category.Model) :
    (t.modifyPlace p f).find? q = t.find? q := by
  by_cases same : q.configuration = p.configuration
  · rw [← get?_models_getD t q, same]
    obtain ⟨c, configuration, index⟩ := q
    simp only at same
    subst same
    simp only [find?, modifyPlace, get?_modifyConfiguration_self, Option.bind_some]
    by_cases category : c = p.category
    · subst category
      have different : index ≠ p.index := by
        rintro rfl
        exact h rfl
      rw [ConfigurationModel.models_upsert_self, SortedMap.get?_upsert_ne _ different]
    · rw [ConfigurationModel.models_upsert_ne _ category]
  · simp only [find?, modifyPlace, get?_modifyConfiguration_ne t same]

end EntityModel

namespace RemoteEntity

theorem currentOrDefault_eq (e : RemoteEntity) (c : Category) (index : UInt16) :
    e.currentOrDefault c index =
      ((e.model.find? ⟨c, e.currentConfiguration, index⟩).getD default).dynamic := by
  unfold currentOrDefault models EntityModel.find? SortedMap.getD
  cases e.model.configurations.get? e.currentConfiguration <;> rfl

theorem currentOrDefault_modifyCurrent (e : RemoteEntity) (c : Category) (index : UInt16)
    (f : c.Dynamic → c.Dynamic) :
    (e.modifyCurrent c index f).currentOrDefault c index = f (e.currentOrDefault c index) := by
  have after := e.model.find?_modifyPlace_self ⟨c, e.currentConfiguration, index⟩ fun m =>
    { m with dynamic := f m.dynamic }
  have found : (e.modifyCurrent c index f).model.find? ⟨c, e.currentConfiguration, index⟩ = _ := after
  have current : (e.modifyCurrent c index f).currentConfiguration = e.currentConfiguration := rfl
  rw [currentOrDefault_eq, current, found, currentOrDefault_eq, Option.getD_some]

end RemoteEntity

end AvbEntity
