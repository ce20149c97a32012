import AvbEntity.Proofs.Model.Place

namespace AvbEntity

namespace Category

abbrev Told : Category → Type
  | audioUnit => String × UInt32
  | streamInput | streamOutput => String × UInt64
  | avbInterface | audioCluster => String
  | clockSource => String × ClockSourceFlags × Eui64
  | memoryObject => String × UInt64
  | control => String × ControlValues
  | clockDomain => String × UInt16
  | locale | strings | streamPortInput | streamPortOutput | audioMap => Unit

abbrev Live : Category → Type
  | streamInput => ConnectionInfo × Option StreamInfo × Option Bool × Option Counters
  | streamOutput => SortedSet StreamIdentification × Option StreamInfo × Option Bool × Option Counters
  | avbInterface => Option AvbInfo × Option AsPath × Option Counters
  | streamPortInput | streamPortOutput => List AudioMapping
  | clockDomain => Option Counters
  | audioUnit | clockSource | memoryObject | locale | strings | audioCluster | audioMap | control => Unit

def told : (c : Category) → c.Dynamic → c.Told
  | audioUnit, m => (m.objectName, m.samplingRate)
  | streamInput, m => (m.objectName, m.format)
  | streamOutput, m => (m.objectName, m.format)
  | avbInterface, m => m.objectName
  | audioCluster, m => m.objectName
  | clockSource, m => (m.objectName, m.flags, m.identifier)
  | memoryObject, m => (m.objectName, m.length)
  | control, m => (m.objectName, m.values)
  | clockDomain, m => (m.objectName, m.clockSource)
  | locale, _ | strings, _ | streamPortInput, _ | streamPortOutput, _ | audioMap, _ => ()

def live : (c : Category) → c.Dynamic → c.Live
  | streamInput, m => (m.connection, m.info, m.isRunning, m.counters)
  | streamOutput, m => (m.connections, m.info, m.isRunning, m.counters)
  | avbInterface, m => (m.info, m.asPath, m.counters)
  | streamPortInput, m => m.mappings
  | streamPortOutput, m => m.mappings
  | clockDomain, m => m.counters
  | audioUnit, _ | clockSource, _ | memoryObject, _ | locale, _ | strings, _ | audioCluster, _
  | audioMap, _ | control, _ => ()

theorem dynamic_ext (c : Category) {m n : c.Dynamic} (told : c.told m = c.told n)
    (live : c.live m = c.live n) : m = n := by
  cases c <;> cases m <;> cases n <;> simp_all [Category.told, Category.live]

def tells : (c : Category) → c.Descriptor → c.Told
  | audioUnit, d => (d.objectName, d.samplingRate)
  | streamInput, d => (d.objectName, d.format)
  | streamOutput, d => (d.objectName, d.format)
  | avbInterface, d => d.objectName
  | audioCluster, d => d.objectName
  | clockSource, d => (d.objectName, d.flags, d.identifier)
  | memoryObject, d => (d.objectName, d.length)
  | control, d => (d.objectName, d.currentValues)
  | clockDomain, d => (d.objectName, d.clockSource)
  | locale, _ | strings, _ | streamPortInput, _ | streamPortOutput, _ | audioMap, _ => ()

/-- Whether the static half of a port is the one of a descriptor, but for the mark of a dynamic map, which
is there just if the port has no AUDIO_MAP descriptor. -/
def ShowsPort (d s : StreamPortStatic) : Prop :=
  s = { d with hasDynamicMap := s.hasDynamicMap } ∧ (s.hasDynamicMap = true ↔ d.mapCount = 0)

def Shows : (c : Category) → c.Descriptor → c.Static → Prop
  | audioUnit, d, s => s = d.static
  | streamInput, d, s => s = d.static
  | streamOutput, d, s => s = d.static
  | avbInterface, d, s => s = d.static
  | clockSource, d, s => s = d.static
  | memoryObject, d, s => s = d.static
  | locale, d, s => s = d
  | strings, d, s => s = d
  | streamPortInput, d, s => ShowsPort d s
  | streamPortOutput, d, s => ShowsPort d s
  | audioCluster, d, s => s = d.static
  | audioMap, d, s => s = d
  | control, d, s => s = d.static
  | clockDomain, d, s => s = d.static

/-- Whether a model is what it should be after a descriptor has been read, given the current values
before. -/
structure Refreshed (c : Category) (d : c.Descriptor) (before : c.Dynamic) (m : c.Model) : Prop where
  static : c.Shows d m.static
  told : c.told m.dynamic = c.tells d
  live : c.live m.dynamic = c.live before

theorem showsPort_iff {d s : StreamPortStatic} :
    ShowsPort d s ↔ s = { d with hasDynamicMap := d.mapCount == 0 } := by
  constructor
  · rintro ⟨same, mark⟩
    have value : s.hasDynamicMap = (d.mapCount == 0) := by
      rw [Bool.eq_iff_iff, mark, beq_iff_eq]
    rw [same, value]
  · rintro rfl
    exact ⟨rfl, beq_iff_eq⟩

theorem shows_iff (c : Category) {d : c.Descriptor} {s : c.Static} : c.Shows d s ↔ s = c.staticOf d := by
  cases c
  case streamPortInput | streamPortOutput => exact showsPort_iff
  all_goals exact Iff.rfl

theorem told_refresh (c : Category) (d : c.Descriptor) (m : c.Dynamic) :
    c.told (c.refresh d m) = c.tells d := by
  cases c <;> rfl

theorem live_refresh (c : Category) (d : c.Descriptor) (m : c.Dynamic) :
    c.live (c.refresh d m) = c.live m := by
  cases c <;> rfl

theorem refreshed_iff (c : Category) {d : c.Descriptor} {before : c.Dynamic} {m : c.Model} :
    c.Refreshed d before m ↔ m = ⟨c.staticOf d, c.refresh d before⟩ := by
  constructor
  · intro refreshed
    have static := c.shows_iff.mp refreshed.static
    have dynamic : m.dynamic = c.refresh d before := by
      apply c.dynamic_ext
      · rw [refreshed.told, told_refresh]
      · rw [refreshed.live, live_refresh]
    cases m
    simp_all only
  · rintro rfl
    exact ⟨c.shows_iff.mpr rfl, c.told_refresh d before, c.live_refresh d before⟩

end Category

namespace RemoteEntity

def currentAt (e : RemoteEntity) (p : Place) : p.category.Dynamic :=
  match e.model.find? p with
  | some m => m.dynamic
  | none => default

/-- Learning a descriptor changes the model at one place: it has what the descriptor says, and the current
values that the descriptor does not tell are those from before. -/
theorem setDescriptor_refreshes (e : RemoteEntity) (c : Category) (configuration index : UInt16)
    (d : c.Descriptor) :
    let place : Place := ⟨c, configuration, index⟩
    let after := e.setDescriptor c configuration index d
    (∃ m, after.model.find? place = some m ∧ ∀ n, n = m ↔ c.Refreshed d (e.currentAt place) n) ∧
      (∀ other, other ≠ place → after.model.find? other = e.model.find? other) ∧
      (∀ i, after.model.configurations.contains i =
        (e.model.configurations.contains i || i == configuration)) ∧
      (∀ i, (after.model.configuration i).static = (e.model.configuration i).static ∧
        (after.model.configuration i).dynamic = (e.model.configuration i).dynamic) ∧
      after = { e with model := { e.model with configurations := after.model.configurations } } := by
  intro place after
  have model : after.model = e.model.modifyPlace place (c.learn d) := rfl
  have current : e.currentAt place = ((e.model.find? place).getD default).dynamic := by
    unfold currentAt
    cases e.model.find? place <;> rfl
  refine ⟨⟨_, (congrArg (·.find? place) model).trans (EntityModel.find?_modifyPlace_self ..), ?_⟩,
    ?_, ?_, ?_, rfl⟩
  · intro n
    rw [c.refreshed_iff, current]
    rfl
  · intro other different
    rw [model]
    exact EntityModel.find?_modifyPlace_ne _ different _
  · intro i
    rw [model]
    exact EntityModel.contains_modifyConfiguration ..
  · intro i
    rw [model, EntityModel.modifyPlace, EntityModel.configuration_modifyConfiguration]
    split
    next same =>
      subst same
      exact ⟨ConfigurationModel.static_upsert .., ConfigurationModel.dynamic_upsert ..⟩
    next => exact ⟨rfl, rfl⟩

end RemoteEntity

end AvbEntity
