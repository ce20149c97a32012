import AvbEntity.Descriptor.Category

namespace AvbEntity

structure ConfigurationModel where
  static : ConfigurationStatic := {}
  dynamic : ConfigurationDynamic := {}
  audioUnits : Category.ModelMap .audioUnit := ∅
  streamInputs : Category.ModelMap .streamInput := ∅
  streamOutputs : Category.ModelMap .streamOutput := ∅
  avbInterfaces : Category.ModelMap .avbInterface := ∅
  clockSources : Category.ModelMap .clockSource := ∅
  memoryObjects : Category.ModelMap .memoryObject := ∅
  locales : Category.ModelMap .locale := ∅
  strings : Category.ModelMap .strings := ∅
  streamPortInputs : Category.ModelMap .streamPortInput := ∅
  streamPortOutputs : Category.ModelMap .streamPortOutput := ∅
  audioClusters : Category.ModelMap .audioCluster := ∅
  audioMaps : Category.ModelMap .audioMap := ∅
  controls : Category.ModelMap .control := ∅
  clockDomains : Category.ModelMap .clockDomain := ∅
deriving DecidableEq

namespace ConfigurationModel

instance : Inhabited ConfigurationModel := ⟨{}⟩

def models (t : ConfigurationModel) : (c : Category) → c.ModelMap
  | .audioUnit => t.audioUnits
  | .streamInput => t.streamInputs
  | .streamOutput => t.streamOutputs
  | .avbInterface => t.avbInterfaces
  | .clockSource => t.clockSources
  | .memoryObject => t.memoryObjects
  | .locale => t.locales
  | .strings => t.strings
  | .streamPortInput => t.streamPortInputs
  | .streamPortOutput => t.streamPortOutputs
  | .audioCluster => t.audioClusters
  | .audioMap => t.audioMaps
  | .control => t.controls
  | .clockDomain => t.clockDomains

def setModels (t : ConfigurationModel) : (c : Category) → c.ModelMap → ConfigurationModel
  | .audioUnit, m => { t with audioUnits := m }
  | .streamInput, m => { t with streamInputs := m }
  | .streamOutput, m => { t with streamOutputs := m }
  | .avbInterface, m => { t with avbInterfaces := m }
  | .clockSource, m => { t with clockSources := m }
  | .memoryObject, m => { t with memoryObjects := m }
  | .locale, m => { t with locales := m }
  | .strings, m => { t with strings := m }
  | .streamPortInput, m => { t with streamPortInputs := m }
  | .streamPortOutput, m => { t with streamPortOutputs := m }
  | .audioCluster, m => { t with audioClusters := m }
  | .audioMap, m => { t with audioMaps := m }
  | .control, m => { t with controls := m }
  | .clockDomain, m => { t with clockDomains := m }

@[simp] theorem models_setModels_self (t : ConfigurationModel) (c : Category) (m : c.ModelMap) :
    (t.setModels c m).models c = m := by
  cases c <;> rfl

theorem models_setModels_ne (t : ConfigurationModel) {c d : Category} (h : d ≠ c)
    (m : c.ModelMap) : (t.setModels c m).models d = t.models d := by
  cases c <;> cases d <;> first | rfl | exact absurd rfl h

@[simp] theorem static_setModels (t : ConfigurationModel) (c : Category) (m : c.ModelMap) :
    (t.setModels c m).static = t.static := by
  cases c <;> rfl

@[simp] theorem dynamic_setModels (t : ConfigurationModel) (c : Category) (m : c.ModelMap) :
    (t.setModels c m).dynamic = t.dynamic := by
  cases c <;> rfl

theorem ext_models {t u : ConfigurationModel} (hs : t.static = u.static)
    (hd : t.dynamic = u.dynamic) (hm : ∀ c, t.models c = u.models c) : t = u := by
  cases t; cases u
  simp only at hs hd
  subst hs hd
  have h := fun c => hm c
  simp only [mk.injEq, true_and]
  exact ⟨h .audioUnit, h .streamInput, h .streamOutput, h .avbInterface, h .clockSource,
    h .memoryObject, h .locale, h .strings, h .streamPortInput, h .streamPortOutput,
    h .audioCluster, h .audioMap, h .control, h .clockDomain⟩

def upsert (t : ConfigurationModel) (c : Category) (index : UInt16) (f : c.Model → c.Model) :
    ConfigurationModel :=
  t.setModels c ((t.models c).upsert index f)

def counts (t : ConfigurationModel) : SortedMap DescriptorType Nat :=
  .ofList (Category.all.map fun c => (c.descriptorType, (t.models c).size))

def declared (t : ConfigurationModel) (c : Category) : Nat :=
  (t.static.descriptorCounts.getD c.descriptorType 0).toNat

def isComplete (t : ConfigurationModel) : Bool :=
  Category.all.all fun c => t.declared c == (t.models c).size

theorem isComplete_iff {t : ConfigurationModel} :
    t.isComplete ↔ ∀ c, t.declared c = (t.models c).size := by
  simp only [isComplete, List.all_eq_true, beq_iff_eq]
  exact ⟨fun h c => h c c.mem_all, fun h c _ => h c⟩

abbrev Models (c : Category) : Type := Json.Sparse UInt16 c.Model

set_option synthInstance.maxSize 1000 in
instance : Json.Record ConfigurationModel
    (ConfigurationStatic × ConfigurationDynamic × Models .audioUnit × Models .streamInput ×
      Models .streamOutput × Models .avbInterface × Models .clockSource × Models .memoryObject ×
      Models .locale × Models .strings × Models .streamPortInput × Models .streamPortOutput ×
      Models .audioCluster × Models .audioMap × Models .control × Models .clockDomain × Unit) where
  names := ["static_model", "dynamic_model", "audio_unit_models", "stream_input_models",
    "stream_output_models", "avb_interface_models", "clock_source_models", "memory_object_models",
    "locale_models", "strings_models", "stream_port_input_models", "stream_port_output_models",
    "audio_cluster_models", "audio_map_models", "control_models", "clock_domain_models"]
  split t := (t.static, t.dynamic, ⟨t.audioUnits⟩, ⟨t.streamInputs⟩, ⟨t.streamOutputs⟩,
    ⟨t.avbInterfaces⟩, ⟨t.clockSources⟩, ⟨t.memoryObjects⟩, ⟨t.locales⟩, ⟨t.strings⟩,
    ⟨t.streamPortInputs⟩, ⟨t.streamPortOutputs⟩, ⟨t.audioClusters⟩, ⟨t.audioMaps⟩, ⟨t.controls⟩,
    ⟨t.clockDomains⟩, ())
  join := fun (s, d, ⟨m1⟩, ⟨m2⟩, ⟨m3⟩, ⟨m4⟩, ⟨m5⟩, ⟨m6⟩, ⟨m7⟩, ⟨m8⟩, ⟨m9⟩, ⟨m10⟩, ⟨m11⟩, ⟨m12⟩, ⟨m13⟩, ⟨m14⟩, ()) =>
    ⟨s, d, m1, m2, m3, m4, m5, m6, m7, m8, m9, m10, m11, m12, m13, m14⟩
  join_split _ := rfl

end ConfigurationModel

structure EntityModel where
  static : EntityStatic := {}
  dynamic : EntityDynamic := {}
  configurations : SortedMap UInt16 ConfigurationModel := ∅
deriving DecidableEq

namespace EntityModel

instance : Inhabited EntityModel := ⟨{}⟩

def isEmpty (t : EntityModel) : Bool := t.configurations.isEmpty

def allComplete (t : EntityModel) : Bool := t.configurations.values.all ConfigurationModel.isComplete

theorem allComplete_iff {t : EntityModel} :
    t.allComplete = true ↔ ∀ c m, t.configurations.get? c = some m → m.isComplete = true := by
  simp only [allComplete, List.all_eq_true, SortedMap.mem_values]
  exact ⟨fun h c m found => h m ⟨c, found⟩, fun h m ⟨c, found⟩ => h c m found⟩

def isComplete (t : EntityModel) (configurationsCount : UInt16) : Bool :=
  configurationsCount.toNat == t.configurations.size && t.allComplete

theorem isComplete_iff {t : EntityModel} {count : UInt16} :
    t.isComplete count = true ↔ t.configurations.size = count.toNat ∧
      ∀ c m, t.configurations.get? c = some m → m.isComplete = true := by
  rw [isComplete, Bool.and_eq_true, beq_iff_eq, allComplete_iff, eq_comm]

def completeCount (t : EntityModel) : Nat :=
  t.configurations.values.countP ConfigurationModel.isComplete

theorem completeCount_pos_iff {t : EntityModel} :
    0 < t.completeCount ↔ ∃ c m, t.configurations.get? c = some m ∧ m.isComplete = true := by
  simp only [completeCount, List.countP_pos_iff, SortedMap.mem_values]
  exact ⟨fun ⟨m, ⟨c, found⟩, complete⟩ => ⟨c, m, found, complete⟩,
    fun ⟨c, m, found, complete⟩ => ⟨m, ⟨c, found⟩, complete⟩⟩

instance : Json.Record EntityModel
    (EntityStatic × EntityDynamic × Json.Lenient (SortedMap UInt16 ConfigurationModel) ×
      Unit) where
  names := ["static_model", "dynamic_model", "configuration_trees"]
  split t := (t.static, t.dynamic, ⟨t.configurations⟩, ())
  join := fun (s, d, ⟨c⟩, ()) => ⟨s, d, c⟩
  join_split _ := rfl

def toText (t : EntityModel) : String := (Json.encode t).pretty

def ofText? (s : String) : Option EntityModel := Json.ofText? s >>= Json.decode?

end EntityModel

end AvbEntity
