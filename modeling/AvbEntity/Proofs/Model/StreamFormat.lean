import AvbEntity.Proofs.Model.Each

namespace AvbEntity

namespace Category

def FormatAgrees : (c : Category) → c.Dynamic → Prop
  | .streamInput, m => ∀ told, m.info = some told → told.format = m.format
  | .streamOutput, m => ∀ told, m.info = some told → told.format = m.format
  | _, _ => True

theorem formatAgrees_default (c : Category) : c.FormatAgrees default := by
  cases c <;> first | exact trivial | exact nofun

end Category

namespace EntityModel

def format? (t : EntityModel) : Direction → UInt16 → UInt16 → Option UInt64
  | .input, configuration, index =>
    (t.find? ⟨.streamInput, configuration, index⟩).map fun m => m.dynamic.format
  | .output, configuration, index =>
    (t.find? ⟨.streamOutput, configuration, index⟩).map fun m => m.dynamic.format

def told? (t : EntityModel) : Direction → UInt16 → UInt16 → Option StreamInfo
  | .input, configuration, index =>
    (t.find? ⟨.streamInput, configuration, index⟩).bind fun m => m.dynamic.info
  | .output, configuration, index =>
    (t.find? ⟨.streamOutput, configuration, index⟩).bind fun m => m.dynamic.info

def FormatsAgree (t : EntityModel) : Prop :=
  ∀ d configuration index told, t.told? d configuration index = some told →
    t.format? d configuration index = some told.format

variable {t : EntityModel}

theorem each_formatAgrees_iff : t.Each (fun c m => c.FormatAgrees m.dynamic) ↔ t.FormatsAgree := by
  constructor
  · intro every d configuration index told found
    cases d with
    | input =>
      obtain ⟨m, there, has⟩ := Option.bind_eq_some_iff.mp found
      exact Option.map_eq_some_iff.mpr ⟨m, there, (every _ m there told has).symm⟩
    | output =>
      obtain ⟨m, there, has⟩ := Option.bind_eq_some_iff.mp found
      exact Option.map_eq_some_iff.mpr ⟨m, there, (every _ m there told has).symm⟩
  · rintro agree ⟨c, configuration, index⟩ m found
    cases c
    case streamInput =>
      intro told has
      have same := agree .input configuration index told (Option.bind_eq_some_iff.mpr ⟨m, found, has⟩)
      simpa [format?, found, eq_comm] using same
    case streamOutput =>
      intro told has
      have same := agree .output configuration index told (Option.bind_eq_some_iff.mpr ⟨m, found, has⟩)
      simpa [format?, found, eq_comm] using same
    all_goals exact trivial

theorem formatAgrees_getD (every : t.Each fun c m => c.FormatAgrees m.dynamic) (p : Place) :
    p.category.FormatAgrees ((t.find? p).getD default).dynamic := by
  cases found : t.find? p with
  | none => exact p.category.formatAgrees_default
  | some m => exact every p m found

theorem told?_input (t : EntityModel) (configuration index : UInt16) :
    t.told? .input configuration index =
      ((t.find? ⟨.streamInput, configuration, index⟩).getD default).dynamic.info := by
  rw [told?]
  cases t.find? ⟨.streamInput, configuration, index⟩ <;> rfl

theorem told?_output (t : EntityModel) (configuration index : UInt16) :
    t.told? .output configuration index =
      ((t.find? ⟨.streamOutput, configuration, index⟩).getD default).dynamic.info := by
  rw [told?]
  cases t.find? ⟨.streamOutput, configuration, index⟩ <;> rfl

end EntityModel

/-- Whether an operation that finds the formats agreeing leaves them so. A format may be set, and the
descriptor of a stream read, only if it is the format that was told or nothing was told; a change of a
stream's dynamic half from outside, and a model that is taken over or given, must have formats that agree. -/
def Operation.KeepsFormats (e : RemoteEntity) : Operation → Prop
  | .setModel t => t.FormatsAgree
  | .adopt kept d all => e.isAdvertised = false → e.accepts kept d all = true → kept.FormatsAgree
  | .setDescriptor .streamInput configuration index desc =>
    ∀ told, e.model.told? .input configuration index = some told → told.format = desc.format
  | .setDescriptor .streamOutput configuration index desc =>
    ∀ told, e.model.told? .output configuration index = some told → told.format = desc.format
  | .modifyDynamic c configuration index f =>
    c.FormatAgrees (f ((e.model.find? ⟨c, configuration, index⟩).getD default).dynamic)
  | .setFormat d index format =>
    ∀ told, e.model.told? d e.currentConfiguration index = some told → told.format = format
  | _ => True

namespace RemoteEntity

theorem keepsEach_formatAgrees_iff (e : RemoteEntity) (op : Operation)
    (every : e.model.Each fun c m => c.FormatAgrees m.dynamic) :
    op.KeepsEach (fun c m => c.FormatAgrees m.dynamic) e ↔ op.KeepsFormats e := by
  have known := EntityModel.formatAgrees_getD every
  have input := fun index => known ⟨.streamInput, e.currentConfiguration, index⟩
  have output := fun index => known ⟨.streamOutput, e.currentConfiguration, index⟩
  cases op with
  | setModel t => exact List.forall_mem_singleton.trans EntityModel.each_formatAgrees_iff
  | adopt kept d all =>
    simp only [Operation.KeepsEach, Operation.KeepsFormats, EntityModel.each_formatAgrees_iff]
  | setEntityDescriptor d => exact iff_of_true (Operation.keepsEach_setEntityDescriptor e d) trivial
  | setDescriptor c configuration index desc =>
    refine List.forall_mem_singleton.trans ?_
    cases c
    case streamInput =>
      rw [Operation.KeepsFormats, EntityModel.told?_input]
      exact Iff.rfl
    case streamOutput =>
      rw [Operation.KeepsFormats, EntityModel.told?_output]
      exact Iff.rfl
    all_goals exact Iff.rfl
  | modifyStatic c configuration index f =>
    exact List.forall_mem_singleton.trans (iff_of_true (known ⟨c, configuration, index⟩) trivial)
  | modifyDynamic c configuration index f => exact List.forall_mem_singleton.trans Iff.rfl
  | setObjectName c configuration index name =>
    refine List.forall_mem_singleton.trans (iff_of_true ?_ trivial)
    obtain ⟨c, named⟩ := c
    cases c
    case streamInput => exact known ⟨.streamInput, configuration, index⟩
    case streamOutput => exact known ⟨.streamOutput, configuration, index⟩
    all_goals exact trivial
  | setFormat d index format =>
    cases d with
    | input =>
      rw [Operation.KeepsFormats, EntityModel.told?_input]
      exact List.forall_mem_singleton
    | output =>
      rw [Operation.KeepsFormats, EntityModel.told?_output]
      exact List.forall_mem_singleton
  | setStreamInfo d index info =>
    have told : ∀ other, some info = some other → other.format = info.format := by
      intro other same
      rw [Option.some.inj same]
    cases d <;> exact iff_of_true (List.forall_mem_singleton.mpr told) trivial
  -- The operations from here on leave both the format and what was told as they are.
  | setRunning d index running =>
    cases d with
    | input => exact iff_of_true (List.forall_mem_singleton.mpr (input index)) trivial
    | output => exact iff_of_true (List.forall_mem_singleton.mpr (output index)) trivial
  | setConnection index connection =>
    exact iff_of_true (List.forall_mem_singleton.mpr (input index)) trivial
  | clearListeners index | addListener index listener | removeListener index listener =>
    exact iff_of_true (List.forall_mem_singleton.mpr (output index)) trivial
  | setCounters counted told =>
    rcases counted with _ | _ | _ | ⟨_ | _, index⟩
    case stream.input => exact iff_of_true (List.forall_mem_singleton.mpr (input index)) trivial
    case stream.output => exact iff_of_true (List.forall_mem_singleton.mpr (output index)) trivial
    all_goals exact iff_of_true (List.forall_mem_singleton.mpr trivial) trivial
  | clearMappings d index | addMappings d index ms | removeMappings d index ms =>
    cases d <;> exact iff_of_true (List.forall_mem_singleton.mpr trivial) trivial
  | setCurrentConfiguration | setStrings =>
    exact iff_of_true (List.forall_mem_cons.mpr ⟨trivial, List.forall_mem_singleton.mpr trivial⟩) trivial
  | _ =>
    first
    | exact iff_of_true (List.forall_mem_nil _) trivial
    | exact iff_of_true (List.forall_mem_singleton.mpr trivial) trivial

/-- In every state of a run what was told of a stream has the stream's format exactly if each operation keeps
it so: what is told brings the format with it, and a format is set, or a stream's descriptor read, only if
nothing was told of the stream or that same format was. -/
theorem formats_agree_throughout_iff (identity : EntityIdentity) (settings : Settings) (now : Duration)
    (ops : List Operation) :
    let start := new identity settings now
    (∀ before after, ops = before ++ after → (start.run before).model.FormatsAgree) ↔
      ∀ before op after, ops = before ++ op :: after → op.KeepsFormats (start.run before) := by
  intro start
  simp only [← EntityModel.each_formatAgrees_iff]
  exact each_throughout_iff keepsEach_formatAgrees_iff identity settings now ops

/-- A format that is set, or read with the descriptor, after something was told of the stream leaves what was
told with the format of before. -/
theorem told_format_left_behind :
    let told := (new {} {} .zero).run [.setStreamInfo .input 0 { format := 1 }]
    let set := (told.apply (.setFormat .input 0 2)).model
    let read := (told.apply (.setDescriptor .streamInput 0 0 { format := 2 })).model
    (set.format? .input 0 0 = some 2 ∧ set.told? .input 0 0 = some { format := 1 }) ∧
      read.format? .input 0 0 = some 2 ∧ read.told? .input 0 0 = some { format := 1 } := by
  decide

end RemoteEntity

end AvbEntity
