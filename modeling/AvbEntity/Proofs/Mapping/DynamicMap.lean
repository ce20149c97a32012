import AvbEntity.Proofs.Entity.Access
import AvbEntity.Proofs.Model.Each

namespace AvbEntity

def StreamPortStatic.MarkAgrees (s : StreamPortStatic) : Prop := s.hasDynamicMap = true ↔ s.mapCount = 0

def AudioMapping.addAll : Direction → List AudioMapping → List AudioMapping → List AudioMapping
  | .input => addInputs
  | .output => addOutputs

def Category.MarkAgrees : (c : Category) → c.Model → Prop
  | .streamPortInput, m => m.static.MarkAgrees
  | .streamPortOutput, m => m.static.MarkAgrees
  | _, _ => True

namespace EntityModel

def port? (t : EntityModel) :
    Direction → UInt16 → UInt16 → Option (DescriptorModel StreamPortStatic StreamPortDynamic)
  | .input, configuration, index => t.find? ⟨.streamPortInput, configuration, index⟩
  | .output, configuration, index => t.find? ⟨.streamPortOutput, configuration, index⟩

def MarksAgree (t : EntityModel) : Prop :=
  ∀ d configuration index port, t.port? d configuration index = some port → port.static.MarkAgrees

variable {t : EntityModel}

theorem each_markAgrees_iff : t.Each Category.MarkAgrees ↔ t.MarksAgree := by
  constructor
  · intro every d configuration index port found
    cases d with
    | input => exact every ⟨.streamPortInput, configuration, index⟩ port found
    | output => exact every ⟨.streamPortOutput, configuration, index⟩ port found
  · rintro agree ⟨c, configuration, index⟩ m found
    cases c
    case streamPortInput => exact agree .input configuration index m found
    case streamPortOutput => exact agree .output configuration index m found
    all_goals exact trivial

theorem markAgrees_getD_iff (agree : t.MarksAgree) (d : Direction) (configuration index : UInt16) :
    ((t.port? d configuration index).getD default).static.MarkAgrees ↔
      (t.port? d configuration index).isSome = true := by
  cases found : t.port? d configuration index with
  | none => exact iff_of_false (fun agrees => Bool.false_ne_true (agrees.mpr rfl)) Bool.false_ne_true
  | some port => exact iff_of_true (agree d configuration index port found) rfl

end EntityModel

/-- Whether an operation that finds the marks agreeing leaves them so. Mappings must be changed of known ports
only; a change of a port's static half from outside, and a model that is taken over or given, must have marks
that agree. -/
def Operation.KeepsMarks (e : RemoteEntity) : Operation → Prop
  | .setModel t => t.MarksAgree
  | .adopt kept d all => e.isAdvertised = false → e.accepts kept d all = true → kept.MarksAgree
  | .modifyStatic .streamPortInput configuration index f =>
    (f ((e.model.port? .input configuration index).getD default).static).MarkAgrees
  | .modifyStatic .streamPortOutput configuration index f =>
    (f ((e.model.port? .output configuration index).getD default).static).MarkAgrees
  | .modifyDynamic .streamPortInput configuration index _ =>
    (e.model.port? .input configuration index).isSome = true
  | .modifyDynamic .streamPortOutput configuration index _ =>
    (e.model.port? .output configuration index).isSome = true
  | .clearMappings d index | .addMappings d index _ | .removeMappings d index _ =>
    (e.model.port? d e.currentConfiguration index).isSome = true
  | _ => True

namespace RemoteEntity

theorem keepsEach_markAgrees_iff (e : RemoteEntity) (op : Operation)
    (every : e.model.Each Category.MarkAgrees) : op.KeepsEach Category.MarkAgrees e ↔ op.KeepsMarks e := by
  have known := EntityModel.markAgrees_getD_iff (EntityModel.each_markAgrees_iff.mp every)
  cases op with
  | setModel t => exact List.forall_mem_singleton.trans EntityModel.each_markAgrees_iff
  | adopt kept d all =>
    simp only [Operation.KeepsEach, Operation.KeepsMarks, EntityModel.each_markAgrees_iff]
  | setEntityDescriptor d => exact iff_of_true (Operation.keepsEach_setEntityDescriptor e d) trivial
  | setDescriptor c configuration index d =>
    refine List.forall_mem_singleton.trans (iff_of_true ?_ trivial)
    cases c
    case streamPortInput => exact beq_iff_eq
    case streamPortOutput => exact beq_iff_eq
    all_goals exact trivial
  | modifyStatic c configuration index f =>
    refine List.forall_mem_singleton.trans ?_
    cases c <;> exact Iff.rfl
  | modifyDynamic c configuration index f =>
    -- A dynamic half brings no mark: all depends on whether the port was known.
    refine List.forall_mem_singleton.trans ?_
    cases c
    case streamPortInput => exact known .input configuration index
    case streamPortOutput => exact known .output configuration index
    all_goals exact Iff.rfl
  | clearMappings d index | addMappings d index ms | removeMappings d index ms =>
    cases d
    · exact List.forall_mem_singleton.trans (known .input e.currentConfiguration index)
    · exact List.forall_mem_singleton.trans (known .output e.currentConfiguration index)
  | setObjectName c configuration index name =>
    obtain ⟨c, named⟩ := c
    refine List.forall_mem_singleton.trans (iff_of_true ?_ trivial)
    cases c <;> first | exact trivial | cases named
  | setFormat d | setStreamInfo d | setRunning d =>
    cases d <;> exact List.forall_mem_singleton.trans Iff.rfl
  | setCounters counted told =>
    rcases counted with _ | _ | _ | ⟨_ | _, _⟩ <;> exact List.forall_mem_singleton.trans Iff.rfl
  | setCurrentConfiguration | setStrings =>
    exact iff_of_true (List.forall_mem_cons.mpr ⟨trivial, List.forall_mem_singleton.mpr trivial⟩) trivial
  | _ =>
    first
    | exact iff_of_true (List.forall_mem_nil _) trivial
    | exact iff_of_true (List.forall_mem_singleton.mpr trivial) trivial

theorem mappings_eq_ok_iff {e : RemoteEntity} {d : Direction} {index : UInt16} {l : List AudioMapping} :
    e.mappings d index = .ok l ↔
      e.Readable ∧ ∃ port, e.model.port? d e.currentConfiguration index = some port ∧
        port.static.hasDynamicMap = true ∧ l = port.dynamic.mappings := by
  have read : ∀ port, e.readPort d index = .ok port ↔
      e.Readable ∧ e.model.port? d e.currentConfiguration index = some port := by
    intro port
    cases d <;> exact readDescriptor_eq_ok_iff
  unfold mappings
  cases found : e.readPort d index with
  | error fault =>
    have closed : ¬ (e.Readable ∧ ∃ port, e.model.port? d e.currentConfiguration index = some port ∧
        port.static.hasDynamicMap = true ∧ l = port.dynamic.mappings) := by
      rintro ⟨readable, port, there, -⟩
      have opened := (read port).mpr ⟨readable, there⟩
      rw [found] at opened
      cases opened
    exact iff_of_false nofun closed
  | ok port =>
    obtain ⟨readable, there⟩ := (read port).mp found
    simp only [bind, Except.bind, readable, there, Option.some.injEq, true_and, exists_eq_left']
    split
    next marked => simp [marked, eq_comm]
    next unmarked => simp [unmarked]

theorem port?_addMappings (e : RemoteEntity) (d : Direction) (index : UInt16) (ms : List AudioMapping) :
    (e.addMappings d index ms).model.port? d e.currentConfiguration index =
      let port := (e.model.port? d e.currentConfiguration index).getD default
      some { port with
        dynamic := { port.dynamic with mappings := AudioMapping.addAll d port.dynamic.mappings ms } } := by
  cases d
  · exact EntityModel.find?_modifyPlace_self e.model ⟨.streamPortInput, e.currentConfiguration, index⟩ _
  · exact EntityModel.find?_modifyPlace_self e.model ⟨.streamPortOutput, e.currentConfiguration, index⟩ _

/-- Where the marks agree, added mappings are read back of a port that is known and declares no AUDIO_MAP
descriptor, and of no other. -/
theorem mappings_addMappings_iff {e : RemoteEntity} (readable : e.Readable) (agree : e.model.MarksAgree)
    (d : Direction) (index : UInt16) (ms l : List AudioMapping) :
    (e.addMappings d index ms).mappings d index = .ok l ↔
      ∃ port, e.model.port? d e.currentConfiguration index = some port ∧ port.static.mapCount = 0 ∧
        l = AudioMapping.addAll d port.dynamic.mappings ms := by
  have open_after : (e.addMappings d index ms).Readable := by
    cases d <;> exact readable
  have same : (e.addMappings d index ms).currentConfiguration = e.currentConfiguration := by
    cases d <;> rfl
  rw [mappings_eq_ok_iff, same, port?_addMappings]
  simp only [open_after, true_and, Option.some.injEq, exists_eq_left']
  cases found : e.model.port? d e.currentConfiguration index with
  | none => exact iff_of_false (fun read => Bool.false_ne_true read.1) nofun
  | some port =>
    have agrees : port.static.hasDynamicMap = true ↔ port.static.mapCount = 0 :=
      agree d e.currentConfiguration index port found
    simp [agrees]

/-- In every state of a run the marks agree with what the ports declare exactly if each operation keeps
them so. After any run that leaves the model readable and the marks agreeing, added mappings are read back of
the known ports of the current configuration that declare no AUDIO_MAP descriptor. -/
theorem marks_agree_throughout_iff (identity : EntityIdentity) (settings : Settings) (now : Duration)
    (ops : List Operation) :
    let start := new identity settings now
    let e := start.run ops
    ((∀ before after, ops = before ++ after → (start.run before).model.MarksAgree) ↔
        ∀ before op after, ops = before ++ op :: after → op.KeepsMarks (start.run before)) ∧
      (e.Readable → e.model.MarksAgree → ∀ d index ms l,
        (e.apply (.addMappings d index ms)).mappings d index = .ok l ↔
          ∃ port, e.model.port? d e.currentConfiguration index = some port ∧ port.static.mapCount = 0 ∧
            l = AudioMapping.addAll d port.dynamic.mappings ms) := by
  intro start e
  constructor
  · simp only [← EntityModel.each_markAgrees_iff]
    exact each_throughout_iff keepsEach_markAgrees_iff identity settings now ops
  · intro readable agree d index ms l
    exact mappings_addMappings_iff readable agree d index ms l

theorem mappings_of_known_port :
    let e := (new { capabilities := .aemSupported } {} .zero).run [.setDescriptor .streamPortInput 0 0 default]
    e.Readable ∧ e.model.MarksAgree ∧
      (e.apply (.addMappings .input 0 [⟨0, 0, 0, 0⟩])).mappings .input 0 = .ok [⟨0, 0, 0, 0⟩] := by
  intro e
  obtain ⟨throughout, read_back⟩ := marks_agree_throughout_iff { capabilities := .aemSupported } {} .zero
    [.setDescriptor .streamPortInput 0 0 default]
  have readable : e.Readable := by decide
  have agree : e.model.MarksAgree := by
    refine throughout.mpr ?_ _ [] (List.append_nil _).symm
    intro before op after split
    cases before with
    | nil =>
      cases split
      exact trivial
    | cons first before => simp at split
  exact ⟨readable, agree, (read_back readable agree .input 0 _ _).mpr ⟨_, rfl, rfl, rfl⟩⟩

/-- A port that comes to exist as mappings are added to it declares no AUDIO_MAP descriptor and is not
marked, so that the mappings it has cannot be read back. -/
theorem mappings_of_unknown_port :
    let e := (new { capabilities := .aemSupported } {} .zero).run [.addMappings .input 0 [⟨0, 0, 0, 0⟩]]
    e.Readable ∧ ¬ e.model.MarksAgree ∧
      (∃ port, e.model.port? .input e.currentConfiguration 0 = some port ∧ port.static.mapCount = 0 ∧
        port.static.hasDynamicMap = false ∧ port.dynamic.mappings = [⟨0, 0, 0, 0⟩]) ∧
      ∀ l, e.mappings .input 0 ≠ .ok l := by
  refine ⟨by decide, fun agree => ?_, ⟨_, rfl, rfl, rfl, rfl⟩, nofun⟩
  exact Bool.false_ne_true ((agree .input 0 0 _ rfl).mpr rfl)

end RemoteEntity

end AvbEntity
