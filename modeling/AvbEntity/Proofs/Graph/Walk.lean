import AvbEntity.Entity.Read
import AvbEntity.Proofs.Graph.CrossReference
import Mathlib.Data.List.Lex
import Mathlib.Data.List.Sort

namespace AvbEntity

namespace Graph

/-- The step from a node to one of its children. A source of a clock domain is told by its position in the
declaration, as one source may stand there twice. -/
inductive Step where
  | configuration (index : UInt16)
  | audioUnit (index : UInt16)
  | streamPort (d : Direction) (index : UInt16)
  | audioCluster (index : UInt16)
  | audioMap (index : UInt16)
  | stream (d : Direction) (index : UInt16)
  | avbInterface (index : UInt16)
  | clockSource (index : UInt16)
  | memoryObject (index : UInt16)
  | locale (index : UInt16)
  | strings (index : UInt16)
  | control (index : UInt16)
  | clockDomain (index : UInt16)
  | clockDomainSource (position : Nat)
  | redundantGroup (d : Direction) (index : UInt16)

abbrev Path := List Step

def Step.kind : Step → Nat
  | .configuration _ => 0
  | .audioUnit _ => 1
  | .streamPort .input _ => 2
  | .streamPort .output _ => 3
  | .audioCluster _ => 4
  | .audioMap _ => 5
  | .stream .input _ => 6
  | .stream .output _ => 7
  | .avbInterface _ => 8
  | .clockSource _ => 9
  | .memoryObject _ => 10
  | .locale _ => 11
  | .strings _ => 12
  | .control _ => 13
  | .clockDomain _ => 14
  | .clockDomainSource _ => 15
  | .redundantGroup .input _ => 16
  | .redundantGroup .output _ => 17

def Step.index : Step → Nat
  | .clockDomainSource position => position
  | .configuration i | .audioUnit i | .streamPort _ i | .audioCluster i | .audioMap i | .stream _ i
  | .avbInterface i | .clockSource i | .memoryObject i | .locale i | .strings i | .control i
  | .clockDomain i | .redundantGroup _ i => i.toNat

/-- Whether a walk has to come to one occurrence before another: to a node before its children, and to a
child before those of its kind with a higher index. -/
inductive Precedes : Path → Path → Prop where
  | parent (p : Path) (s : Step) : Precedes p (p ++ [s])
  | sibling (p : Path) {a b : Step} (kind : a.kind = b.kind) (index : a.index < b.index) :
    Precedes (p ++ [a]) (p ++ [b])

def inactive (current : UInt16) : Path → Bool
  | .configuration index :: _ :: _ => index != current
  | _ => false

def leaf (v : Visit) : Path → Option Visit
  | [] => some v
  | _ :: _ => none

def StreamPort.visitAt (c : Configuration) (d : Direction) (unit : AudioUnit) (port : StreamPort) :
    Path → Option Visit
  | [] => some (.streamPort d c unit port)
  | .audioCluster i :: rest =>
    if i ∈ port.audioClusters then leaf (.audioCluster d c port i) rest else none
  | .audioMap i :: rest => if i ∈ port.audioMaps then leaf (.audioMap d c port i) rest else none
  | _ :: _ => none

def AudioUnit.visitAt (c : Configuration) (unit : AudioUnit) : Path → Option Visit
  | [] => some (.audioUnit c unit)
  | .streamPort d i :: rest => ((unit.ports d).get? i).bind fun port => port.visitAt c d unit rest
  | _ :: _ => none

def Locale.visitAt (c : Configuration) (locale : Locale) : Path → Option Visit
  | [] => some (.locale c locale)
  | .strings i :: rest => if i ∈ locale.strings then leaf (.strings c locale i) rest else none
  | _ :: _ => none

def ClockDomain.visitAt (c : Configuration) (domain : ClockDomain) : Path → Option Visit
  | [] => some (.clockDomain c domain)
  | .clockDomainSource position :: rest =>
    domain.clockSources[position]?.bind fun i => leaf (.clockDomainSource c domain i) rest
  | _ :: _ => none

def Configuration.visitAt (c : Configuration) : Path → Option Visit
  | [] => some (.configuration c)
  | .audioUnit i :: rest => (c.audioUnits.get? i).bind fun unit => unit.visitAt c rest
  | .stream d i :: rest => ((c.streams d).get? i).bind fun node => leaf (.stream d c node) rest
  | .avbInterface i :: rest => if i ∈ c.avbInterfaces then leaf (.avbInterface c i) rest else none
  | .clockSource i :: rest => if i ∈ c.clockSources then leaf (.clockSource c i) rest else none
  | .memoryObject i :: rest => if i ∈ c.memoryObjects then leaf (.memoryObject c i) rest else none
  | .locale i :: rest => (c.locales.get? i).bind fun locale => locale.visitAt c rest
  | .control i :: rest => if i ∈ c.controls then leaf (.control c i) rest else none
  | .clockDomain i :: rest => (c.clockDomains.get? i).bind fun domain => domain.visitAt c rest
  | .redundantGroup d i :: rest =>
    ((c.redundancy d).groups.get? i).bind fun group => leaf (.redundantGroup d c group) rest
  | _ :: _ => none

/-- What a visit of an occurrence hands out: the node that is there, with the configuration and the node
that hold it. None if the path leads nowhere. -/
def visitAt (g : Graph) : Path → Option Visit
  | [] => some (.entity g)
  | .configuration i :: rest => (g.configurations.get? i).bind fun c => c.visitAt rest
  | _ :: _ => none

def Step.Before (a b : Step) : Prop :=
  a.kind < b.kind ∨ a.kind = b.kind ∧ a.index < b.index

instance : Std.Asymm Step.Before where
  asymm a b before after := by
    unfold Step.Before at before after
    omega

theorem Precedes.lex {p q : Path} (precedes : Precedes p q) : List.Lex Step.Before p q := by
  cases precedes with
  | parent p s =>
    have below : List.Lex Step.Before [] [s] := .nil
    simpa using List.Lex.append_left Step.Before below p
  | sibling p kind index => exact List.Lex.append_left Step.Before (.rel (.inr ⟨kind, index⟩)) p

structure Lists (f : Path → Option Visit) (paths : List Path) (visits : List Visit) : Prop where
  visits_eq : paths.map f = visits.map some
  complete : ∀ p, (f p).isSome = true → p ∈ paths
  ascending : paths.Pairwise (List.Lex Step.Before)

def Enumerates (f : Path → Option Visit) (visits : List Visit) : Prop :=
  ∃ paths, Lists f paths visits

theorem Lists.mem_iff {f : Path → Option Visit} {paths : List Path} {visits : List Visit}
    (lists : Lists f paths visits) (p : Path) : p ∈ paths ↔ (f p).isSome = true := by
  refine ⟨fun member => ?_, lists.complete p⟩
  have visited : f p ∈ visits.map some := lists.visits_eq ▸ List.mem_map_of_mem member
  obtain ⟨v, -, same⟩ := List.mem_map.mp visited
  rw [← same]
  rfl

theorem Lists.nodup {f : Path → Option Visit} {paths : List Path} {visits : List Visit}
    (lists : Lists f paths visits) : paths.Nodup :=
  lists.ascending.imp fun {p q} before => by
    rintro rfl
    exact Std.Asymm.asymm p p before before

theorem enumerates_leaf (v : Visit) : Enumerates (leaf v) [v] := by
  refine ⟨[[]], rfl, fun p found => ?_, List.pairwise_singleton ..⟩
  cases p with
  | nil => exact List.mem_singleton.mpr rfl
  | cons s rest => cases found

structure Threads (f : Path → Option Visit) (steps : List Step) (paths : List Path) (visits : List Visit) :
    Prop where
  visits_eq : paths.map f = visits.map some
  complete : ∀ s ∈ steps, ∀ rest, (f (s :: rest)).isSome = true → s :: rest ∈ paths
  ascending : paths.Pairwise (List.Lex Step.Before)
  through : ∀ p ∈ paths, ∃ s ∈ steps, ∃ rest, p = s :: rest

section Threads

variable {f : Path → Option Visit}

theorem threads_nil : Threads f [] [] [] where
  visits_eq := rfl
  complete _ member := nomatch member
  ascending := .nil
  through _ member := nomatch member

theorem Lists.threads {s : Step} {paths : List Path} {visits : List Visit}
    (lists : Lists (fun rest => f (s :: rest)) paths visits) :
    Threads f [s] (paths.map (s :: ·)) visits where
  visits_eq := by
    rw [List.map_map]
    exact lists.visits_eq
  complete t member rest found := by
    obtain rfl := List.mem_singleton.mp member
    exact List.mem_map_of_mem (lists.complete rest found)
  ascending := List.pairwise_map.mpr (lists.ascending.imp .cons)
  through p member := by
    obtain ⟨rest, -, rfl⟩ := List.mem_map.mp member
    exact ⟨s, List.mem_singleton.mpr rfl, rest, rfl⟩

theorem Threads.append {steps later : List Step} {paths others : List Path} {visits rest : List Visit}
    (left : Threads f steps paths visits) (right : Threads f later others rest)
    (apart : ∀ s ∈ steps, ∀ t ∈ later, s.Before t) :
    Threads f (steps ++ later) (paths ++ others) (visits ++ rest) where
  visits_eq := by rw [List.map_append, List.map_append, left.visits_eq, right.visits_eq]
  complete s member tail found := by
    rcases List.mem_append.mp member with first | second
    · exact List.mem_append_left _ (left.complete s first tail found)
    · exact List.mem_append_right _ (right.complete s second tail found)
  ascending := by
    refine List.pairwise_append.mpr ⟨left.ascending, right.ascending, fun p first q second => ?_⟩
    obtain ⟨s, inside, tail, rfl⟩ := left.through p first
    obtain ⟨t, insideToo, tailToo, rfl⟩ := right.through q second
    exact .rel (apart s inside t insideToo)
  through p member := by
    rcases List.mem_append.mp member with first | second
    · obtain ⟨s, inside, tail⟩ := left.through p first
      exact ⟨s, List.mem_append_left _ inside, tail⟩
    · obtain ⟨s, inside, tail⟩ := right.through p second
      exact ⟨s, List.mem_append_right _ inside, tail⟩

theorem exists_threads {α : Type} {entries : List α} {step : α → Step} {visits : α → List Visit}
    (ascending : entries.Pairwise fun a b => (step a).Before (step b))
    (below : ∀ a ∈ entries, Enumerates (fun rest => f (step a :: rest)) (visits a)) :
    ∃ paths, Threads f (entries.map step) paths (entries.flatMap visits) := by
  induction entries with
  | nil => exact ⟨[], threads_nil⟩
  | cons a entries ih =>
    obtain ⟨first, ascending⟩ := List.pairwise_cons.mp ascending
    obtain ⟨paths, lists⟩ := below a List.mem_cons_self
    obtain ⟨others, threads⟩ := ih ascending fun b member => below b (List.mem_cons_of_mem _ member)
    refine ⟨_, lists.threads.append threads fun s here t later => ?_⟩
    obtain rfl := List.mem_singleton.mp here
    obtain ⟨b, member, rfl⟩ := List.mem_map.mp later
    exact first b member

end Threads

/-- Whether some visits are those of the children of a node that some steps lead to, of kinds below a bound,
and of all below them. -/
structure Branches (f : Path → Option Visit) (bound : Nat) (steps : List Step) (visits : List Visit) :
    Prop where
  bounded : ∀ s ∈ steps, s.kind < bound
  exists_paths : ∃ paths, Threads f steps paths visits

namespace Branches

variable {f : Path → Option Visit} {bound : Nat} {steps : List Step} {visits : List Visit}

theorem nil : Branches f 0 [] [] := ⟨fun _ member => (nomatch member), [], threads_nil⟩

theorem add (branches : Branches f bound steps visits) {α : Type} {entries : List α} (k : Nat)
    (later : bound ≤ k) (step : α → Step) (kind : ∀ a, (step a).kind = k) {own : α → List Visit}
    (ascending : entries.Pairwise fun a b => (step a).index < (step b).index)
    (below : ∀ a ∈ entries, Enumerates (fun rest => f (step a :: rest)) (own a)) :
    Branches f (k + 1) (steps ++ entries.map step) (visits ++ entries.flatMap own) where
  bounded s member := by
    rcases List.mem_append.mp member with earlier | here
    · exact Nat.lt_succ_of_lt (Nat.lt_of_lt_of_le (branches.bounded s earlier) later)
    · obtain ⟨a, -, rfl⟩ := List.mem_map.mp here
      exact Nat.lt_succ_of_le (Nat.le_of_eq (kind a))
  exists_paths := by
    have ordered : entries.Pairwise fun a b => (step a).Before (step b) :=
      ascending.imp fun {a b} lower => .inr ⟨(kind a).trans (kind b).symm, lower⟩
    obtain ⟨paths, earlier⟩ := branches.exists_paths
    obtain ⟨others, threads⟩ := exists_threads ordered below
    refine ⟨_, earlier.append threads fun s member t here => ?_⟩
    obtain ⟨a, -, rfl⟩ := List.mem_map.mp here
    have lower : s.kind < (step a).kind :=
      kind a ▸ Nat.lt_of_lt_of_le (branches.bounded s member) later
    exact .inl lower

theorem addMap (branches : Branches f bound steps visits) (k : Nat) (later : bound ≤ k)
    (step : UInt16 → Step) (row : ∀ i, (step i).kind = k ∧ (step i).index = i.toNat)
    {α : Type} {m : SortedMap UInt16 α} {child : α → Path → Option Visit} {own : α → List Visit}
    (found : ∀ i rest, f (step i :: rest) = (m.get? i).bind fun a => child a rest)
    (below : ∀ a, Enumerates (child a) (own a)) :
    Branches f (k + 1) (steps ++ m.keys.map step) (visits ++ m.values.flatMap own) := by
  rw [SortedMap.keys, SortedMap.values, List.map_map, List.flatMap_map]
  refine branches.add k later (fun e : UInt16 × α => step e.1) (fun e => (row e.1).1) ?_
    fun e member => ?_
  · exact m.ascending.imp fun lower => by rwa [(row _).2, (row _).2]
  · have known := SortedMap.get?_eq_some_iff.mpr member
    simp only [found, known, Option.bind_some]
    exact below e.2

theorem addLeaves (branches : Branches f bound steps visits) (k : Nat) (later : bound ≤ k)
    (step : UInt16 → Step) (row : ∀ i, (step i).kind = k ∧ (step i).index = i.toNat)
    {α : Type} {m : SortedMap UInt16 α} {own : α → Visit}
    (found : ∀ i rest, f (step i :: rest) = (m.get? i).bind fun a => leaf (own a) rest) :
    Branches f (k + 1) (steps ++ m.keys.map step) (visits ++ m.values.map own) := by
  rw [List.map_eq_flatMap (f := own)]
  exact branches.addMap k later step row found fun a => enumerates_leaf (own a)

theorem addSet (branches : Branches f bound steps visits) (k : Nat) (later : bound ≤ k)
    (step : UInt16 → Step) (row : ∀ i, (step i).kind = k ∧ (step i).index = i.toNat)
    {members : SortedSet UInt16} {own : UInt16 → Visit}
    (found : ∀ i rest, f (step i :: rest) = if i ∈ members then leaf (own i) rest else none) :
    Branches f (k + 1) (steps ++ members.toList.map step) (visits ++ members.toList.map own) := by
  rw [List.map_eq_flatMap (f := own)]
  refine branches.add k later step (fun i => (row i).1) ?_ fun i member => ?_
  · exact members.ascending.imp fun lower => by rwa [(row _).2, (row _).2]
  · have known : i ∈ members := member
    simp only [found, if_pos known]
    exact enumerates_leaf (own i)

theorem node (branches : Branches f bound steps visits) {own : Visit} (here : f [] = some own)
    (covered : ∀ s rest, (f (s :: rest)).isSome = true → s ∈ steps) :
    Enumerates f (own :: visits) := by
  obtain ⟨paths, threads⟩ := branches.exists_paths
  refine ⟨[] :: paths, ?_, ?_, ?_⟩
  · rw [List.map_cons, List.map_cons, here, threads.visits_eq]
  · intro p found
    cases p with
    | nil => exact List.mem_cons_self
    | cons s rest => exact List.mem_cons_of_mem _ (threads.complete s (covered s rest found) rest found)
  · refine List.pairwise_cons.mpr ⟨fun p member => ?_, threads.ascending⟩
    obtain ⟨s, -, rest, rfl⟩ := threads.through p member
    exact .nil

end Branches

theorem mem_of_isSome {members : SortedSet UInt16} {i : UInt16} {v : Option Visit}
    (found : (if i ∈ members then v else none).isSome = true) : i ∈ members.toList := by
  split at found
  · assumption
  · cases found

theorem mem_keys_of_isSome {α : Type} {m : SortedMap UInt16 α} {i : UInt16} {child : α → Option Visit}
    (found : ((m.get? i).bind child).isSome = true) : i ∈ m.keys := by
  rw [← SortedMap.contains_iff_mem_keys]
  exact Option.isSome_of_isSome_bind found

section Configuration

variable (c : Configuration)

theorem enumerates_portVisits (d : Direction) (unit : AudioUnit) (port : StreamPort) :
    Enumerates (port.visitAt c d unit) (c.portVisits d unit port) := by
  have children := Branches.nil (f := port.visitAt c d unit)
    |>.addSet 4 (by decide) .audioCluster (fun _ => ⟨rfl, rfl⟩) (fun _ _ => rfl)
    |>.addSet 5 (by decide) .audioMap (fun _ => ⟨rfl, rfl⟩) (fun _ _ => rfl)
  refine children.node rfl fun s rest found => ?_
  cases s with
  | audioCluster i | audioMap i => simp [mem_of_isSome found]
  | _ => cases found

theorem enumerates_audioUnitVisits (unit : AudioUnit) :
    Enumerates (unit.visitAt c) (c.audioUnitVisits unit) := by
  have children := Branches.nil (f := unit.visitAt c)
    |>.addMap 2 (by decide) (.streamPort .input) (fun _ => ⟨rfl, rfl⟩) (fun _ _ => rfl)
      (enumerates_portVisits c .input unit)
    |>.addMap 3 (by decide) (.streamPort .output) (fun _ => ⟨rfl, rfl⟩) (fun _ _ => rfl)
      (enumerates_portVisits c .output unit)
  refine children.node rfl fun s rest found => ?_
  cases s with
  | streamPort d i =>
    have known := mem_keys_of_isSome found
    cases d <;> simpa [AudioUnit.ports] using known
  | _ => cases found

theorem enumerates_localeVisits (locale : Locale) :
    Enumerates (locale.visitAt c) (c.localeVisits locale) := by
  have children := Branches.nil (f := locale.visitAt c)
    |>.addSet 12 (by decide) .strings (fun _ => ⟨rfl, rfl⟩) (fun _ _ => rfl)
  refine children.node rfl fun s rest found => ?_
  cases s with
  | strings i => simp [mem_of_isSome found]
  | _ => cases found

theorem enumerates_clockDomainVisits (domain : ClockDomain) :
    Enumerates (domain.visitAt c) (c.clockDomainVisits domain) := by
  have ascending : domain.clockSources.zipIdx.Pairwise fun a b => a.2 < b.2 := by
    rw [← List.pairwise_map (f := Prod.snd), List.zipIdx_map_snd]
    exact List.pairwise_lt_range'
  have below : ∀ e ∈ domain.clockSources.zipIdx,
      Enumerates (fun rest => domain.visitAt c (.clockDomainSource e.2 :: rest))
        [.clockDomainSource c domain e.1] := by
    intro e member
    have known := List.mem_zipIdx_iff_getElem?.mp member
    simp only [ClockDomain.visitAt, known, Option.bind_some]
    exact enumerates_leaf _
  have visits : domain.clockSources.zipIdx.flatMap (fun e => [Visit.clockDomainSource c domain e.1]) =
      domain.clockSources.map (.clockDomainSource c domain) := by
    conv => rhs; rw [← List.zipIdx_map_fst 0 domain.clockSources, List.map_map]
    exact List.map_eq_flatMap.symm
  have children := Branches.nil.add 15 (by decide) _ (fun _ => rfl) ascending below
  rw [visits] at children
  refine children.node rfl fun s rest found => ?_
  cases s with
  | clockDomainSource position =>
    obtain ⟨i, known⟩ := Option.isSome_iff_exists.mp (Option.isSome_of_isSome_bind found)
    exact List.mem_map.mpr ⟨(i, position), List.mem_zipIdx_iff_getElem?.mpr known, rfl⟩
  | _ => cases found

theorem enumerates_configuration : Enumerates c.visitAt (.configuration c :: c.innerVisits) := by
  have children := Branches.nil (f := c.visitAt)
    |>.addMap 1 (by decide) .audioUnit (fun _ => ⟨rfl, rfl⟩) (fun _ _ => rfl)
      (enumerates_audioUnitVisits c)
    |>.addLeaves 6 (by decide) (.stream .input) (fun _ => ⟨rfl, rfl⟩) (fun _ _ => rfl)
    |>.addLeaves 7 (by decide) (.stream .output) (fun _ => ⟨rfl, rfl⟩) (fun _ _ => rfl)
    |>.addSet 8 (by decide) .avbInterface (fun _ => ⟨rfl, rfl⟩) (fun _ _ => rfl)
    |>.addSet 9 (by decide) .clockSource (fun _ => ⟨rfl, rfl⟩) (fun _ _ => rfl)
    |>.addSet 10 (by decide) .memoryObject (fun _ => ⟨rfl, rfl⟩) (fun _ _ => rfl)
    |>.addMap 11 (by decide) .locale (fun _ => ⟨rfl, rfl⟩) (fun _ _ => rfl) (enumerates_localeVisits c)
    |>.addSet 13 (by decide) .control (fun _ => ⟨rfl, rfl⟩) (fun _ _ => rfl)
    |>.addMap 14 (by decide) .clockDomain (fun _ => ⟨rfl, rfl⟩) (fun _ _ => rfl)
      (enumerates_clockDomainVisits c)
    |>.addLeaves 16 (by decide) (.redundantGroup .input) (fun _ => ⟨rfl, rfl⟩) (fun _ _ => rfl)
    |>.addLeaves 17 (by decide) (.redundantGroup .output) (fun _ => ⟨rfl, rfl⟩) (fun _ _ => rfl)
  refine children.node rfl fun s rest found => ?_
  cases s with
  | stream d i =>
    have known := mem_keys_of_isSome found
    cases d <;> simpa [Configuration.streams] using known
  | redundantGroup d i =>
    have known := mem_keys_of_isSome found
    cases d <;> simpa [Configuration.redundancy] using known
  | audioUnit i | locale i | clockDomain i => simp [mem_keys_of_isSome found]
  | avbInterface i | clockSource i | memoryObject i | control i => simp [mem_of_isSome found]
  | _ => cases found

end Configuration

def visitIn (g : Graph) (current : UInt16) (all : Bool) (p : Path) : Option Visit :=
  if !all && inactive current p then none else g.visitAt p

theorem visitIn_configuration (g : Graph) (current : UInt16) (all : Bool) (i : UInt16) (rest : Path) :
    g.visitIn current all (.configuration i :: rest) = (g.configurations.get? i).bind fun c =>
      if all || i == current then c.visitAt rest else leaf (.configuration c) rest := by
  cases rest with
  | nil =>
    have own : ∀ c : Configuration, leaf (.configuration c) [] = c.visitAt [] := fun _ => rfl
    simp [visitIn, inactive, visitAt, own]
  | cons s rest =>
    have closed : ∀ c : Configuration, leaf (.configuration c) (s :: rest) = none := fun _ => rfl
    by_cases same : i = current <;> cases all <;> simp [visitIn, inactive, visitAt, same, closed]

theorem enumerates_visits (g : Graph) (current : UInt16) (all : Bool) :
    Enumerates (g.visitIn current all) (g.visits current all) := by
  have ascending : g.configurations.toList.Pairwise fun a b =>
      (Step.configuration a.1).index < (Step.configuration b.1).index := g.configurations.ascending
  have below : ∀ e ∈ g.configurations.toList,
      Enumerates (fun rest => g.visitIn current all (.configuration e.1 :: rest))
        (.configuration e.2 :: if all || e.1 == current then e.2.innerVisits else []) := by
    intro e member
    have known := SortedMap.get?_eq_some_iff.mpr member
    simp only [visitIn_configuration, known, Option.bind_some]
    split
    · exact enumerates_configuration e.2
    · exact enumerates_leaf _
  have children := Branches.nil.add 0 (by decide) _ (fun _ => rfl) ascending below
  have top : g.visitIn current all [] = some (.entity g) := by simp [visitIn, inactive, visitAt]
  refine children.node top fun s rest found => ?_
  cases s with
  | configuration i =>
    rw [visitIn_configuration] at found
    obtain ⟨e, member, rfl⟩ := List.mem_map.mp (mem_keys_of_isSome found)
    exact List.mem_map_of_mem member
  | _ => simp [visitIn, inactive, visitAt] at found

end Graph

namespace RemoteEntity

/-- What a walk over the graph of an entity visits, in both modes. Without a readable graph it visits
nothing. -/
theorem visits_complete (e : RemoteEntity) :
    match e.readGraph with
    | .error _ => ∀ all, e.visits all = []
    | .ok g => ∃ paths : List Graph.Path,
      paths.Nodup ∧ (∀ p, p ∈ paths ↔ (g.visitAt p).isSome = true) ∧
      paths.Pairwise (fun p q => ¬ Graph.Precedes q p) ∧
      (e.visits true).map some = paths.map g.visitAt ∧
      (e.visits false).map some =
        (paths.filter fun p => !Graph.inactive e.currentConfiguration p).map g.visitAt := by
  cases readable : e.readGraph with
  | error problem =>
    intro all
    simp only [visits, readable]
  | ok g =>
    have walks : ∀ all, e.visits all = g.visits e.currentConfiguration all := by
      intro all
      simp only [visits, readable]
    obtain ⟨paths, lists⟩ : Graph.Enumerates g.visitAt _ :=
      g.enumerates_visits e.currentConfiguration true
    obtain ⟨others, active⟩ := g.enumerates_visits e.currentConfiguration false
    -- both lists of paths are in order, so it is enough to compare what is in them
    have filtered : others = paths.filter fun p => !Graph.inactive e.currentConfiguration p := by
      refine active.ascending.eq_of_mem_iff (lists.ascending.filter _) fun p => ?_
      rw [List.mem_filter, lists.mem_iff, active.mem_iff]
      cases below : Graph.inactive e.currentConfiguration p <;> simp [Graph.visitIn, below]
    have kept : ∀ p ∈ others, g.visitIn e.currentConfiguration false p = g.visitAt p := by
      intro p member
      rw [filtered, List.mem_filter] at member
      have shown : Graph.inactive e.currentConfiguration p = false := by simpa using member.2
      simp [Graph.visitIn, shown]
    refine ⟨paths, lists.nodup, lists.mem_iff, ?_, ?_, ?_⟩
    · refine lists.ascending.imp fun {p q} before precedes => ?_
      exact Std.Asymm.asymm p q before (Graph.Precedes.lex precedes)
    · rw [walks, lists.visits_eq]
    · rw [walks, ← active.visits_eq, ← filtered]
      exact List.map_congr_left kept

end RemoteEntity

end AvbEntity
