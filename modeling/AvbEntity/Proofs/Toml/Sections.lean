import AvbEntity.Proofs.Toml.Names
import AvbEntity.Proofs.Toml.RoundTrip

namespace AvbEntity

section Entries

variable {α : Type} {name : String}

theorem alterEntry_alterEntry (name : String) (f g : Option α → α) (entries : List (String × α)) :
    alterEntry name g (alterEntry name f entries) = alterEntry name (fun a => g (some (f a))) entries := by
  induction entries with
  | nil => simp [alterEntry]
  | cons e rest ih =>
    obtain ⟨n, a⟩ := e
    by_cases same : n = name
    · simp [alterEntry, same]
    · simp [alterEntry, same, ih]

theorem alterEntry_of_not_mem {entries : List (String × α)} (fresh : name ∉ entries.map Prod.fst)
    (f : Option α → α) : alterEntry name f entries = entries ++ [(name, f none)] := by
  induction entries with
  | nil => rfl
  | cons e rest ih =>
    obtain ⟨other, fresh⟩ := not_or.mp (List.mem_cons.not.mp fresh)
    rw [alterEntry, if_neg (Ne.symm other), ih fresh, List.cons_append]

end Entries

namespace Toml

theorem setEntry_setEntry (name : String) (n m : Node) (entries : Entries) :
    setEntry name n (setEntry name m entries) = setEntry name n entries :=
  alterEntry_alterEntry ..

theorem entryOf?_setEntry (name : String) (n : Node) (entries : Entries) :
    entryOf? name (setEntry name n entries) = some n :=
  entryOf?_alterEntry_self ..

section Descend

variable {f : Origin → Entries → Option Entries} {name : String} {path : List String} {o origin : Origin}
  {entries inner last : Entries} {items : List Entries}

theorem descend_of_none (absent : entryOf? name entries = none) :
    descend .implied f (name :: path) o entries =
      (descend .implied f path .implied []).map fun inner => setEntry name (.table .implied inner) entries := by
  rw [descend, absent]

theorem descend_of_table (found : entryOf? name entries = some (.table origin inner)) :
    descend .implied f (name :: path) o entries =
      (descend .implied f path origin inner).map fun inner => setEntry name (.table origin inner) entries := by
  rw [descend, found]
  exact if_neg fun dotted => absurd dotted.1 (by decide)

theorem descend_of_tables (found : entryOf? name entries = some (.tables items))
    (final : items.getLast? = some last) :
    descend .implied f (name :: path) o entries =
      (descend .implied f path .header last).map fun inner =>
        setEntry name (.tables (items.dropLast ++ [inner])) entries := by
  rw [descend, found]
  dsimp only
  rw [final]

end Descend

theorem descend_append (origin : Origin) (f : Origin → Entries → Option Entries)
    (path further : List String) (o : Origin) (entries : Entries) :
    descend origin f (path ++ further) o entries =
      descend origin (descend origin f further) path o entries := by
  induction path generalizing o entries with
  | nil => rfl
  | cons name path ih => simp only [List.cons_append, descend, ih]

theorem descend_bind (f g : Origin → Entries → Option Entries) (path : List String) (o : Origin)
    (entries : Entries) :
    (descend .implied f path o entries).bind (descend .implied g path o) =
      descend .implied (fun o entries => (f o entries).bind (g o)) path o entries := by
  induction path generalizing o entries with
  | nil => rfl
  | cons name path ih =>
    cases found : entryOf? name entries with
    | none =>
      rw [descend_of_none found, descend_of_none found, ← ih]
      cases descend .implied f path .implied [] with
      | none => rfl
      | some inner =>
        rw [Option.map_some, Option.bind_some, descend_of_table (entryOf?_setEntry ..), Option.bind_some]
        simp only [setEntry_setEntry]
    | some n =>
      cases n with
      | value v => simp [descend, found]
      | table origin inner =>
        rw [descend_of_table found, descend_of_table found, ← ih]
        cases descend .implied f path origin inner with
        | none => rfl
        | some inner =>
          rw [Option.map_some, Option.bind_some, descend_of_table (entryOf?_setEntry ..), Option.bind_some]
          simp only [setEntry_setEntry]
      | tables items =>
        cases final : items.getLast? with
        | none => simp [descend, found, final]
        | some last =>
          rw [descend_of_tables found final, descend_of_tables found final, ← ih]
          cases descend .implied f path .header last with
          | none => rfl
          | some inner =>
            rw [Option.map_some, Option.bind_some,
              descend_of_tables (entryOf?_setEntry ..) List.getLast?_concat, Option.bind_some]
            simp only [setEntry_setEntry, List.dropLast_concat]

/-- Changes one after another at the end of a path are one change. -/
theorem descend_foldlM {α : Type} (f : Origin → Entries → Option Entries)
    (g : α → Origin → Entries → Option Entries) (path : List String) (o : Origin) (entries : Entries)
    (l : List α) :
    (descend .implied f path o entries).bind
        (fun entries => l.foldlM (fun entries a => descend .implied (g a) path o entries) entries) =
      descend .implied
        (fun o entries => (f o entries).bind fun entries => l.foldlM (fun entries a => g a o entries) entries)
        path o entries := by
  induction l generalizing f with
  | nil => simp only [List.foldlM_nil, Option.pure_def, Option.bind_fun_some]
  | cons a l ih =>
    simp only [List.foldlM_cons, Option.bind_eq_bind, ← Option.bind_assoc]
    rw [descend_bind, ih]

def openWith (name : String) (assigned : List (String × ConfigValue)) (entries : Entries) :
    Option Entries :=
  (openTable name entries).bind fun entries =>
    assigned.foldlM (fun entries e => descend .implied (addKey ⟨[], e.1⟩ e.2) [name] .header entries)
      entries

def addSection (header : KeyPath) (assigned : List (String × ConfigValue)) (entries : Entries) :
    Option Entries :=
  descend .implied (fun _ entries => openWith header.name assigned entries) header.parents .header entries

theorem foldlM_add_assign (assigned : List (String × ConfigValue)) (b : Build) :
    (assigned.map fun e => .assign ⟨[], e.1⟩ e.2).foldlM Build.add b =
      (assigned.foldlM (fun entries e => descend .implied (addKey ⟨[], e.1⟩ e.2) b.header .header entries)
        b.entries).map fun entries => { b with entries } := by
  induction assigned generalizing b with
  | nil => rfl
  | cons e assigned ih =>
    rw [List.map_cons, List.foldlM_cons, List.foldlM_cons, Build.add]
    cases descend .implied (addKey ⟨[], e.1⟩ e.2) b.header .header b.entries with
    | none => rfl
    | some entries => exact ih { b with entries }

theorem foldlM_add_section (header : KeyPath) (assigned : List (String × ConfigValue)) (b : Build) :
    (.table header :: assigned.map fun e => .assign ⟨[], e.1⟩ e.2).foldlM Build.add b =
      (addSection header assigned b.entries).map fun entries => ⟨entries, header.names⟩ := by
  have joined := descend_foldlM (fun _ => openTable header.name)
    (fun e : String × ConfigValue => descend .implied (addKey ⟨[], e.1⟩ e.2) [header.name])
    header.parents .header b.entries assigned
  have added : addSection header assigned b.entries = _ := joined.symm
  rw [added, List.foldlM_cons, Build.add, openAt]
  cases descend .implied (fun _ => openTable header.name) header.parents .header b.entries with
  | none => rfl
  | some entries =>
    refine (foldlM_add_assign assigned ⟨entries, header.names⟩).trans ?_
    simp only [KeyPath.names, descend_append, Option.bind_some]

theorem addValue_of_not_mem {name : String} {entries : Entries} (fresh : name ∉ entries.map Prod.fst)
    (v : ConfigValue) : addValue name v entries = some (entries ++ [(name, .value v)]) := by
  rw [addValue, entryOf?_eq_none_iff.mpr fresh]
  exact congrArg some (alterEntry_of_not_mem fresh _)

theorem foldlM_addKey (name : String) (entries : Entries) {assigned : List (String × ConfigValue)}
    {inner : Entries} (names : (inner.map Prod.fst ++ assigned.map Prod.fst).Nodup) :
    assigned.foldlM (fun entries e => descend .implied (addKey ⟨[], e.1⟩ e.2) [name] .header entries)
        (setEntry name (.table .header inner) entries) =
      some (setEntry name (.table .header (inner ++ assigned.map fun e => (e.1, .value e.2))) entries) := by
  induction assigned generalizing inner with
  | nil =>
    rw [List.map_nil, List.append_nil]
    rfl
  | cons e assigned ih =>
    have fresh : e.1 ∉ inner.map Prod.fst := fun taken =>
      (List.nodup_cons.mp (List.nodup_middle.mp names)).1 (List.mem_append_left _ taken)
    have added : descend .implied (addKey ⟨[], e.1⟩ e.2) [name] .header
        (setEntry name (.table .header inner) entries) =
          some (setEntry name (.table .header (inner ++ [(e.1, .value e.2)])) entries) := by
      have value : descend .implied (addKey ⟨[], e.1⟩ e.2) [] .header inner =
          some (inner ++ [(e.1, .value e.2)]) := addValue_of_not_mem fresh e.2
      rw [descend_of_table (entryOf?_setEntry ..), value, Option.map_some, setEntry_setEntry]
    have later : ((inner ++ [(e.1, Node.value e.2)]).map Prod.fst ++ assigned.map Prod.fst).Nodup := by
      rw [List.map_append, List.append_assoc]
      exact names
    rw [List.foldlM_cons, added]
    refine (ih later).trans ?_
    rw [List.append_assoc]
    rfl

/-- A section whose name is new is added at the end, with just what it assigns. -/
theorem openWith_of_not_mem {name : String} {entries : Entries} (fresh : name ∉ entries.map Prod.fst)
    {assigned : List (String × ConfigValue)} (names : (assigned.map Prod.fst).Nodup) :
    openWith name assigned entries =
      some (entries ++ [(name, .table .header (assigned.map fun e => (e.1, .value e.2)))]) := by
  have opened : openTable name entries = some (setEntry name (.table .header []) entries) := by
    rw [openTable, entryOf?_eq_none_iff.mpr fresh]
  have values := @foldlM_addKey name entries assigned [] names
  rw [openWith, opened, Option.bind_some, values]
  exact congrArg some (alterEntry_of_not_mem fresh _)

def tablesOf (sections : List (String × List (String × ConfigValue))) : Entries :=
  sections.map fun s => (s.1, .table .header (s.2.map fun e => (e.1, .value e.2)))

theorem entryValues_values (assigned : List (String × ConfigValue)) :
    entryValues (assigned.map fun e => (e.1, .value e.2)) = assigned := by
  rw [entryValues_eq_map, List.map_map]
  exact List.map_id assigned

theorem entryValues_tablesOf (sections : List (String × List (String × ConfigValue))) :
    entryValues (tablesOf sections) = sections.map fun s => (s.1, .table s.2) := by
  rw [entryValues_eq_map, tablesOf, List.map_map]
  refine List.map_congr_left fun s _ => ?_
  exact congrArg (fun entries => (s.1, ConfigValue.table entries)) (entryValues_values s.2)

theorem foldlM_openWith {sections : List (String × List (String × ConfigValue))} {entries : Entries}
    (names : (entries.map Prod.fst ++ sections.map Prod.fst).Nodup)
    (each : ∀ s ∈ sections, (s.2.map Prod.fst).Nodup) :
    sections.foldlM (fun entries s => openWith s.1 s.2 entries) entries =
      some (entries ++ tablesOf sections) := by
  induction sections generalizing entries with
  | nil => exact congrArg some (List.append_nil entries).symm
  | cons s sections ih =>
    obtain ⟨first, others⟩ := List.forall_mem_cons.mp each
    have fresh : s.1 ∉ entries.map Prod.fst := fun taken =>
      (List.nodup_cons.mp (List.nodup_middle.mp names)).1 (List.mem_append_left _ taken)
    have later : ((entries ++ [(s.1, Node.table .header (s.2.map fun e => (e.1, .value e.2)))]).map Prod.fst ++
        sections.map Prod.fst).Nodup := by
      rw [List.map_append, List.append_assoc]
      exact names
    rw [List.foldlM_cons, openWith_of_not_mem fresh first]
    refine (ih later others).trans ?_
    rw [List.append_assoc]
    rfl

theorem foldlM_addSection_below (parent : String) {sections : List (String × List (String × ConfigValue))}
    (present : sections ≠ []) (names : (sections.map Prod.fst).Nodup)
    (each : ∀ s ∈ sections, (s.2.map Prod.fst).Nodup) :
    sections.foldlM (fun entries s => addSection ⟨[parent], s.1⟩ s.2 entries) [] =
      some [(parent, .table .implied (tablesOf sections))] := by
  obtain ⟨first, sections, rfl⟩ := List.exists_cons_of_ne_nil present
  have joined := descend_foldlM (fun _ => openWith first.1 first.2) (fun s _ => openWith s.1 s.2) [parent]
    .header [] sections
  have opened : (openWith first.1 first.2 []).bind
      (fun entries => sections.foldlM (fun entries s => openWith s.1 s.2 entries) entries) =
        some (tablesOf (first :: sections)) :=
    @foldlM_openWith (first :: sections) [] names each
  rw [List.foldlM_cons]
  refine joined.trans ?_
  rw [descend_of_none rfl, descend, opened]
  rfl

def Section.assigned (s : Section) : List (String × ConfigValue) := s.entries.map fun e => (e.1, e.2.toValue)

theorem statements_eq (s : Section) :
    s.statements = .table (keyOf s.header) :: s.assigned.map fun e => .assign ⟨[], e.1⟩ e.2 := by
  rw [Section.assigned, List.map_map]
  rfl

theorem foldlM_add_statements (sections : List Section) (b : Build) :
    ((sections.flatMap Section.statements).foldlM Build.add b).map Build.entries =
      sections.foldlM (fun entries s => addSection (keyOf s.header) s.assigned entries) b.entries := by
  induction sections generalizing b with
  | nil => rfl
  | cons s sections ih =>
    rw [List.flatMap_cons, List.foldlM_append, statements_eq, foldlM_add_section, List.foldlM_cons]
    cases addSection (keyOf s.header) s.assigned b.entries with
    | none => rfl
    | some entries => exact ih ⟨entries, (keyOf s.header).names⟩

theorem parse?_of_write? {sections : List Section} (legible : ∀ s ∈ sections, s.Legible) {text : String}
    (written : write? sections = some text) :
    parse? text =
      (sections.foldlM (fun entries s => addSection (keyOf s.header) s.assigned entries) []).map
        fun entries => .table (entryValues entries) := by
  have chars : text.toList = Text.joinWith ['\n'] (sections.map Section.render) := by
    rw [write?] at written
    split at written
    · cases written
      exact String.toList_ofList
    · cases written
  have unmarked : dropByteOrderMark text.toList = text.toList := by
    unfold dropByteOrderMark
    split
    next marked =>
      rw [chars] at marked
      cases sections with
      | nil => cases marked
      | cons s sections =>
        obtain ⟨behind, joined⟩ := Text.exists_joinWith_cons ['\n'] s.render (sections.map Section.render)
        rw [List.map_cons, joined, Section.render] at marked
        exact absurd (List.cons.inj marked).1 (by decide)
    next => rfl
  rw [parse?, unmarked, chars, statements?_render legible, Option.bind_some, build?,
    ← foldlM_add_statements sections {}, Option.map_map]
  rfl

end Toml

end AvbEntity
