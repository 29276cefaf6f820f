import Lifecycle.Proofs.Data
import Lifecycle.Proofs.Timestamp
/-!
Documents in which everything is what belongs in its place, with a condition on the metadata of each
kind of record. Such a document is the same as one without places to put anything else in. -/

namespace Lifecycle

variable {α : Type}

/-- What belongs in a place stands there and has a property. -/
def Slot.Holds (property : α → Prop) : Slot α → Prop
  | .proper a => property a
  | .stray _ => False

theorem Slot.Holds.elim {property : α → Prop} {s : Slot α} (holds : s.Holds property) :
    ∃ a, s = .proper a ∧ property a := by
  cases s with
  | proper a => exact ⟨a, rfl, holds⟩
  | stray v => cases holds

theorem Slot.Holds.mono {property weaker : α → Prop} {s : Slot α} (holds : s.Holds property)
    (implies : ∀ a, property a → weaker a) : s.Holds weaker := by
  obtain ⟨a, rfl, has⟩ := holds.elim
  exact implies a has

theorem Slot.Holds.both {first second third : α → Prop} {s : Slot α} (left : s.Holds first)
    (right : s.Holds second) (combine : ∀ a, first a → second a → third a) : s.Holds third := by
  obtain ⟨a, rfl, has⟩ := left.elim
  exact combine a has right

theorem Slot.Holds.map {property : α → Prop} {s : Slot α} (holds : s.Holds property) (change : α → α) :
    (s.map change).Holds fun _ => True := by
  obtain ⟨a, rfl, _⟩ := holds.elim
  exact True.intro

theorem Slot.map_proper (change : α → α) (a : α) : (Slot.proper a).map change = .proper (change a) :=
  rfl

theorem Slot.holds_iff [DecidableEq α] (s : Slot α) (a : α) :
    s.holds a = true ↔ s = .proper a := by
  cases s with
  | proper b => rw [holds, decide_eq_true_iff, Slot.proper.injEq]
  | stray v =>
      constructor
      · intro same
        cases same
      · intro same
        cases same

def Many.Holds (property : α → Prop) (many : Many α) : Prop :=
  Slot.Holds (fun list => ∀ s ∈ list, s.Holds property) many

theorem Many.Holds.elim {property : α → Prop} {many : Many α} (holds : many.Holds property) :
    ∃ list : List α, many = .ofList list ∧ ∀ a ∈ list, property a := by
  obtain ⟨slots, rfl, all⟩ := Slot.Holds.elim holds
  induction slots with
  | nil => exact ⟨[], rfl, by simp⟩
  | cons s rest ih =>
      obtain ⟨a, rfl, has⟩ := (all s List.mem_cons_self).elim
      obtain ⟨list, same, others⟩ := ih (fun s member => all s (List.mem_cons_of_mem _ member))
        (fun s member => all s (List.mem_cons_of_mem _ member))
      refine ⟨a :: list, ?_, ?_⟩
      · cases same
        rfl
      · intro b member
        rcases List.mem_cons.mp member with rfl | member
        · exact has
        · exact others b member

theorem Many.holds_ofList {property : α → Prop} {list : List α} :
    (Many.ofList list).Holds property ↔ ∀ a ∈ list, property a := by
  unfold Many.Holds Many.ofList Slot.Holds
  simp only [List.mem_map, forall_exists_index, and_imp, forall_apply_eq_imp_iff₂]

theorem Many.holds_none {property : α → Prop} : (Many.none : Many α).Holds property :=
  fun _ member => absurd member List.not_mem_nil

theorem Many.map_ofList (change : α → α) (list : List α) :
    (Many.ofList list).map (List.map (Slot.map change)) = Many.ofList (list.map change) := by
  simp only [Many.ofList, Slot.map, List.map_map, Function.comp_def]

theorem Many.Holds.mono {property weaker : α → Prop} {many : Many α} (holds : many.Holds property)
    (implies : ∀ a, property a → weaker a) : many.Holds weaker :=
  Slot.Holds.mono holds fun _ all s member => (all s member).mono implies

theorem Many.Holds.both {first second third : α → Prop} {many : Many α} (left : many.Holds first)
    (right : many.Holds second) (combine : ∀ a, first a → second a → third a) : many.Holds third :=
  Slot.Holds.both left right fun _ all others s member =>
    (all s member).both (others s member) combine

/-- A table whose entries are all what belongs there. -/
def Table.ofEntries (entries : List (String × α)) : Table α :=
  .proper (entries.map fun entry => (entry.1, .proper entry.2))

def Table.Holds (property : α → Prop) (table : Table α) : Prop :=
  Slot.Holds (fun entries => Keyed.Distinct entries ∧ ∀ entry ∈ entries, entry.2.Holds property)
    table

theorem keys_ofEntries (entries : List (String × α)) :
    Keyed.keys (entries.map fun entry => (entry.1, Slot.proper entry.2)) = Keyed.keys entries := by
  unfold Keyed.keys
  rw [List.map_map]
  rfl

theorem Table.Holds.elim {property : α → Prop} {table : Table α} (holds : table.Holds property) :
    ∃ entries : List (String × α), table = .ofEntries entries ∧ Keyed.Distinct entries ∧
      ∀ entry ∈ entries, property entry.2 := by
  obtain ⟨slots, rfl, distinct, all⟩ := Slot.Holds.elim holds
  have shape : ∃ entries : List (String × α),
      slots = entries.map (fun entry => (entry.1, Slot.proper entry.2)) ∧
        ∀ entry ∈ entries, property entry.2 := by
    clear holds distinct
    induction slots with
    | nil => exact ⟨[], rfl, by simp⟩
    | cons slot rest ih =>
        obtain ⟨key, s⟩ := slot
        obtain ⟨a, rfl, has⟩ := (all (key, s) List.mem_cons_self).elim
        obtain ⟨entries, rfl, others⟩ := ih fun s member => all s (List.mem_cons_of_mem _ member)
        refine ⟨(key, a) :: entries, rfl, ?_⟩
        intro entry member
        rcases List.mem_cons.mp member with rfl | member
        · exact has
        · exact others entry member
  obtain ⟨entries, rfl, others⟩ := shape
  refine ⟨entries, rfl, ?_, others⟩
  rw [Keyed.Distinct, keys_ofEntries] at distinct
  exact distinct

theorem Table.holds_ofEntries {property : α → Prop} {entries : List (String × α)} :
    (Table.ofEntries entries).Holds property ↔
      Keyed.Distinct entries ∧ ∀ entry ∈ entries, property entry.2 := by
  unfold Table.Holds Table.ofEntries Slot.Holds Keyed.Distinct
  simp only [keys_ofEntries, List.mem_map, forall_exists_index, and_imp,
    forall_apply_eq_imp_iff₂]

theorem Table.map_ofEntries (change : α → α) (entries : List (String × α)) :
    (Table.ofEntries entries).map (List.map fun entry => (entry.1, entry.2.map change)) =
      Table.ofEntries (entries.map fun entry => (entry.1, change entry.2)) := by
  simp only [Table.ofEntries, Slot.map, List.map_map, Function.comp_def]

theorem Table.Holds.mono {property weaker : α → Prop} {table : Table α}
    (holds : table.Holds property) (implies : ∀ a, property a → weaker a) : table.Holds weaker :=
  Slot.Holds.mono holds fun _ all =>
    ⟨all.1, fun entry member => (all.2 entry member).mono implies⟩

theorem Table.Holds.both {first second third : α → Prop} {table : Table α}
    (left : table.Holds first) (right : table.Holds second)
    (combine : ∀ a, first a → second a → third a) : table.Holds third :=
  Slot.Holds.both left right fun _ all others =>
    ⟨all.1, fun entry member => (all.2 entry member).both (others.2 entry member) combine⟩

theorem map_same {f : α → α} {list : List α} (same : ∀ a ∈ list, f a = a) : list.map f = list :=
  (List.map_congr_left same).trans (List.map_id' list)

/-- A condition on the metadata of records, by their kind. -/
abbrev Condition := RecordKind → Metadata → Prop

structure Artifact.Typed (condition : Condition) (a : Artifact) : Prop where
  type : a.type.Holds fun _ => True
  path : a.path.Holds fun _ => True
  approved : a.approved.Holds fun _ => True
  createdAt : a.createdAt.Holds Timestamp.Proper
  metadata : a.metadata.Holds (condition .artifact)

/-- A time that may be missing. -/
def ProperIfAny (time : Option Timestamp) : Prop := ∀ t ∈ time, t.Proper

structure Task.Typed (condition : Condition) (t : Task) : Prop where
  id : t.id.Holds fun _ => True
  name : t.name.Holds fun _ => True
  phase : t.phase.Holds fun _ => True
  status : t.status.Holds fun _ => True
  createdAt : t.createdAt.Holds Timestamp.Proper
  updatedAt : t.updatedAt.Holds Timestamp.Proper
  startedAt : t.startedAt.Holds ProperIfAny
  completedAt : t.completedAt.Holds ProperIfAny
  iteration : t.iteration.Holds fun _ => True
  assignedAgent : t.assignedAgent.Holds fun _ => True
  inputs : t.inputs.Holds (Artifact.Typed condition)
  outputs : t.outputs.Holds (Artifact.Typed condition)
  metadata : t.metadata.Holds (condition .task)

structure Phase.Typed (condition : Condition) (p : Phase) : Prop where
  status : p.status.Holds fun _ => True
  enabled : p.enabled.Holds fun _ => True
  createdAt : p.createdAt.Holds Timestamp.Proper
  startedAt : p.startedAt.Holds ProperIfAny
  completedAt : p.completedAt.Holds ProperIfAny
  failedAt : p.failedAt.Holds ProperIfAny
  iteration : p.iteration.Holds fun _ => True
  inputs : p.inputs.Holds (Artifact.Typed condition)
  outputs : p.outputs.Holds (Artifact.Typed condition)
  tasks : p.tasks.Holds (Task.Typed condition)
  metadata : p.metadata.Holds (condition .phase)

structure Statechart.Typed (s : Statechart) : Prop where
  current : s.current.Holds fun _ => True
  updatedAt : s.updatedAt.Holds Timestamp.Proper

/-- Everything in the document is what belongs in its place. -/
structure Document.Typed (condition : Condition) (d : Document) : Prop where
  name : d.name.Holds fun _ => True
  type : d.type.Holds fun _ => True
  branch : d.branch.Holds fun _ => True
  description : d.description.Holds fun _ => True
  createdAt : d.createdAt.Holds Timestamp.Proper
  updatedAt : d.updatedAt.Holds Timestamp.Proper
  phases : d.phases.Holds (Phase.Typed condition)
  statechart : d.statechart.Holds Statechart.Typed
  agentSessions : d.agentSessions.Holds fun _ => True

namespace Artifact

def mapMetadata (change : Metadata → Metadata) (a : Artifact) : Artifact :=
  { a with metadata := a.metadata.map change }

variable {condition weaker : Condition}

theorem Typed.elim {a : Artifact} (typed : a.Typed condition) :
    ∃ type path approved createdAt metadata,
      a = ⟨.proper type, .proper path, .proper approved, .proper createdAt, .proper metadata⟩ ∧
        createdAt.Proper ∧ condition .artifact metadata := by
  obtain ⟨type, path, approved, createdAt, metadata⟩ := a
  obtain ⟨type, rfl, _⟩ := typed.type.elim
  obtain ⟨path, rfl, _⟩ := typed.path.elim
  obtain ⟨approved, rfl, _⟩ := typed.approved.elim
  obtain ⟨createdAt, rfl, created⟩ := typed.createdAt.elim
  obtain ⟨metadata, rfl, good⟩ := typed.metadata.elim
  exact ⟨type, path, approved, createdAt, metadata, rfl, created, good⟩

theorem Typed.mono {a : Artifact} (typed : a.Typed condition)
    (implies : ∀ kind m, condition kind m → weaker kind m) : a.Typed weaker :=
  { typed with metadata := typed.metadata.mono (implies .artifact) }

theorem Typed.both {a : Artifact} (left : a.Typed condition) (right : a.Typed weaker) :
    a.Typed fun kind m => condition kind m ∧ weaker kind m :=
  { left with metadata := left.metadata.both right.metadata fun _ => And.intro }

theorem mapMetadata_same {a : Artifact} (typed : a.Typed condition) {change : Metadata → Metadata}
    (same : ∀ kind m, condition kind m → change m = m) : a.mapMetadata change = a := by
  obtain ⟨type, path, approved, createdAt, metadata, rfl, _, good⟩ := typed.elim
  rw [mapMetadata, Slot.map_proper, same _ _ good]

theorem mapMetadata_list {list : List Artifact} (typed : ∀ a ∈ list, a.Typed condition)
    {change : Metadata → Metadata} (same : ∀ kind m, condition kind m → change m = m) :
    list.map (mapMetadata change) = list :=
  map_same fun a member => mapMetadata_same (typed a member) same

theorem mapMetadata_typed {a : Artifact} (typed : a.Typed condition) {change : Metadata → Metadata}
    (good : ∀ kind m, condition kind m → weaker kind (change m)) :
    (a.mapMetadata change).Typed weaker := by
  obtain ⟨type, path, approved, createdAt, metadata, rfl, created, m⟩ := typed.elim
  exact ⟨True.intro, True.intro, True.intro, created, good _ _ m⟩

theorem map_typed {list : List Artifact} (typed : ∀ a ∈ list, a.Typed condition)
    {change : Metadata → Metadata} (good : ∀ kind m, condition kind m → weaker kind (change m)) :
    (Many.ofList (list.map (mapMetadata change))).Holds (Artifact.Typed weaker) :=
  Many.holds_ofList.mpr (List.forall_mem_map.mpr fun a member =>
    mapMetadata_typed (typed a member) good)

end Artifact

namespace Task

def mapMetadata (change : Metadata → Metadata) (t : Task) : Task :=
  { t with
    inputs := t.inputs.map (List.map (Slot.map (Artifact.mapMetadata change)))
    outputs := t.outputs.map (List.map (Slot.map (Artifact.mapMetadata change)))
    metadata := t.metadata.map change }

variable {condition weaker : Condition}

theorem Typed.elim {t : Task} (typed : t.Typed condition) :
    ∃ id name phase status createdAt updatedAt startedAt completedAt iteration agent inputs outputs
        metadata,
      t = ⟨.proper id, .proper name, .proper phase, .proper status, .proper createdAt,
        .proper updatedAt, .proper startedAt, .proper completedAt, .proper iteration, .proper agent,
        .ofList inputs, .ofList outputs, .proper metadata⟩ ∧
      createdAt.Proper ∧ updatedAt.Proper ∧ ProperIfAny startedAt ∧ ProperIfAny completedAt ∧
      (∀ a ∈ inputs, a.Typed condition) ∧ (∀ a ∈ outputs, a.Typed condition) ∧
      condition .task metadata := by
  obtain ⟨id, name, phase, status, createdAt, updatedAt, startedAt, completedAt, iteration, agent,
    inputs, outputs, metadata⟩ := t
  obtain ⟨id, rfl, _⟩ := typed.id.elim
  obtain ⟨name, rfl, _⟩ := typed.name.elim
  obtain ⟨phase, rfl, _⟩ := typed.phase.elim
  obtain ⟨status, rfl, _⟩ := typed.status.elim
  obtain ⟨createdAt, rfl, created⟩ := typed.createdAt.elim
  obtain ⟨updatedAt, rfl, updated⟩ := typed.updatedAt.elim
  obtain ⟨startedAt, rfl, started⟩ := typed.startedAt.elim
  obtain ⟨completedAt, rfl, completed⟩ := typed.completedAt.elim
  obtain ⟨iteration, rfl, _⟩ := typed.iteration.elim
  obtain ⟨agent, rfl, _⟩ := typed.assignedAgent.elim
  obtain ⟨inputs, rfl, ins⟩ := typed.inputs.elim
  obtain ⟨outputs, rfl, outs⟩ := typed.outputs.elim
  obtain ⟨metadata, rfl, good⟩ := typed.metadata.elim
  exact ⟨id, name, phase, status, createdAt, updatedAt, startedAt, completedAt, iteration, agent,
    inputs, outputs, metadata, rfl, created, updated, started, completed, ins, outs, good⟩

theorem Typed.mono {t : Task} (typed : t.Typed condition)
    (implies : ∀ kind m, condition kind m → weaker kind m) : t.Typed weaker :=
  { typed with
    inputs := typed.inputs.mono fun _ typed => typed.mono implies
    outputs := typed.outputs.mono fun _ typed => typed.mono implies
    metadata := typed.metadata.mono (implies .task) }

theorem Typed.both {t : Task} (left : t.Typed condition) (right : t.Typed weaker) :
    t.Typed fun kind m => condition kind m ∧ weaker kind m :=
  { left with
    inputs := left.inputs.both right.inputs fun _ => Artifact.Typed.both
    outputs := left.outputs.both right.outputs fun _ => Artifact.Typed.both
    metadata := left.metadata.both right.metadata fun _ => And.intro }

theorem mapMetadata_same {t : Task} (typed : t.Typed condition) {change : Metadata → Metadata}
    (same : ∀ kind m, condition kind m → change m = m) : t.mapMetadata change = t := by
  obtain ⟨id, name, phase, status, createdAt, updatedAt, startedAt, completedAt, iteration, agent,
    inputs, outputs, metadata, rfl, _, _, _, _, ins, outs, good⟩ := typed.elim
  simp only [mapMetadata, Slot.map_proper, Many.map_ofList, same _ _ good,
    Artifact.mapMetadata_list ins same, Artifact.mapMetadata_list outs same]

theorem mapMetadata_typed {t : Task} (typed : t.Typed condition) {change : Metadata → Metadata}
    (good : ∀ kind m, condition kind m → weaker kind (change m)) :
    (t.mapMetadata change).Typed weaker := by
  obtain ⟨id, name, phase, status, createdAt, updatedAt, startedAt, completedAt, iteration, agent,
    inputs, outputs, metadata, rfl, created, updated, started, completed, ins, outs, m⟩ := typed.elim
  simp only [mapMetadata, Slot.map_proper, Many.map_ofList]
  exact {
    id := True.intro
    name := True.intro
    phase := True.intro
    status := True.intro
    createdAt := created
    updatedAt := updated
    startedAt := started
    completedAt := completed
    iteration := True.intro
    assignedAgent := True.intro
    inputs := Artifact.map_typed ins good
    outputs := Artifact.map_typed outs good
    metadata := good _ _ m }

end Task

namespace Phase

def mapMetadata (change : Metadata → Metadata) (p : Phase) : Phase :=
  { p with
    inputs := p.inputs.map (List.map (Slot.map (Artifact.mapMetadata change)))
    outputs := p.outputs.map (List.map (Slot.map (Artifact.mapMetadata change)))
    tasks := p.tasks.map (List.map (Slot.map (Task.mapMetadata change)))
    metadata := p.metadata.map change }

variable {condition weaker : Condition}

theorem Typed.elim {p : Phase} (typed : p.Typed condition) :
    ∃ status enabled createdAt startedAt completedAt failedAt iteration inputs outputs tasks metadata,
      p = ⟨.proper status, .proper enabled, .proper createdAt, .proper startedAt,
        .proper completedAt, .proper failedAt, .proper iteration, .ofList inputs, .ofList outputs,
        .ofList tasks, .proper metadata⟩ ∧
      createdAt.Proper ∧ ProperIfAny startedAt ∧ ProperIfAny completedAt ∧ ProperIfAny failedAt ∧
      (∀ a ∈ inputs, a.Typed condition) ∧ (∀ a ∈ outputs, a.Typed condition) ∧
      (∀ t ∈ tasks, t.Typed condition) ∧ condition .phase metadata := by
  obtain ⟨status, enabled, createdAt, startedAt, completedAt, failedAt, iteration, inputs, outputs,
    tasks, metadata⟩ := p
  obtain ⟨status, rfl, _⟩ := typed.status.elim
  obtain ⟨enabled, rfl, _⟩ := typed.enabled.elim
  obtain ⟨createdAt, rfl, created⟩ := typed.createdAt.elim
  obtain ⟨startedAt, rfl, started⟩ := typed.startedAt.elim
  obtain ⟨completedAt, rfl, completed⟩ := typed.completedAt.elim
  obtain ⟨failedAt, rfl, failed⟩ := typed.failedAt.elim
  obtain ⟨iteration, rfl, _⟩ := typed.iteration.elim
  obtain ⟨inputs, rfl, ins⟩ := typed.inputs.elim
  obtain ⟨outputs, rfl, outs⟩ := typed.outputs.elim
  obtain ⟨tasks, rfl, all⟩ := typed.tasks.elim
  obtain ⟨metadata, rfl, good⟩ := typed.metadata.elim
  exact ⟨status, enabled, createdAt, startedAt, completedAt, failedAt, iteration, inputs, outputs,
    tasks, metadata, rfl, created, started, completed, failed, ins, outs, all, good⟩

theorem Typed.mono {p : Phase} (typed : p.Typed condition)
    (implies : ∀ kind m, condition kind m → weaker kind m) : p.Typed weaker :=
  { typed with
    inputs := typed.inputs.mono fun _ typed => typed.mono implies
    outputs := typed.outputs.mono fun _ typed => typed.mono implies
    tasks := typed.tasks.mono fun _ typed => typed.mono implies
    metadata := typed.metadata.mono (implies .phase) }

theorem Typed.both {p : Phase} (left : p.Typed condition) (right : p.Typed weaker) :
    p.Typed fun kind m => condition kind m ∧ weaker kind m :=
  { left with
    inputs := left.inputs.both right.inputs fun _ => Artifact.Typed.both
    outputs := left.outputs.both right.outputs fun _ => Artifact.Typed.both
    tasks := left.tasks.both right.tasks fun _ => Task.Typed.both
    metadata := left.metadata.both right.metadata fun _ => And.intro }

theorem mapMetadata_same {p : Phase} (typed : p.Typed condition) {change : Metadata → Metadata}
    (same : ∀ kind m, condition kind m → change m = m) : p.mapMetadata change = p := by
  obtain ⟨status, enabled, createdAt, startedAt, completedAt, failedAt, iteration, inputs, outputs,
    tasks, metadata, rfl, _, _, _, _, ins, outs, all, good⟩ := typed.elim
  have kept : tasks.map (Task.mapMetadata change) = tasks :=
    map_same fun t member => Task.mapMetadata_same (all t member) same
  simp only [mapMetadata, Slot.map_proper, Many.map_ofList, same _ _ good, kept,
    Artifact.mapMetadata_list ins same, Artifact.mapMetadata_list outs same]

theorem mapMetadata_typed {p : Phase} (typed : p.Typed condition) {change : Metadata → Metadata}
    (good : ∀ kind m, condition kind m → weaker kind (change m)) :
    (p.mapMetadata change).Typed weaker := by
  obtain ⟨status, enabled, createdAt, startedAt, completedAt, failedAt, iteration, inputs, outputs,
    tasks, metadata, rfl, created, started, completed, failed, ins, outs, all, m⟩ := typed.elim
  simp only [mapMetadata, Slot.map_proper, Many.map_ofList]
  exact {
    status := True.intro
    enabled := True.intro
    createdAt := created
    startedAt := started
    completedAt := completed
    failedAt := failed
    iteration := True.intro
    inputs := Artifact.map_typed ins good
    outputs := Artifact.map_typed outs good
    tasks := Many.holds_ofList.mpr (List.forall_mem_map.mpr fun t member =>
      Task.mapMetadata_typed (all t member) good)
    metadata := good _ _ m }

/-- A new phase is typed if its inputs and its metadata are. -/
theorem fresh_typed {now : Timestamp} (proper : now.Proper) {inputs : List Artifact}
    (typed : ∀ a ∈ inputs, a.Typed condition) {m : Metadata} (good : condition .phase m) :
    Typed condition { fresh now inputs with metadata := .proper m } where
  status := True.intro
  enabled := True.intro
  createdAt := proper
  startedAt := nofun
  completedAt := nofun
  failedAt := nofun
  iteration := True.intro
  inputs := Many.holds_ofList.mpr typed
  outputs := Many.holds_none
  tasks := Many.holds_none
  metadata := good

end Phase

theorem Statechart.Typed.elim {s : Statechart} (typed : s.Typed) :
    ∃ current updatedAt, s = ⟨.proper current, .proper updatedAt⟩ ∧ updatedAt.Proper := by
  obtain ⟨current, updatedAt⟩ := s
  obtain ⟨current, rfl, _⟩ := typed.current.elim
  obtain ⟨updatedAt, rfl, updated⟩ := typed.updatedAt.elim
  exact ⟨current, updatedAt, rfl, updated⟩

namespace Document

/-- Changes all metadata, of phases, tasks and artifacts. -/
def mapMetadata (change : Metadata → Metadata) (d : Document) : Document :=
  { d with
    phases := d.phases.map
      (List.map fun entry => (entry.1, entry.2.map (Phase.mapMetadata change))) }

variable {condition weaker : Condition}

theorem Typed.elim {d : Document} (typed : d.Typed condition) :
    ∃ name type branch description createdAt updatedAt phases statechart sessions,
      d = ⟨.proper name, .proper type, .proper branch, .proper description, .proper createdAt,
        .proper updatedAt, .ofEntries phases, .proper statechart, .ofEntries sessions⟩ ∧
      createdAt.Proper ∧ updatedAt.Proper ∧ Keyed.Distinct phases ∧
      (∀ entry ∈ phases, entry.2.Typed condition) ∧ statechart.Typed ∧
      Keyed.Distinct sessions := by
  obtain ⟨name, type, branch, description, createdAt, updatedAt, phases, statechart, sessions⟩ := d
  obtain ⟨name, rfl, _⟩ := typed.name.elim
  obtain ⟨type, rfl, _⟩ := typed.type.elim
  obtain ⟨branch, rfl, _⟩ := typed.branch.elim
  obtain ⟨description, rfl, _⟩ := typed.description.elim
  obtain ⟨createdAt, rfl, created⟩ := typed.createdAt.elim
  obtain ⟨updatedAt, rfl, updated⟩ := typed.updatedAt.elim
  obtain ⟨phases, rfl, distinct, all⟩ := typed.phases.elim
  obtain ⟨statechart, rfl, chart⟩ := typed.statechart.elim
  obtain ⟨sessions, rfl, apart, _⟩ := typed.agentSessions.elim
  exact ⟨name, type, branch, description, createdAt, updatedAt, phases, statechart, sessions, rfl,
    created, updated, distinct, all, chart, apart⟩

theorem Typed.mono {d : Document} (typed : d.Typed condition)
    (implies : ∀ kind m, condition kind m → weaker kind m) : d.Typed weaker :=
  { typed with phases := typed.phases.mono fun _ typed => typed.mono implies }

theorem Typed.both {d : Document} (left : d.Typed condition) (right : d.Typed weaker) :
    d.Typed fun kind m => condition kind m ∧ weaker kind m :=
  { left with phases := left.phases.both right.phases fun _ => Phase.Typed.both }

theorem mapMetadata_same {d : Document} (typed : d.Typed condition) {change : Metadata → Metadata}
    (same : ∀ kind m, condition kind m → change m = m) : d.mapMetadata change = d := by
  obtain ⟨name, type, branch, description, createdAt, updatedAt, phases, statechart, sessions, rfl, _,
    _, _, all, _, _⟩ := typed.elim
  have kept : phases.map (fun entry => (entry.1, entry.2.mapMetadata change)) = phases :=
    map_same fun entry member => by rw [Phase.mapMetadata_same (all entry member) same]
  rw [mapMetadata, Table.map_ofEntries, kept]

theorem mapMetadata_typed {d : Document} (typed : d.Typed condition) {change : Metadata → Metadata}
    (good : ∀ kind m, condition kind m → weaker kind (change m)) :
    (d.mapMetadata change).Typed weaker := by
  obtain ⟨phases, given, distinct, all⟩ := typed.phases.elim
  refine { typed with phases := ?_ }
  rw [mapMetadata, given, Table.map_ofEntries, Table.holds_ofEntries]
  constructor
  · rw [Keyed.Distinct, Keyed.keys, List.map_map]
    exact distinct
  · rw [List.forall_mem_map]
    exact fun entry member => Phase.mapMetadata_typed (all entry member) good

/-- The names of the phases, in their order. -/
def phaseNames (d : Document) : List String :=
  match d.phases with
  | .proper entries => Keyed.keys entries
  | .stray _ => []

theorem phaseNames_eq {d : Document} {phases : List (String × Phase)}
    (given : d.phases = .ofEntries phases) : d.phaseNames = Keyed.keys phases := by
  rw [phaseNames, given]
  exact keys_ofEntries phases

theorem mapMetadata_phaseNames (d : Document) (change : Metadata → Metadata) :
    (d.mapMetadata change).phaseNames = d.phaseNames := by
  rw [phaseNames, phaseNames, mapMetadata]
  cases d.phases with
  | stray v => rfl
  | proper entries => exact List.map_map

end Document

end Lifecycle
