import Lifecycle.Document.Tasks
import Lifecycle.Proofs.Codec
import Lifecycle.Proofs.Present
/-!
Tasks that are linked to an artifact. A link leads from the first task with an identifier, by the path in its
metadata, to the first output with that path. Where there is one, completing the task changes a field at either
end of it; where there is none, nothing changes. -/

namespace Lifecycle

namespace Keyed

variable {κ α : Type} [DecidableEq κ]

theorem find?_eq_some_iff_append {table : Keyed κ α} {k : κ} {a : α} :
    find? table k = some a ↔ ∃ front back, table = front ++ (k, a) :: back ∧ k ∉ keys front := by
  induction table with
  | nil =>
      constructor
      · nofun
      · rintro ⟨front, back, same, _⟩
        cases front <;> cases same
  | cons entry rest ih =>
      obtain ⟨key, b⟩ := entry
      rw [find?]
      by_cases here : key = k
      · rw [if_pos here, Option.some.injEq]
        constructor
        · intro same
          exact ⟨[], rest, by rw [here, same, List.nil_append], List.not_mem_nil⟩
        · rintro ⟨front, back, same, new⟩
          cases front with
          | nil =>
              cases same
              rfl
          | cons first front =>
              cases same
              exact absurd (here ▸ List.mem_cons_self) new
      · rw [if_neg here, ih]
        constructor
        · rintro ⟨front, back, rfl, new⟩
          refine ⟨(key, b) :: front, back, rfl, ?_⟩
          rw [keys_cons, List.mem_cons, not_or]
          exact ⟨Ne.symm here, new⟩
        · rintro ⟨front, back, same, new⟩
          cases front with
          | nil =>
              cases same
              exact absurd rfl here
          | cons first front =>
              cases same
              exact ⟨front, back, rfl, fun member => new (List.mem_cons_of_mem _ member)⟩

theorem modify_append {front : Keyed κ α} {k : κ} (new : k ∉ keys front) (a : α) (back : Keyed κ α)
    (f : α → α) : modify (front ++ (k, a) :: back) k f = front ++ (k, f a) :: back := by
  induction front with
  | nil => rw [List.nil_append, modify, if_pos rfl, List.nil_append]
  | cons entry front ih =>
      rw [keys_cons, List.mem_cons, not_or] at new
      rw [List.cons_append, modify, if_neg (Ne.symm new.1), ih new.2, List.cons_append]

end Keyed

theorem Slot.changeFirst_append {α : Type} {test : α → Bool} {before : List α} {a : α}
    (passes : test a = true) (first : ∀ b ∈ before, test b = false) (after : List (Slot α))
    (change : α → α) :
    changeFirst test change (before.map .proper ++ .proper a :: after) =
      before.map .proper ++ .proper (change a) :: after := by
  induction before with
  | nil => rw [List.map_nil, List.nil_append, changeFirst, if_pos passes, List.nil_append]
  | cons b before ih =>
      have fails : ¬test b = true := Bool.eq_false_iff.mp (first b List.mem_cons_self)
      have others := ih fun c member => first c (List.mem_cons_of_mem b member)
      rw [List.map_cons, List.cons_append, changeFirst, if_neg fails, others, List.cons_append]

/-- Nothing is found in what is no list, as every item of it is a stray itself. -/
theorem Many.proper_of_find? {α : Type} {part : String} {test : α → Except Fault Bool} {many : Many α}
    {list : List (Slot α)} {a : α} (listed : many.elements = .ok list)
    (found : Slot.find? part test list = .ok (some a)) : many = .proper list := by
  cases many with
  | proper slots => exact congrArg Slot.proper (Except.ok.inj listed)
  | stray v =>
      rw [elements] at listed
      cases items : v.elements with
      | error fault =>
          rw [items] at listed
          cases listed
      | ok values =>
          rw [items] at listed
          obtain rfl : values.map Slot.stray = list := Except.ok.inj listed
          obtain ⟨before, after, same, _⟩ := Slot.find?_eq_some_iff.mp found
          have member : Slot.proper a ∈ values.map Slot.stray :=
            same ▸ List.mem_append_right before List.mem_cons_self
          obtain ⟨_, _, impossible⟩ := List.mem_map.mp member
          cases impossible

/-- The first thing in a list that passes a test, with what stands before it, which all belongs there, and
what stands after it. -/
structure First {α : Type} (test : α → Bool) (list : List (Slot α)) where
  before : List α
  it : α
  after : List (Slot α)
  split : list = before.map .proper ++ .proper it :: after
  passes : test it = true
  first : ∀ b ∈ before, test b = false

namespace First

variable {α : Type} {test : α → Bool} {list : List (Slot α)}

/-- The list with something else in that place. -/
def replaced (here : First test list) (b : α) : List (Slot α) :=
  here.before.map .proper ++ .proper b :: here.after

theorem find?_it (here : First test list) (part : String) :
    Slot.find? part (fun a => .ok (test a)) list = .ok (some here.it) := by
  refine Slot.find?_eq_some_iff.mpr ⟨_, _, here.split, congrArg Except.ok here.passes, ?_⟩
  intro s member
  obtain ⟨b, earlier, rfl⟩ := List.mem_map.mp member
  exact ⟨b, rfl, congrArg Except.ok (here.first b earlier)⟩

theorem of_find? {part : String} {a : α}
    (found : Slot.find? part (fun a => .ok (test a)) list = .ok (some a)) :
    ∃ here : First test list, here.it = a := by
  obtain ⟨slots, after, rfl, passes, others⟩ := Slot.find?_eq_some_iff.mp found
  have before : ∃ before : List α, slots = before.map .proper ∧ ∀ b ∈ before, test b = false := by
    clear found
    induction slots with
    | nil => exact ⟨[], rfl, nofun⟩
    | cons s rest ih =>
        obtain ⟨b, rfl, fails⟩ := others s List.mem_cons_self
        obtain ⟨before, rfl, none⟩ := ih fun t member => others t (List.mem_cons_of_mem _ member)
        exact ⟨b :: before, rfl, List.forall_mem_cons.mpr ⟨Except.ok.inj fails, none⟩⟩
  obtain ⟨before, rfl, none⟩ := before
  exact ⟨⟨before, a, after, rfl, Except.ok.inj passes, none⟩, rfl⟩

theorem changeFirst_eq (here : First test list) (change : α → α) :
    Slot.changeFirst test change list = here.replaced (change here.it) :=
  (congrArg (Slot.changeFirst test change) here.split).trans
    (Slot.changeFirst_append here.passes here.first here.after change)

end First

/-- A task of a phase that names an output of the phase, both the first of their kind. -/
structure Document.Link (d : Document) (phase task : String) where
  front : Keyed String (Slot Phase)
  host : Phase
  back : Keyed String (Slot Phase)
  phases : d.phases = .proper (front ++ (phase, .proper host) :: back)
  firstPhase : phase ∉ Keyed.keys front
  tasks : List (Slot Task)
  given : host.tasks = .proper tasks
  linked : First (fun t : Task => t.id.holds task) tasks
  metadata : Metadata
  noted : linked.it.metadata = .proper metadata
  path : String
  names : Keyed.find? metadata "artifact_path" = some (.text path)
  nonempty : path ≠ ""
  outputs : List (Slot Artifact)
  produced : host.outputs = .proper outputs
  output : First (fun a : Artifact => a.path.holds path) outputs

namespace Document.Link

variable {d : Document} {phase task : String}

/-- The task completed. -/
def completed (link : d.Link phase task) : Task := { link.linked.it with status := .proper .completed }

/-- The output approved. -/
def approved (link : d.Link phase task) : Artifact := { link.output.it with approved := .proper true }

/-- The document with the task completed and the output approved, and nothing else changed. -/
def settled (link : d.Link phase task) : Document :=
  { d with phases := .proper (link.front ++ (phase, .proper { link.host with
      tasks := .proper (link.linked.replaced link.completed)
      outputs := .proper (link.output.replaced link.approved) }) :: link.back) }

theorem phase_eq (link : d.Link phase task) : d.phase phase = .ok link.host :=
  phase_eq_ok.mpr ⟨_, link.phases, Keyed.find?_eq_some_iff_append.mpr ⟨_, _, rfl, link.firstPhase⟩⟩

theorem artifactPath?_eq (link : d.Link phase task) : link.linked.it.artifactPath? = .ok (some link.path) := by
  have entry : link.linked.it.metadata.entry "artifact_path" = .ok (.text link.path) := by
    rw [link.noted, Slot.entry, Slot.entryOr, link.names, Option.getD_some]
  rw [Task.artifactPath?, entry]
  simp only [bind, Except.bind]
  rw [if_neg link.nonempty]
  rfl

theorem linkedArtifact_eq (link : d.Link phase task) : d.linkedArtifact phase task = .ok link.output.it := by
  rw [linkedArtifact, link.phase_eq]
  simp only [link.given, Many.elements, bind, Except.bind, link.linked.find?_it, link.artifactPath?_eq,
    link.produced, link.output.find?_it]
  rfl

end Document.Link

theorem Task.artifactPath?_proper {t : Task} {m : Metadata} (noted : t.metadata = .proper m) :
    ∃ path?, t.artifactPath? = .ok path? := by
  rw [artifactPath?, noted]
  simp only [Slot.entry, Slot.entryOr, bind, Except.bind]
  split
  · exact ⟨_, rfl⟩
  · exact ⟨_, rfl⟩

theorem Task.artifactPath?_some {t : Task} {path : String} (asked : t.artifactPath? = .ok (some path)) :
    path ≠ "" ∧ ∃ m, t.metadata = .proper m ∧ Keyed.find? m "artifact_path" = some (.text path) := by
  obtain ⟨v, entry, asked⟩ := Except.bind_eq_ok.mp asked
  have found : v = .text path ∧ path ≠ "" := by
    split at asked
    · split at asked
      · cases asked
      · next text named =>
          obtain rfl := Option.some.inj (Except.ok.inj asked)
          exact ⟨rfl, named⟩
    · cases asked
  obtain ⟨rfl, named⟩ := found
  cases held : t.metadata with
  | stray other =>
      rw [held] at entry
      cases entry
  | proper m =>
      rw [held, Slot.entry, Slot.entryOr] at entry
      refine ⟨named, m, rfl, ?_⟩
      cases noted : Keyed.find? m "artifact_path" with
      | none =>
          rw [noted] at entry
          cases entry
      | some v =>
          rw [noted] at entry
          exact congrArg some (Except.ok.inj entry)

namespace Document

variable {d : Document} {phase task : String}

/-- Where a linked output is found there is a link. -/
theorem link_of_linkedArtifact {a : Artifact} (found : d.linkedArtifact phase task = .ok a) :
    Nonempty (d.Link phase task) := by
  obtain ⟨host, there, found⟩ := Except.bind_eq_ok.mp found
  obtain ⟨tasks, listed, found⟩ := Except.bind_eq_ok.mp found
  obtain ⟨t?, first, found⟩ := Except.bind_eq_ok.mp found
  rcases t? with _ | t
  · cases found
  obtain ⟨path?, asked, found⟩ := Except.bind_eq_ok.mp found
  rcases path? with _ | path
  · cases found
  obtain ⟨outputs, produced, found⟩ := Except.bind_eq_ok.mp found
  obtain ⟨b?, last, found⟩ := Except.bind_eq_ok.mp found
  rcases b? with _ | b
  · cases found
  obtain ⟨_, phases, inTable⟩ := phase_eq_ok.mp there
  obtain ⟨front, back, rfl, firstPhase⟩ := Keyed.find?_eq_some_iff_append.mp inTable
  obtain ⟨linked, rfl⟩ := First.of_find? first
  obtain ⟨nonempty, metadata, noted, names⟩ := Task.artifactPath?_some asked
  obtain ⟨output, rfl⟩ := First.of_find? last
  exact ⟨{
    front, host, back, phases, firstPhase, tasks, linked, metadata, noted, path, names, nonempty, outputs,
    output
    given := Many.proper_of_find? listed first
    produced := Many.proper_of_find? produced last }⟩

/-- In a document in which everything is what belongs there a phase is there or not found. -/
theorem Typed.phase_or {condition : Condition} (typed : d.Typed condition) (name : String) :
    (∃ p, d.phase name = .ok p) ∨ ∃ text, d.phase name = .error (.notFound text) := by
  obtain ⟨entries, given, _⟩ := typed.phases.elim
  rw [Document.phase, phase?, given]
  simp only [Table.ofEntries, Slot.having, bind, Except.bind, Keyed.find?_map]
  cases Keyed.find? entries name with
  | none => exact .inr ⟨_, rfl⟩
  | some p => exact .inl ⟨p, rfl⟩

/-- Why no link is found: something on the way is missing, or the path is of no use. -/
theorem Typed.linkedArtifact_fault {condition : Condition} (typed : d.Typed condition) {fault : Fault}
    (failed : d.linkedArtifact phase task = .error fault) :
    (∃ text, fault = .notFound text) ∨ ∃ finding, fault = .invalid finding := by
  rw [linkedArtifact] at failed
  rcases typed.phase_or phase with ⟨p, there⟩ | ⟨text, missing⟩
  · have whole := typed.phase there
    obtain ⟨tasks, given, tasksTyped⟩ := whole.tasks.elim
    obtain ⟨outputs, produced, _⟩ := whole.outputs.elim
    rw [there] at failed
    simp only [given, produced, Many.ofList, Many.elements, bind, Except.bind, Slot.find?_ofList] at failed
    split at failed
    · cases failed
      exact .inl ⟨_, rfl⟩
    · next t found =>
        obtain ⟨metadata, noted, _⟩ := (tasksTyped t (List.mem_of_find?_eq_some found)).metadata.elim
        obtain ⟨path?, asked⟩ := Task.artifactPath?_proper noted
        rw [asked] at failed
        cases path? with
        | none =>
            cases failed
            exact .inr ⟨_, rfl⟩
        | some path =>
            simp only at failed
            split at failed
            · cases failed
            · cases failed
              exact .inl ⟨_, rfl⟩
  · rw [missing] at failed
    cases failed
    exact .inl ⟨text, rfl⟩

end Document

namespace Edit

variable {d : Document} {phase task : String}

theorem completeLinkedTask_link (link : d.Link phase task) :
    completeLinkedTask phase task d = (.ok link.approved, link.settled) := by
  have path : link.output.it.path.display = link.path := by
    rw [(Slot.holds_iff _ _).mp link.output.passes]
    rfl
  have settled : link.host.settle task link.path =
      { link.host with
        tasks := .proper (link.linked.replaced link.completed)
        outputs := .proper (link.output.replaced link.approved) } := by
    rw [Phase.settle, link.given, link.produced, Slot.map_proper, Slot.map_proper, link.linked.changeFirst_eq,
      link.output.changeFirst_eq]
    rfl
  have changed : d.modifyPhase phase (fun _ => link.host.settle task link.path) = link.settled := by
    rw [Document.modifyPhase, link.phases, Table.modify, Slot.map_proper,
      Keyed.modify_append link.firstPhase, settled]
    rfl
  rw [completeLinkedTask, Attempt.run_bind_ok (Attempt.run_get d), Attempt.ofExcept_bind,
    link.linkedArtifact_eq]
  simp only [path]
  rw [Attempt.run_bind, changePhase, Attempt.run_bind, Edit.phase, link.phase_eq]
  simp only [Attempt.ofExcept_bind, Attempt.run_modify, changed]
  rfl

/-- Completing a linked task does all or nothing. It goes through if and only if there is a link; then the task
is completed and the output approved and given back, and all else is as it was. Without a link nothing
changes, and in a document in which everything is what belongs there either something is not found or the
path in the metadata is of no use. -/
theorem completeLinkedTask_whole (d : Document) (phase task : String) :
    (∀ link : d.Link phase task, completeLinkedTask phase task d = (.ok link.approved, link.settled)) ∧
    (IsEmpty (d.Link phase task) → ∃ fault, completeLinkedTask phase task d = (.error fault, d) ∧
      (d.Typed (fun _ _ => True) →
        (∃ text, fault = .notFound text) ∨ ∃ finding, fault = .invalid finding)) := by
  refine ⟨completeLinkedTask_link, fun empty => ?_⟩
  rcases found : d.linkedArtifact phase task with fault | a
  · refine ⟨fault, ?_, fun typed => typed.linkedArtifact_fault found⟩
    rw [completeLinkedTask, Attempt.run_bind_ok (Attempt.run_get d), Attempt.ofExcept_bind, found]
  · exact (not_isEmpty_iff.mpr (Document.link_of_linkedArtifact found) empty).elim

end Edit

/-- An open task that names a path. -/
def Task.pointing (id path : String) : Task where
  id := .proper id
  name := .proper "Write"
  phase := .proper "plan"
  status := .proper .pending
  createdAt := .proper newYear
  updatedAt := .proper newYear
  startedAt := .proper none
  completedAt := .proper none
  iteration := .proper 1
  assignedAgent := .proper "implementer"
  inputs := .none
  outputs := .none
  metadata := .proper [("artifact_path", .text path)]

/-- An output that is not approved yet. -/
def Artifact.fresh (path : String) : Artifact where
  type := .proper "document"
  path := .proper path
  approved := .proper false
  createdAt := .proper newYear
  metadata := .proper []

/-- A document with a phase that has these tasks and outputs. -/
def Document.pointing (tasks : List Task) (outputs : List Artifact) : Document where
  __ := Document.sample []
  phases := .ofEntries [("plan",
    { Phase.fresh newYear [] with tasks := .ofList tasks, outputs := .ofList outputs })]

/-- Two tasks and two outputs have one name. -/
def Document.doubled : Document :=
  .pointing [.pointing "a" "x", .pointing "b" "y", .pointing "b" "x"] [.fresh "x", .fresh "y", .fresh "y"]

def Document.doubledLink : Document.doubled.Link "plan" "b" where
  front := []
  host := { Phase.fresh newYear [] with
    tasks := .ofList [.pointing "a" "x", .pointing "b" "y", .pointing "b" "x"]
    outputs := .ofList [.fresh "x", .fresh "y", .fresh "y"] }
  back := []
  phases := rfl
  firstPhase := List.not_mem_nil
  tasks := [.pointing "a" "x", .pointing "b" "y", .pointing "b" "x"].map .proper
  given := rfl
  linked := ⟨[.pointing "a" "x"], .pointing "b" "y", [.proper (.pointing "b" "x")], rfl, by decide, by decide⟩
  metadata := [("artifact_path", .text "y")]
  noted := rfl
  path := "y"
  names := rfl
  nonempty := by decide
  outputs := [.fresh "x", .fresh "y", .fresh "y"].map .proper
  produced := rfl
  output := ⟨[.fresh "x"], .fresh "y", [.proper (.fresh "y")], rfl, by decide, by decide⟩

/-- Of what has one name the first is meant, and nothing comes of a task that is not there. -/
theorem Edit.completeLinkedTask_doubled :
    Edit.completeLinkedTask "plan" "b" .doubled =
      (.ok { Artifact.fresh "y" with approved := .proper true }, .pointing
        [.pointing "a" "x", { Task.pointing "b" "y" with status := .proper .completed }, .pointing "b" "x"]
        [.fresh "x", { Artifact.fresh "y" with approved := .proper true }, .fresh "y"]) ∧
    IsEmpty ((Document.sample []).Link "plan" "b") ∧ (Document.sample []).Typed (fun _ _ => True) ∧
    ∃ fault, Edit.completeLinkedTask "plan" "b" (.sample []) = (.error fault, .sample []) ∧
      ((∃ text, fault = .notFound text) ∨ ∃ finding, fault = .invalid finding) := by
  have unlinked : IsEmpty ((Document.sample []).Link "plan" "b") := by
    refine ⟨fun link => ?_⟩
    have found := link.linkedArtifact_eq
    cases found
  have typed : (Document.sample []).Typed fun _ _ => True := Document.sample_typed True.intro
  obtain ⟨fault, failed, blamed⟩ := (Edit.completeLinkedTask_whole (.sample []) "plan" "b").2 unlinked
  exact ⟨(Edit.completeLinkedTask_whole .doubled "plan" "b").1 Document.doubledLink, unlinked, typed,
    fault, failed, blamed typed⟩

end Lifecycle
