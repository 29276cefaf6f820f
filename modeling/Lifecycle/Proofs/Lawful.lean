import Lifecycle.Proofs.Decided
import Lifecycle.Proofs.Loading
/-!
What the rules for documents ask beyond everything being in its place. What is read obeys them, what
obeys them reads back as it is, and so no document that a file gives breaks any. -/

namespace Lifecycle

namespace Reading

variable {α : Type}

namespace Gives

/-- Where it is clear whether something was read, what is required of it holds. -/
theorem required {condition : α → Bool} {why : Misfit} {r : Reading α} (decided : r.Decided) :
    (Reading.require condition why r).Gives fun a => condition a = true := by
  intro a given
  unfold Reading.require at given
  split at given
  · next b found _ =>
    split at given
    · next holds =>
      obtain rfl := Option.some.inj (found.symm.trans given)
      exact holds
    · cases given
  · next other =>
    have free : r.problems = [] := decided.mpr (Option.isSome_of_mem given)
    exact absurd free (other a given)

theorem mono {property weaker : α → Prop} {r : Reading α} (gives : r.Gives property)
    (implies : ∀ a, property a → weaker a) : r.Gives weaker :=
  fun a given => implies a (gives a given)

/-- What is read on the right may be anything. -/
theorem skip {β : Type} {result : β → Prop} {f : Reading (α → β)}
    (left : f.Gives fun g => ∀ a, result (g a)) (r : Reading α) : (f <*> r).Gives result :=
  (left.mono fun _ all a _ => all a).seq (.anything r)

theorem nonEmptyText (v : Value) : ((nonEmpty ∘ text) v).Gives (· ≠ "") :=
  (required (.text v)).mono fun _ => bne_iff_ne.mp

theorem leastInteger (least : Int) (v : Value) :
    ((atLeast least ∘ integer) v).Gives (least ≤ ·) :=
  (required (.integer v)).mono fun _ => of_decide_eq_true

end Gives

theorem taskStatus_nil (status : TaskStatus) : (taskStatus (.text status.text)).problems = [] := by
  rw [taskStatus, named, TaskStatus.ofText?_text]
  rfl

theorem timeText_nil {t : Option Timestamp} (proper : ProperIfAny t) :
    (optionalTime (timeText t)).problems = [] := by
  cases t with
  | none => rfl
  | some t => exact optionalTime_nil (proper t rfl)

theorem leastInteger_nil {least n : Int} (enough : least ≤ n) :
    ((atLeast least ∘ integer) (.integer n)).problems = [] :=
  (atLeast_good least n).mpr enough

theorem projectName_nil {s : String} (name : Text.isName s = true) :
    (projectName (.text s)).problems = [] := by
  rw [projectName]
  exact require_nil _ name

theorem projectType_nil {s : String} (name : Text.isTypeName s = true) :
    (projectType (.text s)).problems = [] := by
  rw [projectType]
  exact require_nil _ name

end Reading

open Reading Value

/-- An artifact that names its type and its path. -/
structure Artifact.Lawful (a : Artifact) : Prop where
  type : a.type.Holds (· ≠ "")
  path : a.path.Holds (· ≠ "")

/-- A task that says what it is and where it belongs and was begun at least once. -/
structure Task.Lawful (t : Task) : Prop where
  id : t.id.Holds (· ≠ "")
  name : t.name.Holds (· ≠ "")
  phase : t.phase.Holds (· ≠ "")
  iteration : t.iteration.Holds (1 ≤ ·)
  inputs : t.inputs.Holds Artifact.Lawful
  outputs : t.outputs.Holds Artifact.Lawful

structure Phase.Lawful (p : Phase) : Prop where
  iteration : p.iteration.Holds (0 ≤ ·)
  inputs : p.inputs.Holds Artifact.Lawful
  outputs : p.outputs.Holds Artifact.Lawful
  tasks : p.tasks.Holds Task.Lawful

structure Statechart.Lawful (s : Statechart) : Prop where
  current : s.current.Holds (· ≠ "")

/-- A document that obeys the rules, at every depth, that are not about kinds of values. -/
structure Document.Lawful (d : Document) : Prop where
  name : d.name.Holds (Text.isName · = true)
  type : d.type.Holds (Text.isTypeName · = true)
  branch : d.branch.Holds (· ≠ "")
  phases : d.phases.Holds Phase.Lawful
  statechart : d.statechart.Holds Statechart.Lawful

section

variable {has : Value → Prop} (inherited : Inherited has) (now : Timestamp)
include inherited

theorem Artifact.read_lawful {v : Value} (given : has v) :
    (Artifact.read now v).Gives Artifact.Lawful := by
  refine Gives.record inherited (fun source fields => ?_) given
  refine Gives.map (fun _ type _ path _ _ _ => ⟨type, path⟩) ?_
    |>.seq ?_ |>.skip _ |>.skip _ |>.skip _
  · exact Gives.field fields fun v _ => .nonEmptyText v
  · exact Gives.field fields fun v _ => .nonEmptyText v

theorem Artifact.readList_lawful {v : Value} (given : has v) :
    (list (Artifact.read now) v).Gives fun slots => ∀ s ∈ slots, s.Holds Artifact.Lawful :=
  .list inherited (fun _ => Artifact.read_lawful inherited now) given

theorem Task.read_lawful {v : Value} (given : has v) : (Task.read now v).Gives Task.Lawful := by
  refine Gives.record inherited (fun source fields => ?_) given
  refine Gives.map (fun _ id _ name _ phase _ _ _ _ _ _ iteration _ _ inputs _ outputs _ =>
      ⟨id, name, phase, iteration, inputs, outputs⟩) ?_
    |>.seq ?_ |>.seq ?_ |>.skip _ |>.skip _ |>.skip _ |>.skip _ |>.skip _ |>.seq ?_ |>.skip _
    |>.seq ?_ |>.seq ?_ |>.skip _
  · exact Gives.field fields fun v _ => .nonEmptyText v
  · exact Gives.field fields fun v _ => .nonEmptyText v
  · exact Gives.field fields fun v _ => .nonEmptyText v
  · exact Gives.fieldOr fields (by decide) fun v _ => .leastInteger 1 v
  · exact Gives.fieldOr fields (by simp) fun _ => Artifact.readList_lawful inherited now
  · exact Gives.fieldOr fields (by simp) fun _ => Artifact.readList_lawful inherited now

theorem Phase.read_lawful {v : Value} (given : has v) : (Phase.read now v).Gives Phase.Lawful := by
  refine Gives.record inherited (fun source fields => ?_) given
  refine Gives.map (fun _ _ _ _ _ _ _ _ iteration _ inputs _ outputs _ tasks _ =>
      ⟨iteration, inputs, outputs, tasks⟩) (.anything _)
    |>.skip _ |>.skip _ |>.skip _ |>.skip _ |>.skip _ |>.seq ?_ |>.seq ?_ |>.seq ?_ |>.seq ?_
    |>.skip _
  · exact Gives.fieldOr fields (by decide) fun v _ => .leastInteger 0 v
  · exact Gives.fieldOr fields (by simp) fun _ => Artifact.readList_lawful inherited now
  · exact Gives.fieldOr fields (by simp) fun _ => Artifact.readList_lawful inherited now
  · exact Gives.fieldOr fields (by simp) fun _ given =>
      .list inherited (fun _ => Task.read_lawful inherited now) given

theorem Statechart.read_lawful {v : Value} (given : has v) :
    (Statechart.read now v).Gives Statechart.Lawful := by
  refine Gives.record inherited (fun source fields => ?_) given
  refine Gives.map (fun _ current _ => ⟨current⟩) ?_ |>.skip _
  exact Gives.field fields fun v _ => .nonEmptyText v

/-- What is read of any data obeys the rules. -/
theorem Document.read_lawful {v : Value} (given : has v) :
    (Document.read now v).Gives Document.Lawful := by
  refine Gives.record inherited (fun source fields => ?_) given
  refine Gives.map (fun _ name _ type _ branch _ _ _ _ phases _ statechart _ =>
      ⟨name, type, branch, phases, statechart⟩) ?_
    |>.seq ?_ |>.seq ?_ |>.skip _ |>.skip _ |>.skip _ |>.seq ?_ |>.seq ?_ |>.skip _
  · exact Gives.field fields fun v _ => .required (Decided.text v)
  · exact Gives.field fields fun v _ => .required (Decided.text v)
  · exact Gives.fieldOr fields (by decide) fun v _ => .nonEmptyText v
  · exact Gives.fieldOr fields ⟨by decide, by simp⟩ fun _ given =>
      .table inherited (fun _ => Phase.read_lawful inherited now) given
  · exact Gives.field fields fun _ => Statechart.read_lawful inherited now

end

section

variable {condition : Condition} (now : Timestamp)

theorem Artifact.Lawful.reads {a : Artifact} (lawful : a.Lawful) (typed : a.Typed condition) :
    (Artifact.read now a.toValue.bare).problems = [] := by
  obtain ⟨type, path, approved, createdAt, metadata, rfl, created, _⟩ := typed.elim
  rw [bare_artifact, Artifact.read, Reading.record]
  simp only [problems_seq, problems_map, List.append_eq_nil_iff, and_assoc]
  refine ⟨?_, ?_, ?_, ?_, ?_⟩
  · exact (field_nil_iff rfl _).mpr (nonEmpty_nil lawful.type)
  · exact (field_nil_iff rfl _).mpr (nonEmpty_nil lawful.path)
  · exact (fieldOr_nil_iff rfl _ _).mpr rfl
  · exact (fieldOr_nil_iff rfl _ _).mpr (time_nil created)
  · exact (fieldOr_nil_iff rfl _ _).mpr rfl

theorem Artifact.Lawful.reads_all {artifacts : List Artifact}
    (lawful : (Many.ofList artifacts).Holds Artifact.Lawful)
    (typed : ∀ a ∈ artifacts, a.Typed condition) :
    (list (Artifact.read now) (.list (artifacts.map fun a => a.toValue.bare))).problems = [] :=
  (list_nil_iff _ _ _).mpr fun a member =>
    (Many.holds_ofList.mp lawful a member).reads now (typed a member)

theorem Task.Lawful.reads {t : Task} (lawful : t.Lawful) (typed : t.Typed condition) :
    (Task.read now t.toValue.bare).problems = [] := by
  obtain ⟨id, name, phase, status, createdAt, updatedAt, startedAt, completedAt, iteration, agent,
    inputs, outputs, metadata, rfl, created, updated, started, completed, ins, outs, _⟩ := typed.elim
  rw [bare_task, Task.read, Reading.record]
  simp only [problems_seq, problems_map, List.append_eq_nil_iff, and_assoc]
  refine ⟨?_, ?_, ?_, ?_, ?_, ?_, ?_, ?_, ?_, ?_, ?_, ?_, ?_⟩
  · exact (field_nil_iff rfl _).mpr (nonEmpty_nil lawful.id)
  · exact (field_nil_iff rfl _).mpr (nonEmpty_nil lawful.name)
  · exact (field_nil_iff rfl _).mpr (nonEmpty_nil lawful.phase)
  · exact (fieldOr_nil_iff rfl _ _).mpr (taskStatus_nil status)
  · exact (fieldOr_nil_iff rfl _ _).mpr (time_nil created)
  · exact (fieldOr_nil_iff rfl _ _).mpr (time_nil updated)
  · exact (fieldOr_nil_iff rfl _ _).mpr (timeText_nil started)
  · exact (fieldOr_nil_iff rfl _ _).mpr (timeText_nil completed)
  · exact (fieldOr_nil_iff rfl _ _).mpr (leastInteger_nil lawful.iteration)
  · exact (fieldOr_nil_iff rfl _ _).mpr rfl
  · exact (fieldOr_nil_iff rfl _ _).mpr (Artifact.Lawful.reads_all now lawful.inputs ins)
  · exact (fieldOr_nil_iff rfl _ _).mpr (Artifact.Lawful.reads_all now lawful.outputs outs)
  · exact (fieldOr_nil_iff rfl _ _).mpr rfl

theorem Phase.Lawful.reads {p : Phase} (lawful : p.Lawful) (typed : p.Typed condition) :
    (Phase.read now p.toValue.bare).problems = [] := by
  obtain ⟨status, enabled, createdAt, startedAt, completedAt, failedAt, iteration, inputs, outputs,
    tasks, metadata, rfl, created, started, completed, failed, ins, outs, all, _⟩ := typed.elim
  rw [bare_phase, Phase.read, Reading.record]
  simp only [problems_seq, problems_map, List.append_eq_nil_iff, and_assoc]
  refine ⟨?_, ?_, ?_, ?_, ?_, ?_, ?_, ?_, ?_, ?_, ?_⟩
  · exact (fieldOr_nil_iff rfl _ _).mpr (phaseStatus_nil status)
  · exact (fieldOr_nil_iff rfl _ _).mpr rfl
  · exact (fieldOr_nil_iff rfl _ _).mpr (time_nil created)
  · exact (fieldOr_nil_iff rfl _ _).mpr (timeText_nil started)
  · exact (fieldOr_nil_iff rfl _ _).mpr (timeText_nil completed)
  · exact (fieldOr_nil_iff rfl _ _).mpr (timeText_nil failed)
  · exact (fieldOr_nil_iff rfl _ _).mpr (leastInteger_nil lawful.iteration)
  · exact (fieldOr_nil_iff rfl _ _).mpr (Artifact.Lawful.reads_all now lawful.inputs ins)
  · exact (fieldOr_nil_iff rfl _ _).mpr (Artifact.Lawful.reads_all now lawful.outputs outs)
  · refine (fieldOr_nil_iff rfl _ _).mpr ((list_nil_iff _ _ _).mpr fun t member => ?_)
    exact (Many.holds_ofList.mp lawful.tasks t member).reads now (all t member)
  · exact (fieldOr_nil_iff rfl _ _).mpr rfl

theorem Statechart.Lawful.reads {s : Statechart} (lawful : s.Lawful) (typed : s.Typed) :
    (Statechart.read now s.toValue.bare).problems = [] := by
  obtain ⟨current, updatedAt, rfl, updated⟩ := typed.elim
  rw [bare_statechart, Statechart.read, Reading.record]
  simp only [problems_seq, problems_map, List.append_eq_nil_iff]
  constructor
  · exact (field_nil_iff rfl _).mpr (nonEmpty_nil lawful.current)
  · exact (fieldOr_nil_iff rfl _ _).mpr (time_nil updated)

theorem Document.Lawful.reads {d : Document} (lawful : d.Lawful) (typed : d.Typed condition) :
    (Document.read now d.toValue.bare).problems = [] := by
  obtain ⟨name, type, branch, description, createdAt, updatedAt, phases, statechart, sessions, rfl,
    created, updated, _, all, chart, _⟩ := typed.elim
  rw [bare_document, Document.read, Reading.record]
  simp only [problems_seq, problems_map, List.append_eq_nil_iff, and_assoc]
  refine ⟨?_, ?_, ?_, ?_, ?_, ?_, ?_, ?_, ?_⟩
  · exact (field_nil_iff rfl _).mpr (projectName_nil lawful.name)
  · exact (field_nil_iff rfl _).mpr (projectType_nil lawful.type)
  · exact (fieldOr_nil_iff rfl _ _).mpr (nonEmpty_nil lawful.branch)
  · exact (fieldOr_nil_iff rfl _ _).mpr rfl
  · exact (fieldOr_nil_iff rfl _ _).mpr (time_nil created)
  · exact (fieldOr_nil_iff rfl _ _).mpr (time_nil updated)
  · refine (fieldOr_nil_iff rfl _ _).mpr
      ((table_nil_iff (Phase.read now) (·.toValue.bare) phases).mpr fun entry member => ?_)
    exact ((Table.holds_ofEntries.mp lawful.phases).2 entry member).reads now (all entry member)
  · exact (field_nil_iff rfl _).mpr (lawful.statechart.reads now chart)
  · exact (fieldOr_nil_iff rfl _ _).mpr ((table_nil_iff text .text sessions).mpr fun _ _ => rfl)

end

namespace Document

variable {condition : Condition} {real : Decimal.Binary64 → Bool} (data : condition.OnData real)
  {d : Document} (typed : d.Typed condition)
include data typed

/-- What is written of a document is read as the document itself at any time, or with problems at all
times. -/
theorem read_same : Agree (fun now => Document.read now d.toValue.bare) fun _ => d := by
  obtain ⟨updated, given, proper⟩ := typed.updatedAt.elim
  have plain (_ : Timestamp) (kind : RecordKind) (m : Metadata) (good : condition kind m) :
      bareEntries (id m) = id m := bareEntries_data data good
  have agree := read_bare (fun now : Timestamp => now) plain typed fun _ => proper
  simp only [stamped_same typed given] at agree
  exact agree

/-- The first tier of validation asks just this of a document in which everything is in its place. -/
theorem problems_nil_iff_lawful : d.problems = [] ↔ d.Lawful := by
  constructor
  · intro sound
    have same : Document.read unset d.toValue.bare = good d := read_same data typed ⟨unset, sound⟩ unset
    have lawful := read_lawful (inherited_data real) unset (isData_bare data typed)
    rw [same] at lawful
    exact lawful d rfl
  · exact fun lawful => lawful.reads unset typed

end Document

namespace FileStore

/-- Why a text is refused: it is no JSON, or there are problems with what it says, of which all are given. -/
def Refuses (now : Timestamp) (text : String) : Undecoded → Prop
  | .syntactic fault => Json.parse text = .error (.syntactic fault)
  | .malformed problems =>
    ∃ v, Json.parse text = .ok v ∧ (Document.read now v).problems = problems ∧ problems ≠ []

/-- A text is beyond what is read at all, or refused for what is wrong with it, or nothing is and it gives a
document that obeys the rules. -/
theorem decode_outcome {now : Timestamp} (proper : now.Proper) (path text : String) :
    (∃ which, Json.parse text = .error (.excess which) ∧
      decode path now text = .error (.ofExcess which)) ∨
    (∃ why, Refuses now text why ∧ decode path now text = .error (.unreadable path why)) ∨
    ∃ v d, Json.parse text = .ok v ∧ Document.read now v = .good d ∧ decode path now text = .ok d ∧
      d.Typed .json ∧ d.Lawful := by
  rcases parsed : Json.parse text with (fault | which) | v
  · exact .inr (.inl ⟨.syntactic fault, parsed, by rw [decode, parsed]⟩)
  · exact .inl ⟨which, rfl, by rw [decode, parsed]⟩
  · rcases (Document.read_decided now v).outcome with ⟨d, made⟩ | ⟨some, refused⟩
    · have decoded : decode path now text = .ok d := by
        rw [decode, parsed]
        simp only [made]
        rfl
      have lawful := Document.read_lawful (inherited_data _) now (Json.received_data.parse parsed)
      rw [made] at lawful
      exact .inr (.inr ⟨v, d, rfl, made, decoded, decode_typed proper decoded, lawful d rfl⟩)
    · refine .inr (.inl ⟨.malformed _, ⟨v, parsed, rfl, some⟩, ?_⟩)
      rw [decode, parsed]
      simp only [refused]

end FileStore

namespace Project

/-- Whether a document that obeys the rules is refused for its type: none has the name, a schema of it is
of no use, or the phases do not fit its plans. -/
def Misfitting (d : Document) (fault : Fault) : Prop :=
  (∃ known, fault = .unknownType d.type.display known) ∨ fault = .invalidSchema ∨
    ∃ found, fault = .invalidProject "validate metadata" found

theorem accept_failsAs {condition : Condition} {d : Document} (typed : d.Typed condition)
    (sound : d.problems = []) (registry : Registry) (checkers : Checkers) :
    FailsAs (Misfitting d) (accept registry d checkers).1 := by
  obtain ⟨state, noted⟩ := typed.noted
  have structured : d.checkStructure = .ok () := Document.checkStructure_eq_ok.mpr sound
  rw [run_accept, structured, noted]
  refine (FailsAs.ok _).bind fun _ => FailsAs.bind ?_ fun b => (FailsAs.ok _).bind fun _ => ?_
  · rw [Registry.get]
    split
    · exact .ok _
    · exact .error (.inl ⟨_, rfl⟩)
  · exact ((b.checkPhases_failsAs typed checkers).mono fun _ => .inr).bind fun _ => .ok _

end Project

namespace FileStore

variable {φ : Type} [FileSystem φ]

/-- Whatever text a file holds within the limits of what is read at all, it is refused for what is wrong
with it, or nothing is wrong and it gives a document in which everything is in its place and obeys the
rules, and which reads back from what is written of it. So a project is never refused in the first
tier of validation when it is loaded from a file. -/
theorem load_lawful {now : Timestamp} (proper : now.Proper) {store : FileStore φ} {text : String}
    (found : (FileSystem.read store.path store.files).1 = .ok text) :
    ((∃ which, Json.parse text = .error (.excess which) ∧ (load now store).1 = .error (.ofExcess which)) ∨
      (∃ why, Refuses now text why ∧ (load now store).1 = .error (.unreadable store.path why)) ∨
      ∃ v d, Json.parse text = .ok v ∧ Document.read now v = .good d ∧ (load now store).1 = .ok d ∧
        d.Typed .json ∧ d.Lawful ∧ d.structureFindings = [] ∧
        ∀ later, Document.read later d.toValue.bare = .good d) ∧
      ∀ registry checkers findings, (Project.load registry now ⟨store, checkers⟩).1 ≠
        .error (.invalidProject "validate structure" findings) := by
  have loaded := load_of_read found now
  have fails {fault : Fault} (failed : (load now store).1 = .error fault) (registry : Registry)
      (checkers : Checkers) : (Project.load registry now ⟨store, checkers⟩).1 = .error fault := by
    rw [Project.load_result]
    exact congrArg (· >>= _) failed
  rcases decode_outcome proper store.path text with ⟨which, beyond, failed⟩ | ⟨why, refuses, failed⟩ |
    ⟨v, d, parsed, read, decoded, typed, lawful⟩
  · refine ⟨.inl ⟨which, beyond, loaded.trans failed⟩, fun registry checkers findings refused => ?_⟩
    rw [fails (loaded.trans failed)] at refused
    cases which <;> cases refused
  · refine ⟨.inr (.inl ⟨why, refuses, loaded.trans failed⟩), fun registry checkers findings refused => ?_⟩
    rw [fails (loaded.trans failed)] at refused
    cases refused
  · have data : Condition.json.OnData fun _ => true := fun _ _ has => has
    have sound : d.problems = [] := lawful.reads unset typed
    have clean : d.structureFindings = [] := by rw [Document.structureFindings, sound]; rfl
    refine ⟨.inr (.inr ⟨v, d, parsed, read, loaded.trans decoded, typed, lawful, clean,
      Document.read_same data typed ⟨unset, sound⟩⟩), fun registry checkers findings refused => ?_⟩
    have found : (Backend.load now store).1 = .ok d := loaded.trans decoded
    rw [Project.load_result, found] at refused
    simp only [bind, Except.bind] at refused
    rcases Project.accept_failsAs typed sound registry checkers _ refused with
      ⟨known, other⟩ | other | ⟨found, other⟩
    · cases other
    · cases other
    · exact absurd (Fault.invalidProject.inj other).1 (by decide)

/-- A file with a document in which a number is spelled out and most fields are left out. -/
def sketched : FileStore MemoryFiles :=
  let sketch : Value := .map [("name", .text "a"), ("type", .text "standard"),
    ("phases", .map [("plan", .map [("iteration", .text " 2 ")])]),
    ("statechart", .map [("current_state", .text "Start")])]
  ⟨⟨[("s.json", Json.print .inline sketch)]⟩, "s.json"⟩

theorem load_lawful_sketched :
    ∃ d, (load newYear sketched).1 = .ok d ∧ d.Lawful ∧ d.structureFindings = [] := by
  have loads : (load newYear sketched).1.isOk = true := by decide +kernel
  have found : (FileSystem.read sketched.path sketched.files).1 = .ok _ := rfl
  have outcome := (load_lawful newYear_proper found).1
  rcases outcome with ⟨which, _, failed⟩ | ⟨why, _, failed⟩ | ⟨_, d, _, _, loaded, _, lawful, clean, _⟩
  · rw [failed] at loads
    cases loads
  · rw [failed] at loads
    cases loads
  · exact ⟨d, loaded, lawful, clean⟩

end FileStore

end Lifecycle
