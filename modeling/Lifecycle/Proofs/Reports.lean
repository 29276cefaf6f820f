import Lifecycle.Proofs.Typed
import Lifecycle.Proofs.Wording
import Lifecycle.Validation
/-!
What the second tier of validation reports of typed phases. It looks at one phase after another, and what
it has found of one stays so, in the same words, while it looks at others. -/

namespace Lifecycle

/-- What stands there, if it is what belongs there. -/
def Slot.proper? {α : Type} : Slot α → Option α
  | .proper a => some a
  | .stray _ => none

/-- The things of a list that are what belongs there. -/
def Many.items {α : Type} (many : Many α) : List α := (many.proper?.getD []).filterMap Slot.proper?

@[simp] theorem Many.items_ofList {α : Type} (list : List α) : (Many.ofList list).items = list := by
  simp [items, ofList, Slot.proper?, List.filterMap_map, Function.comp_def]

/-- What is noted of a phase. -/
def Phase.notes (p : Phase) : Metadata := p.metadata.proper?.getD []

theorem mapIdxM_map {m : Type → Type} [Monad m] {α β γ : Type} (f : Nat → β → m γ) (g : α → β)
    (list : List α) : (list.map g).mapIdxM f = list.mapIdxM fun n a => f n (g a) := by
  have go (done : Array γ) :
      List.mapIdxM.go f (list.map g) done = List.mapIdxM.go (fun n a => f n (g a)) list done := by
    induction list generalizing done with
    | nil => rfl
    | cons a rest ih => simp only [List.map_cons, List.mapIdxM.go, ih]
  exact go #[]

theorem mapIdxM_ok {ε α β : Type} (f : Nat → α → β) (list : List α) :
    list.mapIdxM (fun n a => (Except.ok (f n a) : Except ε β)) = .ok (list.mapIdx f) := by
  have go (done : Array β) :
      List.mapIdxM.go (fun n a => (Except.ok (f n a) : Except ε β)) list done =
        .ok (List.mapIdx.go f list done) := by
    induction list generalizing done with
    | nil => rfl
    | cons a rest ih => exact ih _
  exact go #[]

theorem flatten_kept {α β : Type} (kept : α → Bool) (f : α → β) (list : List α) :
    (list.map fun a => if kept a then [f a] else []).flatten = (list.filter kept).map f := by
  induction list with
  | nil => rfl
  | cons a rest ih =>
      rw [List.map_cons, List.flatten_cons, ih, List.filter_cons]
      split <;> rfl

namespace PhasePlan

/-- The finding about an artifact of a type that is not listed. -/
def stranger (allowed : List String) (phase category : String) (n : Nat) (a : Artifact) : Finding :=
  ⟨some phase, s!"{category} artifact {n} ({a.path.display}) has type {a.type.shown}, " ++
    s!"allowed: {Fault.commaList allowed}"⟩

/-- One finding for each artifact of a type that is not listed; if none is listed all are allowed. -/
def strangers (allowed : List String) (phase category : String) (artifacts : List Artifact) :
    List Finding :=
  if allowed.isEmpty then []
  else (artifacts.zipIdx.filter fun entry => !allowed.any entry.1.type.holds).map fun entry =>
    stranger allowed phase category entry.2 entry.1

/-- One finding if there are tasks where there must not be any. -/
def unsupported (plan : PhasePlan) (phase : String) (tasks : List Task) : List Finding :=
  if tasks.isEmpty || plan.hasTasks then []
  else [⟨some phase, s!"phase does not support tasks ({tasks.length} found)"⟩]

/-- What is wrong with metadata, in the words of the schema that speaks for the plan's, or one finding if
there must not be any. -/
def unfitting (plan : PhasePlan) (known : Checkers) (m : Metadata) : List Finding :=
  match plan.schema with
  | some schema =>
    ((schema.speaker known).problems (.map m)).map fun p => ⟨some plan.name, s!"metadata {p.text}"⟩
  | none =>
    if m.isEmpty then []
    else
      let found := Fault.commaList (Text.sorted (Keyed.keys m))
      [⟨some plan.name, s!"metadata not allowed, no schema declared (found keys: {found})"⟩]

/-- Everything that a plan finds wrong with a phase. -/
def report (plan : PhasePlan) (known : Checkers) (name : String) (p : Phase) : List Finding :=
  strangers plan.inputTypes name "input" p.inputs.items ++
    strangers plan.outputTypes name "output" p.outputs.items ++
    plan.unsupported name p.tasks.items ++ plan.unfitting known p.notes

/-- What is known once a phase was held against its plan. -/
def learnt (plan : PhasePlan) (known : Checkers) : Checkers :=
  match plan.schema with
  | some schema => schema.learnt known
  | none => known

theorem artifactFindings_eq (allowed : List String) (phase category : String)
    (artifacts : List Artifact) :
    artifactFindings allowed phase category (.ofList artifacts) =
      .ok (strangers allowed phase category artifacts) := by
  have each : (artifacts.map Slot.proper).mapIdxM (artifactFindings.unlisted allowed phase category) =
      .ok (artifacts.mapIdx fun n a =>
        if !allowed.any a.type.holds then [stranger allowed phase category n a] else []) := by
    rw [mapIdxM_map, ← mapIdxM_ok]
    congr 1
    funext n a
    simp only [artifactFindings.unlisted, Slot.having, bind, Except.bind]
    cases allowed.any a.type.holds <;> rfl
  rw [artifactFindings, strangers]
  split
  · rfl
  · simp only [Many.ofList, Many.elements, bind, Except.bind, each, List.mapIdx_eq_zipIdx_map]
    exact congrArg Except.ok (flatten_kept
      (fun entry : Artifact × Nat => !allowed.any entry.1.type.holds)
      (fun entry => stranger allowed phase category entry.2 entry.1) _)

theorem taskFindings_eq (plan : PhasePlan) (phase : String) (tasks : List Task) :
    plan.taskFindings phase (.ofList tasks) = .ok (plan.unsupported phase tasks) := by
  rw [taskFindings, unsupported, Many.ofList, Many.filled, List.isEmpty_map, Bool.not_not]
  split
  · rfl
  · rw [Many.size, List.length_map]
    rfl

/-- Whether a plan's schema, if it has one, can be checked against. -/
def Checkable (plan : PhasePlan) : Prop := ∀ schema ∈ plan.schema, schema.usable = true

theorem run_metadataFindings {plan : PhasePlan} (able : plan.Checkable) (m : Metadata)
    (known : Checkers) :
    plan.metadataFindings (.proper m) known = (.ok (plan.unfitting known m), plan.learnt known) := by
  rw [metadataFindings, unfitting, learnt]
  cases given : plan.schema with
  | some schema => exact Attempt.run_bind_ok (Schema.run_check (able schema given) _ known) _
  | none => cases m <;> rfl

variable {condition : Condition}

theorem run_report {plan : PhasePlan} (able : plan.Checkable) (name : String) {p : Phase}
    (typed : p.Typed condition) (known : Checkers) :
    plan.findings name p known = (.ok (plan.report known name p), plan.learnt known) := by
  obtain ⟨inputs, given, _⟩ := typed.inputs.elim
  obtain ⟨outputs, made, _⟩ := typed.outputs.elim
  obtain ⟨tasks, listed, _⟩ := typed.tasks.elim
  obtain ⟨m, noted, _⟩ := typed.metadata.elim
  have notes : p.notes = m := by
    rw [Phase.notes, noted]
    rfl
  rw [findings, report, given, made, listed, noted, notes]
  simp only [artifactFindings_eq, taskFindings_eq, Attempt.ofExcept_bind, Many.items_ofList]
  rw [Attempt.run_bind_ok (run_metadataFindings able m known), Attempt.run_pure]

theorem report_stays {plan : PhasePlan} {known later : Checkers}
    (stays : Schema.Stays (plan.learnt known) later) (name : String) (p : Phase) :
    plan.report later name p = plan.report known name p := by
  rw [report, report, unfitting, unfitting]
  rw [learnt] at stays
  cases given : plan.schema with
  | none => rfl
  | some schema =>
      rw [given] at stays
      simp only [schema.speaker_stays stays]

theorem stays_learnt (plan : PhasePlan) (known : Checkers) : Schema.Stays known (plan.learnt known) := by
  rw [learnt]
  split
  · exact Schema.stays_learnt known _
  · exact fun _ _ heard => heard

end PhasePlan

namespace Blueprint

/-- What is found wrong with a phase. -/
def report (b : Blueprint) (known : Checkers) (name : String) (p : Phase) : List Finding :=
  match b.phase? name with
  | some plan => plan.report known name p
  | none => [⟨some name, s!"phase not defined by project type {b.name}"⟩]

/-- What is known once a phase of that name was validated. -/
def learnt (b : Blueprint) (known : Checkers) (name : String) : Checkers :=
  match b.phase? name with
  | some plan => plan.learnt known
  | none => known

/-- What is known once phases of these names were validated one after another. -/
def learntAll (b : Blueprint) (known : Checkers) (names : List String) : Checkers :=
  names.foldl b.learnt known

variable {b : Blueprint} {condition : Condition}

theorem run_report {name : String} (able : ∀ plan ∈ b.phase? name, plan.Checkable) {p : Phase}
    (typed : p.Typed condition) (known : Checkers) :
    b.phaseFindings name (.proper p) known = (.ok (b.report known name p), b.learnt known name) := by
  rw [phaseFindings, report, learnt]
  cases declared : b.phase? name with
  | none => rfl
  | some plan => exact PhasePlan.run_report (able plan declared) name typed known

theorem report_stays {known later : Checkers} {name : String}
    (stays : Schema.Stays (b.learnt known name) later) (p : Phase) :
    b.report later name p = b.report known name p := by
  rw [report, report]
  rw [learnt] at stays
  cases declared : b.phase? name with
  | none => rfl
  | some plan =>
      rw [declared] at stays
      exact PhasePlan.report_stays stays name p

theorem stays_learnt (b : Blueprint) (known : Checkers) (name : String) :
    Schema.Stays known (b.learnt known name) := by
  rw [learnt]
  split
  · next plan _ => exact plan.stays_learnt known
  · exact fun _ _ heard => heard

theorem stays_learntAll (b : Blueprint) (known : Checkers) (names : List String) :
    Schema.Stays known (b.learntAll known names) := by
  induction names generalizing known with
  | nil => exact fun _ _ heard => heard
  | cons name rest ih => exact (b.stays_learnt known name).trans (ih _)

/-- Phases are reported on one after another; what was found of one stays so while others are looked at. -/
theorem run_reports (entries : List (String × Phase))
    (able : ∀ entry ∈ entries, ∀ plan ∈ b.phase? entry.1, plan.Checkable)
    (typed : ∀ entry ∈ entries, entry.2.Typed condition) (known : Checkers) :
    let later := b.learntAll known (Keyed.keys entries)
    entries.mapM (fun entry => b.phaseFindings entry.1 (.proper entry.2)) known =
      (.ok (entries.map fun entry => b.report later entry.1 entry.2), later) := by
  induction entries generalizing known with
  | nil => rfl
  | cons entry rest ih =>
      obtain ⟨able, ableToo⟩ := List.forall_mem_cons.mp able
      obtain ⟨typed, typedToo⟩ := List.forall_mem_cons.mp typed
      -- What is learnt from the rest changes no words that the first has found.
      have first := report_stays (b.stays_learntAll (b.learnt known entry.1) (Keyed.keys rest)) entry.2
      rw [Attempt.run_mapM_cons, run_report able typed known]
      simp only
      rw [Attempt.run_bind_ok (ih ableToo typedToo _), Attempt.run_pure, ← first]
      rfl

theorem run_phasesFindings {d : Document} {entries : List (String × Phase)}
    (given : d.phases = .ofEntries entries)
    (able : ∀ entry ∈ entries, ∀ plan ∈ b.phase? entry.1, plan.Checkable)
    (typed : ∀ entry ∈ entries, entry.2.Typed condition) (known : Checkers) :
    let later := b.learntAll known (Keyed.keys entries)
    b.phasesFindings d known =
      (.ok (entries.flatMap fun entry => b.report later entry.1 entry.2), later) := by
  intro later
  rw [phasesFindings, given, Table.ofEntries, Table.entries, Attempt.ofExcept_bind, List.flatMap_def]
  simp only [List.mapM_map]
  exact Attempt.run_bind_ok (run_reports entries able typed known) _

end Blueprint

end Lifecycle
