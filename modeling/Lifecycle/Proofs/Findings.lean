import Lifecycle.Proofs.Reports
/-!
What the second tier of validation finds nothing wrong with. Of metadata only what the schema admits
counts, whatever was checked before; the rest is judged without looking at metadata. -/

namespace Lifecycle

theorem mapIdxM_flatten_nil_iff {ε α β : Type} {f : Nat → α → Except ε (List β)} {good : α → Prop}
    (each : ∀ n a, f n a = .ok [] ↔ good a) (list : List α) :
    (∃ found, list.mapIdxM f = .ok found ∧ found.flatten = []) ↔ ∀ a ∈ list, good a := by
  have go (done : Array (List β)) :
      (∃ found, List.mapIdxM.go f list done = .ok found ∧ found.flatten = []) ↔
        done.toList.flatten = [] ∧ ∀ a ∈ list, good a := by
    induction list generalizing done with
    | nil =>
        rw [List.mapIdxM.go]
        constructor
        · intro empty
          have ⟨_, same, nothing⟩ := empty
          cases same
          exact ⟨nothing, nofun⟩
        · exact fun empty => ⟨_, rfl, empty.1⟩
    | cons a rest ih =>
        rw [List.mapIdxM.go, List.forall_mem_cons, ← each done.size a]
        cases f done.size a with
        | error fault =>
            constructor
            · intro found
              have ⟨_, same, _⟩ := found
              cases same
            · intro found
              cases found.2.1
        | ok first =>
            refine (ih (done.push first)).trans ?_
            rw [Array.toList_push, List.flatten_append, List.append_eq_nil_iff, List.flatten_singleton,
              Except.ok.injEq, and_assoc]
  rw [List.mapIdxM, go]
  exact and_iff_right rfl

namespace PhasePlan

/-- Among artifacts nothing is found if all types are allowed, or if each is an artifact of an allowed
type. -/
theorem artifactFindings_nil_iff (allowed : List String) (phase category : String)
    (artifacts : List (Slot Artifact)) :
    artifactFindings allowed phase category (.proper artifacts) = .ok [] ↔
      allowed = [] ∨ ∀ s ∈ artifacts, ∃ a, s = .proper a ∧ allowed.any a.type.holds = true := by
  have each (n : Nat) (s : Slot Artifact) : artifactFindings.unlisted allowed phase category n s = .ok [] ↔
      ∃ a, s = .proper a ∧ allowed.any a.type.holds = true := by
    cases s with
    | stray v => simp [artifactFindings.unlisted, Slot.having, bind, Except.bind]
    | proper a =>
        simp only [artifactFindings.unlisted, Slot.having, bind, Except.bind, Slot.proper.injEq,
          exists_eq_left']
        split
        · next listed => exact ⟨fun _ => listed, fun _ => rfl⟩
        · next unlisted =>
          constructor
          · intro nothing
            cases nothing
          · exact fun listed => absurd listed unlisted
  rw [artifactFindings, ← mapIdxM_flatten_nil_iff each, ← List.isEmpty_iff]
  cases allowed.isEmpty with
  | true => exact ⟨fun _ => .inl rfl, fun _ => rfl⟩
  | false =>
      simp only [Bool.false_eq_true, if_false, Many.elements, bind, Except.bind, false_or]
      cases artifacts.mapIdxM (artifactFindings.unlisted allowed phase category) with
      | error fault => simp
      | ok found => simp [pure, Except.pure]

/-- An artifact of an allowed type can be added. -/
theorem artifactFindings_add {allowed : List String} {phase category : String}
    {artifacts more : Many Artifact} {a : Artifact} (clean : artifactFindings allowed phase category artifacts = .ok [])
    (listed : allowed.any a.type.holds = true) (added : artifacts.add a = .ok more) :
    artifactFindings allowed phase category more = .ok [] := by
  cases artifacts with
  | stray v => cases added
  | proper list =>
      cases added
      rw [artifactFindings_nil_iff] at clean ⊢
      cases clean with
      | inl all => exact .inl all
      | inr each =>
          apply Or.inr
          intro s member
          rw [List.mem_append, List.mem_singleton] at member
          cases member with
          | inl old => exact each s old
          | inr new => exact ⟨a, new, listed⟩

theorem artifactFindings_mapMetadata (allowed : List String) (phase category : String)
    (artifacts : List Artifact) (change : Metadata → Metadata) :
    artifactFindings allowed phase category (.ofList (artifacts.map (Artifact.mapMetadata change))) =
      artifactFindings allowed phase category (.ofList artifacts) := by
  have same : ((artifacts.map (Artifact.mapMetadata change)).map Slot.proper).mapIdxM
      (artifactFindings.unlisted allowed phase category) =
      (artifacts.map Slot.proper).mapIdxM (artifactFindings.unlisted allowed phase category) := by
    rw [mapIdxM_map, mapIdxM_map, mapIdxM_map]
    rfl
  simp only [artifactFindings, Many.ofList, Many.elements, bind, Except.bind, same]

/-- The metadata that a plan allows. -/
def AdmitsMetadata (plan : PhasePlan) (m : Metadata) : Prop :=
  match plan.schema with
  | some schema => schema.usable = true ∧ schema.Admits (.map m)
  | none => m = []

/-- What may stand in the place of metadata. -/
def PassesMetadata (plan : PhasePlan) (s : Slot Metadata) : Prop :=
  match plan.schema with
  | some schema => schema.usable = true ∧ schema.Admits s.toValue
  | none => s.truthy = false

theorem metadataFindings_nil_iff (plan : PhasePlan) (s : Slot Metadata) (checkers : Checkers) :
    (plan.metadataFindings s checkers).1 = .ok [] ↔ plan.PassesMetadata s := by
  rw [metadataFindings, PassesMetadata]
  cases plan.schema with
  | none =>
      simp only
      cases s.truthy with
      | false => exact ⟨fun _ => rfl, fun _ => rfl⟩
      | true =>
          rw [if_pos rfl, Attempt.ofExcept_bind]
          cases metadataNames s with
          | error fault => simp
          | ok names => simp
  | some schema =>
      simp only
      rw [← Schema.check_nil_iff schema s.toValue checkers, Attempt.bind_pure_ok]
      simp only [List.map_eq_nil_iff, exists_eq_right]

theorem passesMetadata_proper (plan : PhasePlan) (m : Metadata) :
    plan.PassesMetadata (.proper m) ↔ plan.AdmitsMetadata m := by
  rw [PassesMetadata, AdmitsMetadata]
  cases plan.schema with
  | some schema => exact Iff.rfl
  | none =>
      cases m with
      | nil => exact ⟨fun _ => rfl, fun _ => rfl⟩
      | cons entry rest => exact ⟨nofun, nofun⟩

/-- An entry that is not required can be taken out. -/
theorem PassesMetadata.take {plan : PhasePlan} {title : String} {extras : Extras} {fields : List Field}
    (declared : plan.schema = some (.record title extras fields)) {key : String}
    (optional : ∀ f ∈ fields, f.name = key → f.required = false) {metadata rest : Slot Metadata}
    (passes : plan.PassesMetadata metadata) (taken : metadata.takeEntry key = .ok rest) :
    plan.PassesMetadata rest := by
  cases metadata with
  | stray v => cases taken
  | proper m =>
      cases taken
      rw [PassesMetadata, declared] at passes ⊢
      exact ⟨passes.1, Schema.admits_erase passes.2 optional⟩

theorem AdmitsMetadata.checkable {plan : PhasePlan} {m : Metadata} (admitted : plan.AdmitsMetadata m) :
    plan.Checkable := by
  intro schema member
  rw [AdmitsMetadata, Option.mem_def.mp member] at admitted
  exact admitted.1

theorem metadataFindings_unusable {plan : PhasePlan} (not : ¬plan.Checkable) (m : Metadata)
    (checkers : Checkers) :
    plan.metadataFindings (.proper m) checkers = (.error .invalidSchema, checkers) := by
  rw [metadataFindings]
  cases given : plan.schema with
  | none =>
      refine absurd ?_ not
      intro schema member
      rw [given] at member
      cases member
  | some schema =>
      have unusable : schema.usable = false := by
        rw [← Bool.not_eq_true]
        intro usable
        refine not fun other member => ?_
        rw [given] at member
        cases member
        exact usable
      simp only
      rw [Attempt.run_bind, Schema.check, unusable]
      rfl

/-- A phase in which its plan finds nothing wrong. -/
structure Passes (plan : PhasePlan) (name : String) (p : Phase) : Prop where
  inputs : artifactFindings plan.inputTypes name "input" p.inputs = .ok []
  outputs : artifactFindings plan.outputTypes name "output" p.outputs = .ok []
  tasks : plan.taskFindings name p.tasks = .ok []
  metadata : plan.PassesMetadata p.metadata

theorem findings_passes_iff (plan : PhasePlan) (name : String) (p : Phase) (checkers : Checkers) :
    (plan.findings name p checkers).1 = .ok [] ↔ plan.Passes name p := by
  have whole : plan.Passes name p ↔
      artifactFindings plan.inputTypes name "input" p.inputs = .ok [] ∧
        artifactFindings plan.outputTypes name "output" p.outputs = .ok [] ∧
          plan.taskFindings name p.tasks = .ok [] ∧ plan.PassesMetadata p.metadata := by
    constructor
    · exact fun passes => ⟨passes.inputs, passes.outputs, passes.tasks, passes.metadata⟩
    · exact fun all => ⟨all.1, all.2.1, all.2.2.1, all.2.2.2⟩
  rw [whole, ← plan.metadataFindings_nil_iff p.metadata checkers, findings]
  simp only [Attempt.ofExcept_bind]
  cases artifactFindings plan.inputTypes name "input" p.inputs with
  | error fault => simp
  | ok first =>
      cases artifactFindings plan.outputTypes name "output" p.outputs with
      | error fault => simp
      | ok second =>
          cases plan.taskFindings name p.tasks with
          | error fault => simp
          | ok third =>
              rw [Attempt.bind_pure_ok]
              simp only [List.append_eq_nil_iff, Except.ok.injEq, exists_eq_right_right]
              constructor
              · rintro ⟨last, ⟨rfl, rfl⟩, rfl⟩
                exact ⟨rfl, rfl, rfl, last⟩
              · rintro ⟨rfl, rfl, rfl, last⟩
                exact ⟨last, ⟨rfl, rfl⟩, rfl⟩

/-- A phase that fits its plan. -/
structure Accepts (plan : PhasePlan) (name : String) (p : Phase) : Prop where
  inputs : artifactFindings plan.inputTypes name "input" p.inputs = .ok []
  outputs : artifactFindings plan.outputTypes name "output" p.outputs = .ok []
  tasks : plan.taskFindings name p.tasks = .ok []
  metadata : p.metadata.Holds plan.AdmitsMetadata

theorem findings_nil_iff (plan : PhasePlan) (name : String) {p : Phase} {property : Metadata → Prop}
    (proper : p.metadata.Holds property) (checkers : Checkers) :
    (plan.findings name p checkers).1 = .ok [] ↔ plan.Accepts name p := by
  have ⟨m, given, _⟩ := proper.elim
  have same : plan.PassesMetadata p.metadata ↔ p.metadata.Holds plan.AdmitsMetadata := by
    rw [given]
    exact plan.passesMetadata_proper m
  rw [findings_passes_iff]
  constructor
  · exact fun passes => ⟨passes.inputs, passes.outputs, passes.tasks, same.mp passes.metadata⟩
  · exact fun accepted => ⟨accepted.inputs, accepted.outputs, accepted.tasks, same.mpr accepted.metadata⟩

theorem taskFindings_mapMetadata (plan : PhasePlan) (phase : String) (tasks : List Task)
    (change : Metadata → Metadata) :
    plan.taskFindings phase (.ofList (tasks.map (Task.mapMetadata change))) =
      plan.taskFindings phase (.ofList tasks) := by
  simp only [taskFindings, Many.ofList, Many.filled, Many.size, List.length_map, List.isEmpty_map]

/-- What a plan accepts it also accepts with other metadata that it allows. -/
theorem accepts_mapMetadata {plan : PhasePlan} {name : String} {p : Phase} {condition : Condition}
    (typed : p.Typed condition) (accepted : plan.Accepts name p) (change : Metadata → Metadata) :
    plan.Accepts name (p.mapMetadata change) ↔
      p.metadata.Holds fun m => plan.AdmitsMetadata (change m) := by
  obtain ⟨status, enabled, createdAt, startedAt, completedAt, failedAt, iteration, inputs, outputs,
    tasks, metadata, rfl, _⟩ := typed.elim
  constructor
  · exact fun changed => changed.metadata
  · intro admitted
    simp only [Phase.mapMetadata, Many.map_ofList]
    constructor
    · rw [artifactFindings_mapMetadata]
      exact accepted.inputs
    · rw [artifactFindings_mapMetadata]
      exact accepted.outputs
    · rw [taskFindings_mapMetadata]
      exact accepted.tasks
    · exact admitted

variable {condition : Condition}

theorem findings_unusable {plan : PhasePlan} (not : ¬plan.Checkable) (name : String) {p : Phase}
    (typed : p.Typed condition) (checkers : Checkers) :
    (plan.findings name p checkers).1 = .error .invalidSchema := by
  obtain ⟨inputs, given, _⟩ := typed.inputs.elim
  obtain ⟨outputs, made, _⟩ := typed.outputs.elim
  obtain ⟨tasks, listed, _⟩ := typed.tasks.elim
  obtain ⟨m, noted, _⟩ := typed.metadata.elim
  rw [findings, given, made, listed, noted]
  simp only [artifactFindings_eq, taskFindings_eq, Attempt.ofExcept_bind]
  rw [Attempt.run_bind, metadataFindings_unusable not]

end PhasePlan

namespace Blueprint

/-- What stands in the place of a phase is one that the type declares, and its plan finds nothing wrong
with it. -/
def Passes (b : Blueprint) (name : String) (s : Slot Phase) : Prop :=
  ∃ p plan, s = .proper p ∧ b.phase? name = some plan ∧ plan.Passes name p

theorem phaseFindings_passes_iff (b : Blueprint) (name : String) (s : Slot Phase) (checkers : Checkers) :
    (b.phaseFindings name s checkers).1 = .ok [] ↔ b.Passes name s := by
  rw [phaseFindings, Passes]
  cases b.phase? name with
  | none => simp
  | some plan =>
      cases s with
      | stray v => simp [Slot.having, Attempt.ofExcept_bind]
      | proper p =>
          simp only [Slot.having, Attempt.ofExcept_bind, Slot.proper.injEq, Option.some.injEq,
            exists_eq_left', exists_and_left]
          exact plan.findings_passes_iff name p checkers

theorem phasesFindings_passes_iff (b : Blueprint) (d : Document) (checkers : Checkers) :
    (b.phasesFindings d checkers).1 = .ok [] ↔
      ∃ entries, d.phases = .proper entries ∧ ∀ entry ∈ entries, b.Passes entry.1 entry.2 := by
  rw [phasesFindings]
  cases d.phases with
  | stray v => simp [Table.entries, Attempt.ofExcept_bind]
  | proper entries =>
      simp only [Table.entries, Attempt.ofExcept_bind, Attempt.bind_pure_ok, Slot.proper.injEq,
        exists_eq_left']
      exact Attempt.mapM_flatten_nil_iff
        (fun entry _ => b.phaseFindings_passes_iff entry.1 entry.2) checkers

/-- A phase that the type declares, as it declares it. -/
def Accepts (b : Blueprint) (name : String) (p : Phase) : Prop :=
  ∃ plan, b.phase? name = some plan ∧ plan.Accepts name p

theorem phaseFindings_nil_iff (b : Blueprint) (name : String) {p : Phase} {property : Metadata → Prop}
    (proper : p.metadata.Holds property) (checkers : Checkers) :
    (b.phaseFindings name (.proper p) checkers).1 = .ok [] ↔ b.Accepts name p := by
  rw [phaseFindings, Accepts]
  cases b.phase? name with
  | none => simp
  | some plan =>
      simp only [Slot.having, Attempt.ofExcept_bind, Option.some.injEq, exists_eq_left']
      exact plan.findings_nil_iff name proper checkers

theorem phasesFindings_nil_iff (b : Blueprint) {d : Document} {phases : List (String × Phase)}
    (given : d.phases = .ofEntries phases) {property : Metadata → Prop}
    (proper : ∀ entry ∈ phases, entry.2.metadata.Holds property) (checkers : Checkers) :
    (b.phasesFindings d checkers).1 = .ok [] ↔ ∀ entry ∈ phases, b.Accepts entry.1 entry.2 := by
  rw [phasesFindings, given, Table.ofEntries, Table.entries, Attempt.ofExcept_bind]
  simp only [Attempt.bind_pure_ok, List.mapM_map]
  exact Attempt.mapM_flatten_nil_iff
    (fun entry member => b.phaseFindings_nil_iff entry.1 (proper entry member)) checkers

/-- Whether the schemas that a type declares for the phases of a document can be checked against. -/
def Checkable (b : Blueprint) (d : Document) : Prop :=
  ∀ name ∈ d.phaseNames, ∀ plan ∈ b.phase? name, plan.Checkable

theorem checkable_of_accepts {b : Blueprint} {d : Document} {phases : List (String × Phase)}
    (given : d.phases = .ofEntries phases)
    (accepted : ∀ entry ∈ phases, b.Accepts entry.1 entry.2) : b.Checkable d := by
  rw [Checkable, Document.phaseNames_eq given]
  intro name member plan declared
  obtain ⟨entry, inside, rfl⟩ := List.mem_map.mp member
  obtain ⟨same, known, fits⟩ := accepted entry inside
  rw [declared] at known
  obtain rfl := Option.some.inj known
  obtain ⟨m, _, admitted⟩ := fits.metadata.elim
  exact admitted.checkable

section

variable {b : Blueprint} {d : Document} {condition : Condition}

theorem phaseFindings_unusable {name : String} (not : ¬∀ plan ∈ b.phase? name, plan.Checkable)
    {p : Phase} (typed : p.Typed condition) (checkers : Checkers) :
    (b.phaseFindings name (.proper p) checkers).1 = .error .invalidSchema := by
  rw [phaseFindings]
  cases declared : b.phase? name with
  | none =>
      rw [declared] at not
      exact absurd (fun _ member => absurd member (Option.not_mem_none _)) not
  | some plan =>
      rw [declared] at not
      apply PhasePlan.findings_unusable _ name typed checkers
      intro able
      apply not
      intro other same
      exact Option.some.inj same ▸ able

theorem phasesFindings_succeeds (typed : d.Typed condition) (checkable : b.Checkable d)
    (checkers : Checkers) : ∃ found, (b.phasesFindings d checkers).1 = .ok found := by
  obtain ⟨phases, given, _, all⟩ := typed.phases.elim
  rw [Checkable, Document.phaseNames_eq given] at checkable
  have able (entry : String × Phase) (member : entry ∈ phases) := checkable entry.1 (List.mem_map_of_mem member)
  exact ⟨_, congrArg Prod.fst (run_phasesFindings given able all checkers)⟩

theorem phasesFindings_unusable (typed : d.Typed condition) (not : ¬b.Checkable d)
    (checkers : Checkers) : (b.phasesFindings d checkers).1 = .error .invalidSchema := by
  obtain ⟨phases, given, _, all⟩ := typed.phases.elim
  have some : ∃ entry ∈ phases, ¬∀ plan ∈ b.phase? entry.1, plan.Checkable := by
    by_contra none
    apply not
    rw [Checkable, Document.phaseNames_eq given]
    intro name member
    obtain ⟨entry, inside, rfl⟩ := List.mem_map.mp member
    by_contra here
    exact none ⟨entry, inside, here⟩
  have failed := Attempt.mapM_fails
    (fun entry member here => phaseFindings_unusable here (all entry member))
    (fun entry member here known =>
      ⟨_, congrArg Prod.fst (run_report (not_not.mp here) (all entry member) known)⟩) some checkers
  rw [phasesFindings, given, Table.ofEntries, Table.entries, Attempt.ofExcept_bind]
  simp only [List.mapM_map]
  exact Attempt.bind_fails failed _

/-- The check passes, or the project is invalid, if the schemas can be checked against. -/
theorem check_of_checkable (typed : d.Typed condition) (checkable : b.Checkable d)
    (checkers : Checkers) {fault : Fault} (failed : (b.check d checkers).1 = .error fault) :
    ∃ found, fault = .invalidProject s!"project {d.name.display} is invalid" found := by
  obtain ⟨found, done⟩ := phasesFindings_succeeds typed checkable checkers
  rw [check, Attempt.run_bind, findings, Attempt.run_bind] at failed
  rcases shape : b.phasesFindings d checkers with ⟨other | inner, after⟩
  · rw [shape] at done
    cases done
  · rw [shape] at failed
    simp only [Attempt.run_pure] at failed
    split at failed
    · exact ⟨_, (Except.error.inj failed).symm⟩
    · cases failed

/-- The check cannot be made if a schema cannot be checked against. -/
theorem check_unusable (typed : d.Typed condition) (not : ¬b.Checkable d) (checkers : Checkers) :
    (b.check d checkers).1 = .error .invalidSchema :=
  Attempt.bind_fails (Attempt.bind_fails (phasesFindings_unusable typed not checkers) _) _

end

theorem checkPhases_of_findings {b : Blueprint} {d : Document} {found : List Finding}
    {checkers : Checkers} (findings : (b.phasesFindings d checkers).1 = .ok found) :
    (b.checkPhases d checkers).1 =
      if found = [] then .ok () else .error (.invalidProject "validate metadata" found) := by
  rw [checkPhases, Attempt.run_bind]
  rcases shape : b.phasesFindings d checkers with ⟨result, after⟩
  rw [shape] at findings
  obtain rfl : result = .ok found := findings
  cases found <;> rfl

theorem problems_of_check {b : Blueprint} {d : Document} {checkers : Checkers}
    (passed : (b.check d checkers).1 = .ok ()) :
    d.problems = [] ∧ (b.phasesFindings d checkers).1 = .ok [] := by
  obtain ⟨found, after, shape, passed⟩ := Attempt.ok_of_bind passed
  cases found with
  | cons finding rest => cases passed
  | nil =>
      have all : (b.findings d checkers).1 = .ok [] := congrArg Prod.fst shape
      obtain ⟨inner, done, empty⟩ := (Attempt.bind_pure_ok _ _ _ _).mp all
      obtain ⟨structural, rfl⟩ := List.append_eq_nil_iff.mp empty
      exact ⟨List.map_eq_nil_iff.mp structural, done⟩

theorem check_of_clean {b : Blueprint} {d : Document} {checkers : Checkers}
    (rules : d.problems = []) (clean : (b.phasesFindings d checkers).1 = .ok []) :
    (b.check d checkers).1 = .ok () := by
  have found : (b.findings d checkers).1 = .ok [] := by
    refine (Attempt.bind_pure_ok _ _ _ _).mpr ⟨[], clean, ?_⟩
    rw [Document.structureFindings, rules]
    rfl
  rw [check, Attempt.run_bind]
  rcases shape : b.findings d checkers with ⟨result, after⟩
  rw [shape] at found
  obtain rfl : result = .ok [] := found
  rfl

end Blueprint

end Lifecycle
