import Lifecycle.Proofs.Codec
import Lifecycle.Proofs.Findings
import Lifecycle.Proofs.Legible
/-!
Validation judges each phase by itself and by what the type declares of it, and reports on the phases one after
another, after what the rules for every document say of each. Other phases, and what was checked before,
decide about nothing but the order in which a report lists alternatives. -/

namespace Lifecycle

/-- Findings that say the same, but for the order of the alternatives that they list. -/
inductive Finding.Alike : Finding → Finding → Prop
  | same (f : Finding) : Alike f f
  | reordered (phase : Option String) {p q : Problem} (alike : p.Alike q) :
      Alike ⟨phase, s!"metadata {p.text}"⟩ ⟨phase, s!"metadata {q.text}"⟩

theorem Finding.alike_refl (found : List Finding) : List.Forall₂ Alike found found :=
  List.forall₂_same.mpr fun f _ => .same f

namespace PhasePlan

/-- A phase that is as its plan declares it. -/
structure Conforms (plan : PhasePlan) (p : Phase) : Prop where
  inputs : plan.inputTypes ≠ [] → ∀ a ∈ p.inputs.items, ∃ type ∈ plan.inputTypes, a.type = .proper type
  outputs : plan.outputTypes ≠ [] → ∀ a ∈ p.outputs.items, ∃ type ∈ plan.outputTypes, a.type = .proper type
  tasks : p.tasks.items ≠ [] → plan.hasTasks = true
  metadata : plan.AdmitsMetadata p.notes

theorem strangers_nil_iff (allowed : List String) (phase category : String) (artifacts : List Artifact) :
    strangers allowed phase category artifacts = [] ↔
      (allowed ≠ [] → ∀ a ∈ artifacts, ∃ type ∈ allowed, a.type = .proper type) := by
  have clean := artifactFindings_nil_iff allowed phase category (artifacts.map Slot.proper)
  rw [← Many.ofList, artifactFindings_eq, Except.ok.injEq] at clean
  rw [clean, or_iff_not_imp_left]
  simp only [List.forall_mem_map, Slot.proper.injEq, exists_eq_left', List.any_eq_true, Slot.holds_iff]

theorem unsupported_nil_iff (plan : PhasePlan) (phase : String) (tasks : List Task) :
    plan.unsupported phase tasks = [] ↔ (tasks ≠ [] → plan.hasTasks = true) := by
  have fitting : (tasks.isEmpty || plan.hasTasks) = true ↔ (tasks ≠ [] → plan.hasTasks = true) := by
    rw [Bool.or_eq_true, List.isEmpty_iff, or_iff_not_imp_left]
  rw [unsupported, ← fitting]
  split
  · next fits => exact ⟨fun _ => fits, fun _ => rfl⟩
  · next unfit =>
      exact ⟨fun empty => absurd empty (List.cons_ne_nil _ _), fun fits => absurd fits unfit⟩

theorem unfitting_nil_iff {plan : PhasePlan} (able : plan.Checkable) (known : Checkers) (m : Metadata) :
    plan.unfitting known m = [] ↔ plan.AdmitsMetadata m := by
  rw [← passesMetadata_proper, ← metadataFindings_nil_iff plan _ known, run_metadataFindings able,
    Except.ok.injEq]

/-- Nothing is reported of a phase if and only if it is as declared. -/
theorem report_nil_iff {plan : PhasePlan} (able : plan.Checkable) (known : Checkers) (name : String)
    (p : Phase) : plan.report known name p = [] ↔ plan.Conforms p := by
  rw [report, List.append_eq_nil_iff, List.append_eq_nil_iff, List.append_eq_nil_iff, strangers_nil_iff,
    strangers_nil_iff, unsupported_nil_iff, unfitting_nil_iff able]
  constructor
  · rintro ⟨⟨⟨inputs, outputs⟩, tasks⟩, metadata⟩
    exact ⟨inputs, outputs, tasks, metadata⟩
  · exact fun fits => ⟨⟨⟨fits.inputs, fits.outputs⟩, fits.tasks⟩, fits.metadata⟩

/-- Whatever else is known, a report has the same findings. -/
theorem report_alike (plan : PhasePlan) (known others : Checkers) (name : String) (p : Phase) :
    List.Forall₂ Finding.Alike (plan.report known name p) (plan.report others name p) := by
  refine List.rel_append (Finding.alike_refl _) ?_
  rw [unfitting, unfitting]
  cases plan.schema with
  | none => exact Finding.alike_refl _
  | some schema =>
      rw [List.forall₂_map_left_iff, List.forall₂_map_right_iff]
      exact (schema.speaker_alike known others _).imp fun _ _ alike => .reordered _ alike

/-- A report is in the words of the plan's own schema unless one that is written otherwise and allows the
same is known. -/
theorem report_own {plan : PhasePlan} {known : Checkers}
    (alone : ∀ schema ∈ plan.schema, ∀ other ∈ known, schema.agrees other = true → other = schema)
    (name : String) (p : Phase) : plan.report known name p = plan.report [] name p := by
  rw [report, report, unfitting, unfitting]
  cases given : plan.schema with
  | none => rfl
  | some schema =>
      have own : schema.speaker [] = schema := rfl
      simp only [Schema.speaker_self (alone schema given), own]

theorem report_tagged {plan : PhasePlan} {name : String} (named : plan.name = name) (known : Checkers)
    (p : Phase) : ∀ finding ∈ plan.report known name p, finding.phase = some name := by
  have listed (allowed : List String) (category : String) (artifacts : List Artifact) :
      ∀ finding ∈ strangers allowed name category artifacts, finding.phase = some name := by
    rw [strangers]
    split
    · exact List.forall_mem_nil _
    · exact List.forall_mem_map.mpr fun _ _ => rfl
  have tasks : ∀ finding ∈ plan.unsupported name p.tasks.items, finding.phase = some name := by
    rw [unsupported]
    split
    · exact List.forall_mem_nil _
    · exact List.forall_mem_singleton.mpr rfl
  have noted : ∀ finding ∈ plan.unfitting known p.notes, finding.phase = some name := by
    rw [unfitting, named]
    cases plan.schema with
    | some schema => exact List.forall_mem_map.mpr fun _ _ => rfl
    | none =>
        simp only
        split
        · exact List.forall_mem_nil _
        · exact List.forall_mem_singleton.mpr rfl
  simp only [report, List.forall_mem_append]
  exact ⟨⟨⟨listed _ _ _, listed _ _ _⟩, tasks⟩, noted⟩

end PhasePlan

namespace Blueprint

/-- A phase that the type declares, as it declares it. -/
def Conforms (b : Blueprint) (name : String) (p : Phase) : Prop :=
  ∃ plan, b.phase? name = some plan ∧ plan.Conforms p

/-- Whether every schema that a type declares can be checked against. -/
def Able (b : Blueprint) : Prop := ∀ name, ∀ plan ∈ b.phase? name, plan.Checkable

variable {b : Blueprint} {condition : Condition}

theorem report_nil_iff (able : b.Able) (known : Checkers) (name : String) (p : Phase) :
    b.report known name p = [] ↔ b.Conforms name p := by
  rw [report, Conforms]
  cases declared : b.phase? name with
  | none => simp
  | some plan =>
      simp only [Option.some.injEq, exists_eq_left']
      exact PhasePlan.report_nil_iff (able name plan declared) known name p

theorem report_alike (known others : Checkers) (name : String) (p : Phase) :
    List.Forall₂ Finding.Alike (b.report known name p) (b.report others name p) := by
  rw [report, report]
  cases b.phase? name with
  | none => exact Finding.alike_refl _
  | some plan => exact plan.report_alike known others name p

theorem report_own {known : Checkers} {name : String}
    (alone : ∀ plan ∈ b.phase? name, ∀ schema ∈ plan.schema, ∀ other ∈ known,
      schema.agrees other = true → other = schema) (p : Phase) :
    b.report known name p = b.report [] name p := by
  rw [report, report]
  cases declared : b.phase? name with
  | none => rfl
  | some plan => exact PhasePlan.report_own (alone plan declared) name p

theorem report_tagged {name : String} (named : ∀ plan ∈ b.phase? name, plan.name = name)
    (known : Checkers) (p : Phase) : ∀ finding ∈ b.report known name p, finding.phase = some name := by
  rw [report]
  cases declared : b.phase? name with
  | none => exact List.forall_mem_singleton.mpr rfl
  | some plan => exact PhasePlan.report_tagged (named plan declared) known p

end Blueprint

open Reading Value

/-- What the rules for every document find wrong with a phase. -/
def Phase.structureFindings (name : String) (p : Phase) : List Finding :=
  (Phase.read unset p.toValue.bare).problems.map fun q => ((q.under name).under "phases").finding

theorem Phase.structureFindings_tagged (name : String) (p : Phase) :
    ∀ finding ∈ p.structureFindings name, finding.phase = some name :=
  List.forall_mem_map.mpr fun _ _ => rfl

theorem Table.problems_ofEntries (entries : List (String × Phase)) :
    ((Table.ofEntries entries).problems "phases" (table (Phase.read unset))).map Problem.finding =
      entries.flatMap fun entry => entry.2.structureFindings entry.1 := by
  have written : bareField "phases" (Table.ofEntries entries).toValue =
      .map (entries.map fun entry => (entry.1, entry.2.toValue.bare)) := by
    show Value.map (bareEntries ((entries.map fun entry => (entry.1, Slot.proper entry.2)).map
      fun entry => (entry.1, entry.2.toValue))) = _
    rw [bareEntries_eq, List.map_map, List.map_map]
    rfl
  rw [Slot.problems, written, table, entries_problems]
  simp only [List.flatMap_map, List.map_flatMap, List.map_map]
  rfl

/-- The rules for every document judge each phase by itself. -/
theorem Document.structureFindings_phases (d : Document) (entries : List (String × Phase)) :
    ({ d with phases := .ofEntries entries } : Document).structureFindings =
      d.problemsBefore.map Problem.finding ++
        (entries.flatMap fun entry => entry.2.structureFindings entry.1) ++
        d.problemsAfter.map Problem.finding := by
  rw [structureFindings, problems_eq, List.map_append, List.map_append, Table.problems_ofEntries]
  rfl

namespace Blueprint

end Blueprint

/-- A plan of a phase in which risks are ranked. -/
def PhasePlan.ranking (name : String) (ranks : List String) : PhasePlan :=
  { PhasePlan.named name with schema := some (.shape (.map (.choice ranks))) }

/-- A type whose phases allow the same ranks, but list them in different orders. -/
def Blueprint.risks : Blueprint where
  name := "risks"
  initial := "Drafting"
  phases := [("draft", .ranking "draft" ["high", "low"]), ("review", .ranking "review" ["low", "high"])]
  transitions := []
  determiners := []
  prompts := []
  branches := []
  orchestrator := none
  initializer := none

/-- A phase in which a risk is ranked. -/
def Phase.ranked (rank : String) : Phase :=
  { Phase.fresh newYear [] with metadata := .proper [("delay", .text rank)] }

/-- A document of which the phases are given. -/
def Document.ofPhases (entries : List (String × Phase)) : Document :=
  { Document.sample [] with phases := .ofEntries entries }

theorem Blueprint.risks_able : Blueprint.risks.Able := by
  intro name plan declared schema member
  have listed := Keyed.mem_of_find? declared
  simp only [risks, List.mem_cons, Prod.mk.injEq, List.not_mem_nil, or_false] at listed
  rcases listed with ⟨_, rfl⟩ | ⟨_, rfl⟩
  · cases member
    rfl
  · cases member
    rfl

/-- Three phases, of which one is badly ranked and one is not declared. -/
def rankedPhases : List (String × Phase) :=
  [("draft", .ranked "odd"), ("review", .ranked "low"), ("finish", .ranked "low")]

theorem rankedPhases_typed : ∀ entry ∈ rankedPhases, entry.2.Typed fun _ _ => True := by
  have typed (rank : String) : (Phase.ranked rank).Typed fun _ _ => True :=
    Phase.fresh_typed newYear_proper (fun _ member => absurd member List.not_mem_nil) True.intro
  simp only [rankedPhases, List.forall_mem_cons]
  exact ⟨typed _, typed _, typed _, List.forall_mem_nil _⟩

end Lifecycle
