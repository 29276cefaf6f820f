import Lifecycle.Proofs.Attempt
import Lifecycle.Proofs.Counting
import Lifecycle.Proofs.Data
import Lifecycle.Proofs.Timestamp
import Lifecycle.Validation
/-!
What the rules for every document come to, field by field. A document breaks none of them if and only if what
stands in each of its places reads as what belongs there, whether or not it is that already. -/

namespace Lifecycle

namespace Value

/-- What is written of what stands in a field of a record. -/
def bareField (name : String) : Value → Value
  | .list items => .list (bareItems (FieldUse.ofName name).kind? items)
  | .flag b => if FieldUse.ofName name = .count then .integer (if b then 1 else 0) else .flag b
  | v => bare v

theorem bareFields_eq (fields : List (String × Value)) :
    bareFields false fields = fields.map fun field => (field.1, bareField field.1 field.2) := by
  induction fields with
  | nil => rfl
  | cons field rest ih =>
      obtain ⟨name, v⟩ := field
      cases v with
      | flag b =>
          rw [bareFields, ih, List.map_cons, bareField]
          rfl
      | list items =>
          rw [bareFields, ih]
          rfl
      | _ =>
          rw [bareFields, ih]
          · rfl
          · intro items same
            cases same
          · intro b same
            cases same

theorem bare_record (kind : RecordKind) (fields : List (String × Value)) :
    (record kind fields).bare = .map (fields.map fun field => (field.1, bareField field.1 field.2)) := by
  rw [bare, bareFields_eq]

/-- What is written of an item of a list that is for records of a kind. -/
def bareItem (kind : RecordKind) : Value → Value
  | .record other fields => .map (bareFields (decide (other ≠ kind)) fields)
  | v => bare v

theorem bareItems_eq (kind : RecordKind) (items : List Value) :
    bareItems (some kind) items = items.map (bareItem kind) := by
  induction items with
  | nil => rfl
  | cons v rest ih =>
      cases v with
      | record other fields =>
          rw [bareItems, ih, List.map_cons, bareItem]
          simp only [Option.any_some, ne_comm]
      | _ =>
          rw [bareItems, ih]
          · rfl
          · intro other fields same
            cases same

end Value

namespace Reading

variable {α β : Type}

theorem problems_map (f : α → β) (r : Reading α) : (f <$> r).problems = r.problems := rfl

theorem problems_seq (f : Reading (α → β)) (r : Reading α) :
    (f <*> r).problems = f.problems ++ r.problems := rfl

theorem under_nil_iff (step : String) (r : Reading α) :
    (under step r).problems = [] ↔ r.problems = [] := List.map_eq_nil_iff

theorem field_problems {source : List (String × Value)} {name : String} {v : Value}
    (found : Keyed.find? source name = some v) (read : Value → Reading α) :
    (field source name read).problems = (read v).problems.map (Problem.under name) := by
  rw [field, found]
  rfl

theorem fieldOr_problems {source : List (String × Value)} {name : String} {v : Value}
    (found : Keyed.find? source name = some v) (default : α) (read : Value → Reading α) :
    (fieldOr source name default read).problems = (read v).problems.map (Problem.under name) := by
  rw [fieldOr, found]
  rfl

theorem field_nil_iff {source : List (String × Value)} {name : String} {v : Value}
    (found : Keyed.find? source name = some v) (read : Value → Reading α) :
    (field source name read).problems = [] ↔ (read v).problems = [] := by
  rw [field_problems found, List.map_eq_nil_iff]

theorem fieldOr_nil_iff {source : List (String × Value)} {name : String} {v : Value}
    (found : Keyed.find? source name = some v) (default : α) (read : Value → Reading α) :
    (fieldOr source name default read).problems = [] ↔ (read v).problems = [] := by
  rw [fieldOr_problems found, List.map_eq_nil_iff]

theorem items_nil_iff (read : Value → Reading α) (first : Nat) (list : List Value) :
    (items read first list).problems = [] ↔ ∀ v ∈ list, (read v).problems = [] := by
  induction list generalizing first with
  | nil => exact ⟨fun _ _ => nofun, fun _ => rfl⟩
  | cons v rest ih =>
      rw [List.forall_mem_cons, ← ih (first + 1), ← under_nil_iff (toString first) (read v)]
      exact List.append_eq_nil_iff

theorem entries_problems (read : Value → Reading α) (table : List (String × Value)) :
    (entries read table).problems =
      table.flatMap fun entry => (read entry.2).problems.map (Problem.under entry.1) := by
  induction table with
  | nil => rfl
  | cons entry rest ih =>
      rw [List.flatMap_cons, ← ih]
      rfl

theorem entries_nil_iff (read : Value → Reading α) (table : List (String × Value)) :
    (entries read table).problems = [] ↔ ∀ entry ∈ table, (read entry.2).problems = [] := by
  rw [entries_problems, List.flatMap_eq_nil_iff]
  simp only [List.map_eq_nil_iff]

theorem list_nil_iff (read : Value → Reading α) (written : β → Value) (items : List β) :
    (list read (.list (items.map written))).problems = [] ↔
      ∀ b ∈ items, (read (written b)).problems = [] := by
  rw [list, items_nil_iff, List.forall_mem_map]
  rfl

theorem table_nil_iff (read : Value → Reading α) (written : β → Value) (entries : List (String × β)) :
    (table read (.map (entries.map fun entry => (entry.1, written entry.2)))).problems = [] ↔
      ∀ entry ∈ entries, (read (written entry.2)).problems = [] := by
  rw [table, entries_nil_iff, List.forall_mem_map]
  rfl

end Reading

open Reading Value

/-- The time of what is left out, which does not matter where nothing is. -/
def unset : Timestamp := .ofSeconds 0 0 none

/-- What stands in a field of a record is written as something that can be read back. -/
def Slot.Reads {α : Type} [Plain α] (name : String) (read : Value → Reading α) (s : Slot α) : Prop :=
  (read (bareField name s.toValue)).problems = []

/-- A phase of which everything reads as what belongs in its place. -/
@[mk_iff]
structure Phase.Legible (p : Phase) : Prop where
  status : p.status.Reads "status" phaseStatus
  enabled : p.enabled.Reads "enabled" flag
  createdAt : p.createdAt.Reads "created_at" time
  startedAt : p.startedAt.Reads "started_at" optionalTime
  completedAt : p.completedAt.Reads "completed_at" optionalTime
  failedAt : p.failedAt.Reads "failed_at" optionalTime
  iteration : p.iteration.Reads "iteration" (atLeast 0 ∘ integer)
  inputs : p.inputs.Reads "inputs" (list (Artifact.read unset))
  outputs : p.outputs.Reads "outputs" (list (Artifact.read unset))
  tasks : p.tasks.Reads "tasks" (list (Task.read unset))
  metadata : p.metadata.Reads "metadata" anyMap

@[mk_iff]
structure Document.Legible (d : Document) : Prop where
  name : d.name.Reads "name" projectName
  type : d.type.Reads "type" projectType
  branch : d.branch.Reads "branch" (nonEmpty ∘ text)
  description : d.description.Reads "description" text
  createdAt : d.createdAt.Reads "created_at" time
  updatedAt : d.updatedAt.Reads "updated_at" time
  phases : d.phases.Reads "phases" (table (Phase.read unset))
  statechart : d.statechart.Reads "statechart" (Statechart.read unset)
  agentSessions : d.agentSessions.Reads "agent_sessions" (table text)

theorem Phase.read_nil_iff (p : Phase) :
    (Phase.read unset p.toValue.bare).problems = [] ↔ p.Legible := by
  rw [legible_iff, Phase.toValue, bare_record, Phase.read, Reading.record]
  simp only [problems_seq, problems_map, List.append_eq_nil_iff, and_assoc]
  iterate 10 refine and_congr (fieldOr_nil_iff rfl _ _) ?_
  exact fieldOr_nil_iff rfl _ _

/-- The problems of what stands in a field. -/
def Slot.problems {α : Type} [Plain α] (name : String) (read : Value → Reading α) (s : Slot α) :
    List Problem :=
  (read (bareField name s.toValue)).problems.map (Problem.under name)

/-- The problems of the fields that come before the phases. -/
def Document.problemsBefore (d : Document) : List Problem :=
  d.name.problems "name" projectName ++ d.type.problems "type" projectType ++
    d.branch.problems "branch" (nonEmpty ∘ text) ++ d.description.problems "description" text ++
    d.createdAt.problems "created_at" time ++ d.updatedAt.problems "updated_at" time

/-- The problems of the fields that come after the phases. -/
def Document.problemsAfter (d : Document) : List Problem :=
  d.statechart.problems "statechart" (Statechart.read unset) ++
    d.agentSessions.problems "agent_sessions" (table text)

theorem Document.problems_eq (d : Document) :
    d.problems =
      d.problemsBefore ++ d.phases.problems "phases" (table (Phase.read unset)) ++ d.problemsAfter := by
  rw [problems, toValue, bare_record, Document.read, Reading.record, problemsAfter, ← List.append_assoc]
  simp only [problems_seq, problems_map]
  refine congrArg₂ (· ++ ·) ?_ (fieldOr_problems rfl _ _)
  refine congrArg₂ (· ++ ·) ?_ (field_problems rfl _)
  iterate 5 refine congrArg₂ (· ++ ·) ?_ (fieldOr_problems rfl _ _)
  exact congrArg₂ (· ++ ·) (field_problems rfl _) (field_problems rfl _)

theorem Document.problems_nil_iff (d : Document) : d.problems = [] ↔ d.Legible := by
  rw [problems_eq, legible_iff, problemsBefore, problemsAfter]
  simp only [List.append_eq_nil_iff, Slot.problems, List.map_eq_nil_iff, and_assoc]
  rfl

namespace Reading

theorem require_nil {condition : α → Bool} {a : α} (why : Misfit) (holds : condition a = true) :
    (require condition why (good a)).problems = [] :=
  congrArg problems (if_pos holds)

theorem nonEmpty_nil {s : String} (filled : s ≠ "") : ((nonEmpty ∘ text) (.text s)).problems = [] := by
  show (require (· != "") .emptyText (good s)).problems = []
  exact require_nil _ (bne_iff_ne.mpr filled)

theorem phaseStatus_nil (status : PhaseStatus) : (phaseStatus (.text status.text)).problems = [] := by
  rw [phaseStatus, named, PhaseStatus.ofText?_text]
  rfl

theorem time_nil {t : Timestamp} (dated : t.Proper) : (time (.text t.print)).problems = [] := by
  rw [time_print dated]
  rfl

theorem optionalTime_nil {t : Timestamp} (dated : t.Proper) :
    (optionalTime (.text t.print)).problems = [] := by
  rw [optionalTime, time_print dated]
  · rfl
  · nofun

end Reading

namespace Slot

theorem reads_status (status : PhaseStatus) : (proper status).Reads "status" phaseStatus :=
  phaseStatus_nil status

theorem reads_time (name : String) {t : Timestamp} (dated : t.Proper) : (proper t).Reads name time :=
  time_nil dated

theorem reads_someTime (name : String) {t : Timestamp} (dated : t.Proper) :
    (proper (some t)).Reads name optionalTime :=
  optionalTime_nil dated

theorem reads_noTime (name : String) : (proper (none : Option Timestamp)).Reads name optionalTime := rfl

theorem reads_metadata (name : String) (m : Metadata) : (proper m).Reads name anyMap := rfl

theorem reads_statechart {state : String} (named : state ≠ "") {t : Timestamp} (dated : t.Proper) :
    (proper (Statechart.noted state t)).Reads "statechart" (Statechart.read unset) := by
  have written : bareField "statechart" (proper (Statechart.noted state t)).toValue =
      .map [("current_state", .text state), ("updated_at", .text t.print)] := rfl
  rw [Reads, written, Statechart.read, Reading.record]
  simp only [problems_seq, problems_map, List.append_eq_nil_iff]
  constructor
  · exact (field_nil_iff rfl _).mpr (nonEmpty_nil named)
  · exact (fieldOr_nil_iff rfl _ _).mpr (time_nil dated)

theorem reads_phases (entries : Keyed String (Slot Phase)) :
    (proper entries).Reads "phases" (table (Phase.read unset)) ↔
      ∀ entry ∈ entries, (Phase.read unset entry.2.toValue.bare).problems = [] := by
  show (Reading.entries _ (bareEntries (entries.map fun entry =>
    (entry.1, entry.2.toValue)))).problems = [] ↔ _
  rw [bareEntries_eq, entries_nil_iff, List.map_map, List.forall_mem_map]
  rfl

theorem reads_artifacts {name : String} (use : FieldUse.ofName name = .records .artifact)
    (artifacts : List (Slot Artifact)) :
    (proper artifacts).Reads name (list (Artifact.read unset)) ↔
      ∀ s ∈ artifacts, (Artifact.read unset (bareItem .artifact s.toValue)).problems = [] := by
  have written : bareField name (proper artifacts).toValue =
      .list ((artifacts.map Slot.toValue).map (bareItem .artifact)) := by
    rw [← bareItems_eq]
    show Value.list (bareItems (FieldUse.ofName name).kind? _) = _
    rw [use]
    rfl
  rw [Reads, written, list_nil_iff, List.forall_mem_map]

end Slot

theorem Reading.atLeast_good (least n : Int) : (atLeast least (good n)).problems = [] ↔ least ≤ n := by
  by_cases enough : least ≤ n
  · simp [atLeast, require, good, enough]
  · simp [atLeast, require, good, bad, enough]

theorem Reading.integer_real {x : Decimal.Binary64} {n : Nat} (whole : x.toInt? = some (n : Int))
    (below : n < 2 ^ 63) : integer (.real x) = good (n : Int) := by
  have finite := (Decimal.Binary64.toInt?_eq_some_iff.mp whole).1
  rw [integer, whole, finite]
  simp only [Bool.not_true, Bool.false_eq_true, if_false, Int.natAbs_natCast, Nat.pow_eq, below, if_true]

/-- A real that counts is a whole number of 63 bits. -/
theorem Reading.whole_of_counts {x : Decimal.Binary64}
    (counts : (atLeast 0 (integer (.real x))).problems = []) :
    ∃ n : Nat, n < 2 ^ 63 ∧ x.toInt? = some (n : Int) := by
  rw [integer] at counts
  split at counts
  · cases counts
  · split at counts
    · next n whole =>
      split at counts
      · next below =>
        have least := (atLeast_good 0 n).mp counts
        have same : (n.toNat : Int) = n := Int.toNat_of_nonneg least
        exact ⟨n.toNat, by simp only [Nat.pow_eq] at below; omega, same ▸ whole⟩
      · cases counts
    · cases counts

/-- What can be counted on can be counted on when it is one more. -/
theorem Slot.reads_successor {s : Slot Int} (reads : s.Reads "iteration" (atLeast 0 ∘ integer))
    {v : Value} (next : s.toValue.successor = .ok v) :
    (Slot.ofValue v : Slot Int).Reads "iteration" (atLeast 0 ∘ integer) := by
  rw [Reads, Function.comp_apply] at reads ⊢
  rw [toValue_ofValue]
  generalize s.toValue = old at reads next
  cases old with
  | integer n =>
      cases next
      have least : 0 ≤ n := (atLeast_good 0 n).mp reads
      exact (atLeast_good 0 (n + 1)).mpr (by omega)
  | flag b =>
      cases next
      cases b
      · exact (atLeast_good 0 _).mpr (by decide)
      · exact (atLeast_good 0 _).mpr (by decide)
  | real x =>
      cases next
      have ⟨n, below, whole⟩ := whole_of_counts reads
      have ⟨m, small, more⟩ := Decimal.Binary64.plus_one_whole whole below
      show (atLeast 0 (integer (.real (x.plus 1)))).problems = []
      rw [integer_real more small]
      exact (atLeast_good 0 m).mpr (Int.natCast_nonneg m)
  | _ => cases next

namespace Phase.Legible

variable {p q : Phase} {t : Timestamp}

theorem start (legible : p.Legible) (dated : t.Proper) : (p.start t).Legible := by
  rw [Phase.start]
  split
  · exact { legible with
      status := Slot.reads_status _
      startedAt := Slot.reads_someTime _ dated }
  · exact legible

theorem complete (legible : p.Legible) (dated : t.Proper) : (p.complete t).Legible := by
  rw [Phase.complete]
  split
  · exact legible
  · exact { legible with
      status := Slot.reads_status _
      completedAt := Slot.reads_someTime _ dated }

theorem fail (legible : p.Legible) (dated : t.Proper) : (p.fail t).Legible :=
  { legible with
    status := Slot.reads_status _
    failedAt := Slot.reads_someTime _ dated }

theorem reopen (legible : p.Legible) (dated : t.Proper) : (p.reopen t).Legible :=
  { legible with
    status := Slot.reads_status _
    startedAt := Slot.reads_someTime _ dated
    completedAt := Slot.reads_noTime _
    failedAt := Slot.reads_noTime _ }

theorem iterate (legible : p.Legible) (iterated : p.iterate = .ok q) : q.Legible := by
  have ⟨_, next, same⟩ := Except.bind_eq_ok.mp iterated
  cases same
  exact { legible with iteration := Slot.reads_successor legible.iteration next }

theorem takeEntry (legible : p.Legible) {key : String} {metadata : Slot Metadata}
    (taken : p.metadata.takeEntry key = .ok metadata) : Legible { p with metadata } := by
  cases held : p.metadata with
  | proper m =>
      rw [held] at taken
      cases taken
      exact { legible with metadata := Slot.reads_metadata _ _ }
  | stray v =>
      rw [held] at taken
      cases taken

/-- An output of a phase that reads as one reads as an input of another. -/
theorem addInput (legible : p.Legible) {origin : Phase} (beside : origin.Legible)
    {outputs : List (Slot Artifact)} (given : origin.outputs = .proper outputs) {a : Artifact}
    (member : .proper a ∈ outputs) {inputs : Many Artifact} (added : p.inputs.add a = .ok inputs) :
    Legible { p with inputs } := by
  have sound := beside.outputs
  rw [given, Slot.reads_artifacts rfl] at sound
  cases held : p.inputs with
  | proper list =>
      have all := legible.inputs
      rw [held, Slot.reads_artifacts rfl] at all
      rw [held] at added
      cases added
      refine { legible with inputs := (Slot.reads_artifacts rfl _).mpr ?_ }
      intro s inside
      rw [List.mem_append, List.mem_singleton] at inside
      cases inside with
      | inl old => exact all s old
      | inr new => exact new ▸ sound _ member
  | stray v =>
      rw [held] at added
      cases added

end Phase.Legible

end Lifecycle
