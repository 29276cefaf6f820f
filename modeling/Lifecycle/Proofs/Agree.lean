import Lifecycle.Proofs.Written
/-!
Documents read from what is written of them. A reader that finds no problem in what is written gives
back what was written, and whether it finds one depends neither on the time of reading nor on what
the metadata holds. -/

namespace Lifecycle

namespace Reading

variable {ι α β : Type}

/-- Readings of which all give what they should as soon as one is free of problems. -/
def Agree (readings : ι → Reading α) (values : ι → α) : Prop :=
  (∃ i, (readings i).problems = []) → ∀ i, readings i = good (values i)

namespace Agree

theorem of_good {readings : ι → Reading α} {values : ι → α}
    (all : ∀ i, readings i = good (values i)) : Agree readings values :=
  fun _ => all

theorem require {readings : ι → Reading α} {a : α} {condition : α → Bool} {why : Misfit}
    (all : ∀ i, readings i = good a) :
    Agree (fun i => Reading.require condition why (readings i)) fun _ => a := by
  rintro ⟨i, clean⟩ j
  simp only [all, Reading.require, good] at clean ⊢
  split at clean
  · next passes => rw [if_pos passes]
  · cases clean

theorem map {readings : ι → Reading α} {values : ι → α} (f : α → β)
    (agree : Agree readings values) :
    Agree (fun i => f <$> readings i) fun i => f (values i) := by
  rintro ⟨i, clean⟩ j
  have same : readings j = good (values j) := agree ⟨i, clean⟩ j
  show f <$> readings j = good (f (values j))
  rw [same]
  rfl

theorem seq {functions : ι → Reading (α → β)} {readings : ι → Reading α} {f : ι → α → β}
    {values : ι → α} (left : Agree functions f) (right : Agree readings values) :
    Agree (fun i => functions i <*> readings i) fun i => f i (values i) := by
  rintro ⟨i, clean⟩ j
  obtain ⟨leftClean, rightClean⟩ := List.append_eq_nil_iff.mp clean
  have leftSame := left ⟨i, leftClean⟩ j
  have rightSame := right ⟨i, rightClean⟩ j
  show functions j <*> readings j = good (f j (values j))
  rw [leftSame, rightSame]
  rfl

theorem under {readings : ι → Reading α} {values : ι → α} (step : String)
    (agree : Agree readings values) : Agree (fun i => Reading.under step (readings i)) values := by
  rintro ⟨i, clean⟩ j
  have same := agree ⟨i, List.map_eq_nil_iff.mp clean⟩ j
  show Reading.under step (readings j) = good (values j)
  rw [same]
  rfl

theorem placed {readings : ι → Reading α} {values : ι → α} (agree : Agree readings values) :
    Agree (fun i => Reading.placed (readings i)) fun i => .proper (values i) :=
  agree.map Slot.proper

/-- A field agrees if what stands under its name does. -/
theorem field {source : ι → List (String × Value)} {name : String} {read : ι → Value → Reading α}
    {v : ι → Value} {values : ι → α} (agree : Agree (fun i => read i (v i)) values)
    (found : ∀ i, Keyed.find? (source i) name = some (v i)) :
    Agree (fun i => Reading.field (source i) name (read i)) fun i => .proper (values i) := by
  have same : (fun i => Reading.field (source i) name (read i)) =
      fun i => Reading.under name (Reading.placed (read i (v i))) := by
    funext i
    simp only [Reading.field, found i]
  rw [same]
  exact agree.placed.under name

theorem fieldOr {source : ι → List (String × Value)} {name : String} {missing : ι → α}
    {read : ι → Value → Reading α} {v : ι → Value} {values : ι → α}
    (agree : Agree (fun i => read i (v i)) values)
    (found : ∀ i, Keyed.find? (source i) name = some (v i)) :
    Agree (fun i => Reading.fieldOr (source i) name (missing i) (read i))
      fun i => .proper (values i) := by
  have same : (fun i => Reading.fieldOr (source i) name (missing i) (read i)) =
      fun i => Reading.under name (Reading.placed (read i (v i))) := by
    funext i
    simp only [Reading.fieldOr, found i]
  rw [same]
  exact agree.placed.under name

section

variable {γ : Type} (read : ι → Value → Reading α) (written : ι → γ → Value) (f : ι → γ → α)

/-- A list agrees if each of its items does. -/
theorem items (first : Nat) {list : List γ}
    (each : ∀ c ∈ list, Agree (fun i => read i (written i c)) fun i => f i c) :
    Agree (fun i => Reading.items (read i) first (list.map (written i))) fun i => list.map (f i) := by
  induction list generalizing first with
  | nil => exact of_good fun _ => rfl
  | cons c rest ih =>
      have here := (each c List.mem_cons_self).under (toString first)
      have others := ih (first + 1) fun d member => each d (List.mem_cons_of_mem _ member)
      exact (here.map List.cons).seq others

theorem entries {table : List (String × γ)}
    (each : ∀ entry ∈ table, Agree (fun i => read i (written i entry.2)) fun i => f i entry.2) :
    Agree (fun i => Reading.entries (read i) (table.map fun entry => (entry.1, written i entry.2)))
      fun i => table.map fun entry => (entry.1, f i entry.2) := by
  induction table with
  | nil => exact of_good fun _ => rfl
  | cons entry rest ih =>
      have here := (each entry List.mem_cons_self).under entry.1
      have others := ih fun other member => each other (List.mem_cons_of_mem _ member)
      exact (here.map fun a more => (entry.1, a) :: more).seq others

/-- A list of records agrees if each record does. -/
theorem list {list : List γ}
    (each : ∀ c ∈ list, Agree (fun i => read i (written i c)) fun i => f i c) :
    Agree (fun i => Reading.list (read i) (.list (list.map (written i))))
      fun i => (list.map (f i)).map Slot.proper := by
  simp only [List.map_map]
  exact items (fun i v => Reading.placed (read i v)) written (fun i c => .proper (f i c)) 0
    fun c member => (each c member).placed

theorem table {table : List (String × γ)}
    (each : ∀ entry ∈ table, Agree (fun i => read i (written i entry.2)) fun i => f i entry.2) :
    Agree (fun i => Reading.table (read i)
        (.map (table.map fun entry => (entry.1, written i entry.2))))
      fun i => table.map fun entry => (entry.1, Slot.proper (f i entry.2)) :=
  entries (fun i v => Reading.placed (read i v)) written (fun i c => .proper (f i c))
    fun entry member => (each entry member).placed

end

theorem time {t : ι → Timestamp} (proper : ∀ i, (t i).Proper) :
    Agree (fun i => Reading.time (.text (t i).print)) t :=
  of_good fun i => time_print (proper i)

theorem optionalTime {t : Option Timestamp} (proper : ProperIfAny t) :
    Agree (fun _ : ι => Reading.optionalTime (timeText t)) fun _ => t := by
  cases t with
  | none => exact of_good fun _ => rfl
  | some t =>
      apply of_good
      intro i
      have read := time_print (proper t rfl)
      rw [timeText, Reading.optionalTime, read]
      · rfl
      · nofun

theorem nonEmptyText (s : String) :
    Agree (fun _ : ι => (nonEmpty ∘ Reading.text) (.text s)) fun _ => s := by
  show Agree (fun _ : ι => Reading.require (· != "") .emptyText (good s)) fun _ => s
  exact require fun _ => rfl

theorem count (least n : Int) :
    Agree (fun _ : ι => (atLeast least ∘ Reading.integer) (.integer n)) fun _ => n := by
  show Agree (fun _ : ι => Reading.require (fun m => least ≤ m) (.below least) (good n)) fun _ => n
  exact require fun _ => rfl

theorem text (s : String) : Agree (fun _ : ι => Reading.text (.text s)) fun _ => s :=
  of_good fun _ => rfl

theorem projectName (s : String) : Agree (fun _ : ι => Reading.projectName (.text s)) fun _ => s := by
  unfold Reading.projectName
  exact require fun _ => rfl

theorem projectType (s : String) : Agree (fun _ : ι => Reading.projectType (.text s)) fun _ => s := by
  unfold Reading.projectType
  exact require fun _ => rfl

theorem flag (b : Bool) : Agree (fun _ : ι => Reading.flag (.flag b)) fun _ => b :=
  of_good fun _ => rfl

theorem anyMap (m : ι → Metadata) : Agree (fun i => Reading.anyMap (.map (m i))) m :=
  of_good fun _ => rfl

theorem phaseStatus (status : PhaseStatus) :
    Agree (fun _ : ι => Reading.phaseStatus (.text status.text)) fun _ => status := by
  apply of_good
  intro i
  simp only [Reading.phaseStatus, named, PhaseStatus.ofText?_text]

theorem taskStatus (status : TaskStatus) :
    Agree (fun _ : ι => Reading.taskStatus (.text status.text)) fun _ => status := by
  apply of_good
  intro i
  simp only [Reading.taskStatus, named, TaskStatus.ofText?_text]

end Agree

end Reading

open Reading Value

section

variable {ι : Type} (now : ι → Timestamp) {change : ι → Metadata → Metadata} {condition : Condition}
  (plain : ∀ i kind m, condition kind m → bareEntries (change i m) = change i m)
include plain

theorem Artifact.read_bare {a : Artifact} (typed : a.Typed condition) :
    Agree (fun i => Artifact.read (now i) (a.mapMetadata (change i)).toValue.bare)
      fun i => a.mapMetadata (change i) := by
  obtain ⟨type, path, approved, createdAt, metadata, rfl, created, good⟩ := typed.elim
  simp only [mapMetadata, Slot.map_proper, bare_artifact, plain _ _ _ good, Artifact.read,
    Reading.record]
  iterate 4 refine Agree.seq ?_ ?_
  refine Agree.map _ ?_
  · exact (Agree.nonEmptyText type).field fun _ => rfl
  · exact (Agree.nonEmptyText path).field fun _ => rfl
  · exact (Agree.flag approved).fieldOr fun _ => rfl
  · exact (Agree.time fun _ => created).fieldOr fun _ => rfl
  · exact (Agree.anyMap fun i => change i metadata).fieldOr fun _ => rfl

/-- A list of artifacts agrees. -/
theorem Artifact.readList {list : List Artifact} (typed : ∀ a ∈ list, a.Typed condition) :
    Agree (fun i => Reading.list (Artifact.read (now i))
        (.list ((list.map (Artifact.mapMetadata (change i))).map fun a => a.toValue.bare)))
      fun i => (list.map (Artifact.mapMetadata (change i))).map Slot.proper := by
  simp only [List.map_map]
  have agree := Agree.list (fun i => Artifact.read (now i))
    (fun i (a : Artifact) => (a.mapMetadata (change i)).toValue.bare)
    (fun i a => a.mapMetadata (change i))
    fun a member => Artifact.read_bare now plain (typed a member)
  simp only [List.map_map] at agree
  exact agree

theorem Task.read_bare {t : Task} (typed : t.Typed condition) :
    Agree (fun i => Task.read (now i) (t.mapMetadata (change i)).toValue.bare)
      fun i => t.mapMetadata (change i) := by
  obtain ⟨id, name, phase, status, createdAt, updatedAt, startedAt, completedAt, iteration, agent,
    inputs, outputs, metadata, rfl, created, updated, started, completed, ins, outs, good⟩ :=
    typed.elim
  simp only [mapMetadata, Slot.map_proper, Many.map_ofList, bare_task, plain _ _ _ good, Task.read,
    Reading.record]
  iterate 12 refine Agree.seq ?_ ?_
  refine Agree.map _ ?_
  · exact (Agree.nonEmptyText id).field fun _ => rfl
  · exact (Agree.nonEmptyText name).field fun _ => rfl
  · exact (Agree.nonEmptyText phase).field fun _ => rfl
  · exact (Agree.taskStatus status).fieldOr fun _ => rfl
  · exact (Agree.time fun _ => created).fieldOr fun _ => rfl
  · exact (Agree.time fun _ => updated).fieldOr fun _ => rfl
  · exact (Agree.optionalTime started).fieldOr fun _ => rfl
  · exact (Agree.optionalTime completed).fieldOr fun _ => rfl
  · exact (Agree.count 1 iteration).fieldOr fun _ => rfl
  · exact (Agree.text agent).fieldOr fun _ => rfl
  · exact (Artifact.readList now plain ins).fieldOr fun _ => rfl
  · exact (Artifact.readList now plain outs).fieldOr fun _ => rfl
  · exact (Agree.anyMap fun i => change i metadata).fieldOr fun _ => rfl

theorem Task.readList {list : List Task} (typed : ∀ t ∈ list, t.Typed condition) :
    Agree (fun i => Reading.list (Task.read (now i))
        (.list ((list.map (Task.mapMetadata (change i))).map fun t => t.toValue.bare)))
      fun i => (list.map (Task.mapMetadata (change i))).map Slot.proper := by
  simp only [List.map_map]
  have agree := Agree.list (fun i => Task.read (now i))
    (fun i (t : Task) => (t.mapMetadata (change i)).toValue.bare) (fun i t => t.mapMetadata (change i))
    fun t member => Task.read_bare now plain (typed t member)
  simp only [List.map_map] at agree
  exact agree

theorem Phase.read_bare {p : Phase} (typed : p.Typed condition) :
    Agree (fun i => Phase.read (now i) (p.mapMetadata (change i)).toValue.bare)
      fun i => p.mapMetadata (change i) := by
  obtain ⟨status, enabled, createdAt, startedAt, completedAt, failedAt, iteration, inputs, outputs,
    tasks, metadata, rfl, created, started, completed, failed, ins, outs, all, good⟩ := typed.elim
  simp only [mapMetadata, Slot.map_proper, Many.map_ofList, bare_phase, plain _ _ _ good, Phase.read,
    Reading.record]
  iterate 10 refine Agree.seq ?_ ?_
  refine Agree.map _ ?_
  · exact (Agree.phaseStatus status).fieldOr fun _ => rfl
  · exact (Agree.flag enabled).fieldOr fun _ => rfl
  · exact (Agree.time fun _ => created).fieldOr fun _ => rfl
  · exact (Agree.optionalTime started).fieldOr fun _ => rfl
  · exact (Agree.optionalTime completed).fieldOr fun _ => rfl
  · exact (Agree.optionalTime failed).fieldOr fun _ => rfl
  · exact (Agree.count 0 iteration).fieldOr fun _ => rfl
  · exact (Artifact.readList now plain ins).fieldOr fun _ => rfl
  · exact (Artifact.readList now plain outs).fieldOr fun _ => rfl
  · exact (Task.readList now plain all).fieldOr fun _ => rfl
  · exact (Agree.anyMap fun i => change i metadata).fieldOr fun _ => rfl

omit plain in
theorem Statechart.read_bare {s : Statechart} (typed : s.Typed) :
    Agree (fun i => Statechart.read (now i) s.toValue.bare) fun _ => s := by
  obtain ⟨current, updatedAt, rfl, updated⟩ := typed.elim
  simp only [bare_statechart, Statechart.read, Reading.record]
  refine Agree.seq ?_ ?_
  refine Agree.map _ ?_
  · exact (Agree.nonEmptyText current).field fun _ => rfl
  · exact (Agree.time fun _ => updated).fieldOr fun _ => rfl

theorem Phase.readTable {phases : List (String × Phase)}
    (typed : ∀ entry ∈ phases, entry.2.Typed condition) :
    Agree (fun i => Reading.table (Phase.read (now i)) (.map (phases.map fun entry =>
        (entry.1, (entry.2.mapMetadata (change i)).toValue.bare))))
      fun i => (phases.map fun entry => (entry.1, entry.2.mapMetadata (change i))).map
        fun entry => (entry.1, Slot.proper entry.2) := by
  simp only [List.map_map, Function.comp_def]
  exact Agree.table (fun i => Phase.read (now i))
    (fun i (p : Phase) => (p.mapMetadata (change i)).toValue.bare)
    (fun i p => p.mapMetadata (change i))
    fun entry member => Phase.read_bare now plain (typed entry member)

/-- A document with another time of its last change. -/
def Document.stamped (d : Document) (now : Timestamp) : Document := { d with updatedAt := .proper now }

omit plain in
theorem Document.stamped_same {d : Document} (typed : d.Typed condition) {updated : Timestamp}
    (given : d.updatedAt = .proper updated) : (d.mapMetadata id).stamped updated = d := by
  have same : d.mapMetadata id = d := mapMetadata_same typed fun _ _ _ => rfl
  rw [same, stamped, ← given]

/-- What is written of a document is read as the document itself or not without problems, whatever its
metadata was changed to, whenever it was stamped and at whatever time it is read. -/
theorem Document.read_bare {d : Document} (typed : d.Typed condition) {stamp : ι → Timestamp}
    (stamps : ∀ i, (stamp i).Proper) :
    Agree (fun i => Document.read (now i) ((d.mapMetadata (change i)).stamped (stamp i)).toValue.bare)
      fun i => (d.mapMetadata (change i)).stamped (stamp i) := by
  obtain ⟨name, type, branch, description, createdAt, updatedAt, phases, statechart, sessions, rfl,
    created, _, _, all, chart, _⟩ := typed.elim
  have sessionsAgree : Agree
      (fun _ : ι => Reading.table Reading.text
        (.map (sessions.map fun entry => (entry.1, .text entry.2))))
      fun _ => sessions.map fun entry => (entry.1, Slot.proper entry.2) :=
    Agree.table (fun _ => Reading.text) (fun _ => .text) (fun _ s => s)
      fun entry _ => Agree.text entry.2
  simp only [mapMetadata, stamped, Table.map_ofEntries, bare_document, Document.read, Reading.record,
    List.map_map, Function.comp_def]
  iterate 8 refine Agree.seq ?_ ?_
  refine Agree.map _ ?_
  · exact (Agree.projectName name).field fun _ => rfl
  · exact (Agree.projectType type).field fun _ => rfl
  · exact (Agree.nonEmptyText branch).fieldOr fun _ => rfl
  · exact (Agree.text description).fieldOr fun _ => rfl
  · exact (Agree.time fun _ => created).fieldOr fun _ => rfl
  · exact (Agree.time stamps).fieldOr fun _ => rfl
  · exact (Phase.readTable now plain all).fieldOr fun _ => rfl
  · exact (Statechart.read_bare now chart).field fun _ => rfl
  · exact sessionsAgree.fieldOr fun _ => rfl

end

end Lifecycle
