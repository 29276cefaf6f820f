import Lifecycle.Proofs.Typed
/-!
What is written of a document in which everything is what belongs in its place: maps of its fields all
the way down, with the metadata as it is. Changing reals in what is written is changing them in the
metadata. -/

namespace Lifecycle

open Decimal (Binary64)
open Value

theorem bareItems_some {kind : RecordKind} {items : List Value}
    (records : ∀ v ∈ items, ∃ fields, v = .record kind fields) :
    bareItems (some kind) items = items.map bare := by
  induction items with
  | nil => rfl
  | cons v rest ih =>
      obtain ⟨fields, rfl⟩ := records v List.mem_cons_self
      rw [bareItems, ih fun w member => records w (List.mem_cons_of_mem _ member), List.map_cons]
      simp [bare]

theorem bareItems_artifacts (list : List Artifact) :
    bareItems (some .artifact) ((list.map Slot.proper).map Slot.toValue) =
      list.map fun a => a.toValue.bare := by
  rw [bareItems_some, List.map_map, List.map_map]
  · rfl
  · simp only [List.map_map, List.mem_map]
    rintro _ ⟨a, _, rfl⟩
    exact ⟨_, rfl⟩

theorem bareItems_tasks (list : List Task) :
    bareItems (some .task) ((list.map Slot.proper).map Slot.toValue) =
      list.map fun t => t.toValue.bare := by
  rw [bareItems_some, List.map_map, List.map_map]
  · rfl
  · simp only [List.map_map, List.mem_map]
    rintro _ ⟨t, _, rfl⟩
    exact ⟨_, rfl⟩

/-- How a time is written that may be missing. -/
def timeText : Option Timestamp → Value
  | none => .null
  | some t => .text t.print

theorem bare_artifact (type path : String) (approved : Bool) (createdAt : Timestamp)
    (metadata : Metadata) :
    (Artifact.toValue ⟨.proper type, .proper path, .proper approved, .proper createdAt,
        .proper metadata⟩).bare =
      .map [("type", .text type), ("path", .text path), ("approved", .flag approved),
        ("created_at", .text createdAt.print), ("metadata", .map (bareEntries metadata))] :=
  rfl

theorem bare_task (id name phase : String) (status : TaskStatus) (createdAt updatedAt : Timestamp)
    (startedAt completedAt : Option Timestamp) (iteration : Int) (agent : String)
    (inputs outputs : List Artifact) (metadata : Metadata) :
    (Task.toValue ⟨.proper id, .proper name, .proper phase, .proper status, .proper createdAt,
        .proper updatedAt, .proper startedAt, .proper completedAt, .proper iteration, .proper agent,
        .ofList inputs, .ofList outputs, .proper metadata⟩).bare =
      .map [("id", .text id), ("name", .text name), ("phase", .text phase),
        ("status", .text status.text), ("created_at", .text createdAt.print),
        ("updated_at", .text updatedAt.print), ("started_at", timeText startedAt),
        ("completed_at", timeText completedAt), ("iteration", .integer iteration),
        ("assigned_agent", .text agent), ("inputs", .list (inputs.map fun a => a.toValue.bare)),
        ("outputs", .list (outputs.map fun a => a.toValue.bare)),
        ("metadata", .map (bareEntries metadata))] := by
  rw [← bareItems_artifacts inputs, ← bareItems_artifacts outputs]
  cases startedAt <;> cases completedAt <;> rfl

theorem bare_phase (status : PhaseStatus) (enabled : Bool) (createdAt : Timestamp)
    (startedAt completedAt failedAt : Option Timestamp) (iteration : Int)
    (inputs outputs : List Artifact) (tasks : List Task) (metadata : Metadata) :
    (Phase.toValue ⟨.proper status, .proper enabled, .proper createdAt, .proper startedAt,
        .proper completedAt, .proper failedAt, .proper iteration, .ofList inputs, .ofList outputs,
        .ofList tasks, .proper metadata⟩).bare =
      .map [("status", .text status.text), ("enabled", .flag enabled),
        ("created_at", .text createdAt.print), ("started_at", timeText startedAt),
        ("completed_at", timeText completedAt), ("failed_at", timeText failedAt),
        ("iteration", .integer iteration), ("inputs", .list (inputs.map fun a => a.toValue.bare)),
        ("outputs", .list (outputs.map fun a => a.toValue.bare)),
        ("tasks", .list (tasks.map fun t => t.toValue.bare)),
        ("metadata", .map (bareEntries metadata))] := by
  rw [← bareItems_artifacts inputs, ← bareItems_artifacts outputs, ← bareItems_tasks tasks]
  cases startedAt <;> cases completedAt <;> cases failedAt <;> rfl

theorem bare_statechart (current : String) (updatedAt : Timestamp) :
    (Statechart.toValue ⟨.proper current, .proper updatedAt⟩).bare =
      .map [("current_state", .text current), ("updated_at", .text updatedAt.print)] :=
  rfl

theorem bareEntries_table {α : Type} [Plain α] (entries : List (String × α)) :
    bareEntries ((entries.map fun entry => (entry.1, Slot.proper entry.2)).map
        fun entry => (entry.1, entry.2.toValue)) =
      entries.map fun entry => (entry.1, (Plain.toValue entry.2).bare) := by
  rw [bareEntries_eq, List.map_map, List.map_map]
  rfl

theorem bare_document (name type branch description : String) (createdAt updatedAt : Timestamp)
    (phases : List (String × Phase)) (statechart : Statechart)
    (sessions : List (String × String)) :
    (Document.toValue ⟨.proper name, .proper type, .proper branch, .proper description,
        .proper createdAt, .proper updatedAt, .ofEntries phases, .proper statechart,
        .ofEntries sessions⟩).bare =
      .map [("name", .text name), ("type", .text type), ("branch", .text branch),
        ("description", .text description), ("created_at", .text createdAt.print),
        ("updated_at", .text updatedAt.print),
        ("phases", .map (phases.map fun entry => (entry.1, entry.2.toValue.bare))),
        ("statechart", statechart.toValue.bare),
        ("agent_sessions", .map (sessions.map fun entry => (entry.1, .text entry.2)))] := by
  have phasesBare : _ = phases.map fun entry => (entry.1, entry.2.toValue.bare) :=
    bareEntries_table phases
  have sessionsBare : _ = sessions.map fun entry => (entry.1, Value.text entry.2) :=
    bareEntries_table sessions
  rw [← phasesBare, ← sessionsBare]
  rfl

/-- A condition under which metadata is data that is written as it is. -/
def Condition.OnData (condition : Condition) (real : Binary64 → Bool) : Prop :=
  ∀ kind m, condition kind m → (Value.map m).isData real = true

variable {condition : Condition} {real : Binary64 → Bool}

theorem bareEntries_data (data : condition.OnData real) {kind : RecordKind} {m : Metadata}
    (good : condition kind m) : bareEntries m = m :=
  Value.map.inj (bare_data (data kind m good))

/-- Reals may become anything that JSON has. -/
def Harmless (change : Binary64 → Value) : Prop := ∀ x, (change x).isData (fun _ => true) = true

section

variable {change : Binary64 → Value} (data : condition.OnData real) (harmless : Harmless change)
include data harmless

theorem bareEntries_mapReals {kind : RecordKind} {m : Metadata} (good : condition kind m) :
    bareEntries (mapRealsEntries change m) = mapRealsEntries change m :=
  Value.map.inj (bare_data (isData_mapReals (data kind m good) fun x _ => harmless x))

/-- Changing reals in what is written of an artifact is changing them in its metadata. -/
theorem Artifact.mapReals_bare {a : Artifact} (typed : a.Typed condition) :
    a.toValue.bare.mapReals change = (a.mapMetadata (mapRealsEntries change)).toValue.bare := by
  obtain ⟨type, path, approved, createdAt, metadata, rfl, _, good⟩ := typed.elim
  rw [mapMetadata]
  simp only [Slot.map_proper]
  rw [bare_artifact, bare_artifact, bareEntries_mapReals data harmless good,
    bareEntries_data data good]
  rfl

theorem mapReals_artifacts {list : List Artifact} (typed : ∀ a ∈ list, a.Typed condition) :
    mapRealsItems change (list.map fun a => a.toValue.bare) =
      (list.map (Artifact.mapMetadata (mapRealsEntries change))).map fun a => a.toValue.bare := by
  rw [mapRealsItems_eq, List.map_map, List.map_map]
  exact List.map_congr_left fun a member => Artifact.mapReals_bare data harmless (typed a member)

omit data harmless in
theorem mapReals_timeText (time : Option Timestamp) :
    (timeText time).mapReals change = timeText time := by
  cases time <;> rfl

theorem Task.mapReals_bare {t : Task} (typed : t.Typed condition) :
    t.toValue.bare.mapReals change = (t.mapMetadata (mapRealsEntries change)).toValue.bare := by
  obtain ⟨id, name, phase, status, createdAt, updatedAt, startedAt, completedAt, iteration, agent,
    inputs, outputs, metadata, rfl, _, _, _, _, ins, outs, good⟩ := typed.elim
  rw [mapMetadata]
  simp only [Slot.map_proper, Many.map_ofList]
  rw [bare_task, bare_task, bareEntries_mapReals data harmless good, bareEntries_data data good]
  simp only [mapReals, mapRealsEntries, mapReals_artifacts data harmless ins,
    mapReals_artifacts data harmless outs, mapReals_timeText]

theorem mapReals_tasks {list : List Task} (typed : ∀ t ∈ list, t.Typed condition) :
    mapRealsItems change (list.map fun t => t.toValue.bare) =
      (list.map (Task.mapMetadata (mapRealsEntries change))).map fun t => t.toValue.bare := by
  rw [mapRealsItems_eq, List.map_map, List.map_map]
  exact List.map_congr_left fun t member => Task.mapReals_bare data harmless (typed t member)

theorem Phase.mapReals_bare {p : Phase} (typed : p.Typed condition) :
    p.toValue.bare.mapReals change = (p.mapMetadata (mapRealsEntries change)).toValue.bare := by
  obtain ⟨status, enabled, createdAt, startedAt, completedAt, failedAt, iteration, inputs, outputs,
    tasks, metadata, rfl, _, _, _, _, ins, outs, all, good⟩ := typed.elim
  rw [mapMetadata]
  simp only [Slot.map_proper, Many.map_ofList]
  rw [bare_phase, bare_phase, bareEntries_mapReals data harmless good, bareEntries_data data good]
  simp only [mapReals, mapRealsEntries, mapReals_artifacts data harmless ins,
    mapReals_artifacts data harmless outs, mapReals_tasks data harmless all, mapReals_timeText]

theorem Document.mapReals_bare {d : Document} (typed : d.Typed condition) :
    d.toValue.bare.mapReals change = (d.mapMetadata (mapRealsEntries change)).toValue.bare := by
  obtain ⟨name, type, branch, description, createdAt, updatedAt, phases, statechart, sessions, rfl, _,
    _, _, all, chart, _⟩ := typed.elim
  obtain ⟨current, noted, rfl, _⟩ := chart.elim
  have changed : (phases.map fun entry => (entry.1, entry.2.toValue.bare)).map
      (fun entry => (entry.1, entry.2.mapReals change)) =
      (phases.map fun entry => (entry.1, entry.2.mapMetadata (mapRealsEntries change))).map
        fun entry => (entry.1, entry.2.toValue.bare) := by
    rw [List.map_map, List.map_map]
    apply List.map_congr_left
    intro entry member
    simp only [Function.comp_apply, Phase.mapReals_bare data harmless (all entry member)]
  have same : (sessions.map fun entry => (entry.1, Value.text entry.2)).map
      (fun entry => (entry.1, entry.2.mapReals change)) =
      sessions.map fun entry => (entry.1, Value.text entry.2) := by
    rw [List.map_map]
    rfl
  rw [mapMetadata]
  simp only [Table.map_ofEntries]
  rw [bare_document, bare_document, bare_statechart]
  simp only [mapReals, mapRealsEntries]
  rw [mapRealsEntries_eq, mapRealsEntries_eq, changed, same]

end

end Lifecycle
