import Lifecycle.Proofs.Findings
import Lifecycle.Proofs.Firing
/-!
Projects loaded again after they were saved. Saving checks metadata as it is in memory, loading as it
comes back: with null for the numbers that JSON lacks, which a schema may refuse. -/

namespace Lifecycle

open Decimal (Binary64)
open Value

variable {condition : Condition}

/-- Whether the schema of a plan allows metadata as it comes back from storage. -/
def PhasePlan.Readmits (plan : PhasePlan) (m : Metadata) : Prop :=
  ∀ schema ∈ plan.schema, schema.problems (Value.map m).finite = []

/-- Whether all metadata that is declared to have a schema is still allowed when it comes back. -/
def Blueprint.Readmits (b : Blueprint) (d : Document) : Prop :=
  ∀ entries, d.phases = .proper entries → ∀ entry ∈ entries, ∀ plan, b.phase? entry.1 = some plan →
    entry.2.Holds fun p => p.metadata.Holds plan.Readmits

theorem alike_finiteReal : Shape.Alike finiteReal stored := by
  intro x
  rw [finiteReal, stored]
  split
  · exact .inl ⟨_, _, rfl, rfl⟩
  · exact .inr rfl

theorem Shape.Alike.symm {change other : Binary64 → Value} (alike : Shape.Alike change other) :
    Shape.Alike other change := by
  intro x
  rcases alike x with ⟨y, z, left, right⟩ | same
  · exact .inl ⟨z, y, right, left⟩
  · exact .inr same.symm

/-- What was allowed is allowed as it comes back if its schema allows it with null for what JSON
lacks. -/
theorem PhasePlan.admits_stored {plan : PhasePlan} {m : Metadata} (data : Condition.json .phase m)
    (admitted : plan.AdmitsMetadata m) :
    plan.AdmitsMetadata (mapRealsEntries stored m) ↔ plan.Readmits m := by
  have finite : (Value.map m).finite = .map (mapRealsEntries finiteReal m) := finite_data data
  rw [AdmitsMetadata] at admitted ⊢
  rw [Readmits, finite]
  cases given : plan.schema with
  | none =>
      rw [given] at admitted
      obtain rfl : m = [] := admitted
      constructor
      · intro _ schema member
        cases member
      · exact fun _ => rfl
  | some schema =>
      rw [given] at admitted
      obtain ⟨usable, _⟩ := admitted
      simp only [Option.mem_def, Option.some.injEq, forall_eq', usable, true_and]
      rw [Schema.problems_nil_iff usable]
      constructor
      · exact fun stored => Schema.admits_mapReals alike_finiteReal.symm schema (.map m) stored
      · exact fun finite => Schema.admits_mapReals alike_finiteReal schema (.map m) finite

/-- Accepted phases are accepted as they come back if their metadata is readmitted. -/
theorem Blueprint.accepts_stored {b : Blueprint} {d : Document} {phases : List (String × Phase)}
    (given : d.phases = .ofEntries phases) (typed : ∀ entry ∈ phases, entry.2.Typed .json)
    (accepted : ∀ entry ∈ phases, b.Accepts entry.1 entry.2) :
    (∀ entry ∈ phases, b.Accepts entry.1 (entry.2.mapMetadata (mapRealsEntries stored))) ↔
      b.Readmits d := by
  have shape (entries : List (String × Slot Phase)) :
      d.phases = .proper entries ↔
        entries = phases.map fun entry => (entry.1, Slot.proper entry.2) := by
    rw [given, Table.ofEntries, Slot.proper.injEq, eq_comm]
  simp only [Readmits, shape, forall_eq, List.forall_mem_map]
  apply forall₂_congr
  intro entry member
  obtain ⟨plan, declared, fits⟩ := accepted entry member
  obtain ⟨m, metadata, data⟩ := (typed entry member).metadata.elim
  have admitted : plan.AdmitsMetadata m := by
    have holds := fits.metadata
    rw [metadata] at holds
    exact holds
  have changed := PhasePlan.accepts_mapMetadata (typed entry member) fits (mapRealsEntries stored)
  rw [metadata] at changed
  simp only [Accepts, declared, Option.some.injEq, exists_eq_left', changed, forall_eq', metadata,
    Slot.Holds]
  exact plan.admits_stored data admitted

namespace Project

/-- What loading comes to once the document was read, obeys the rules and is of a known type. -/
theorem run_load {σ : Type} [Backend σ] {registry : Registry} {now : Timestamp} {archive : Archive σ}
    {d : Document} {b : Blueprint} {state : String}
    (found : (Backend.load now archive.store).1 = .ok d) (sound : d.problems = [])
    (registered : registry.get d.type.display = .ok b) (current : d.current = .ok (.proper state)) :
    (load registry now archive).1 =
      (b.checkPhases d archive.checkers).1.map fun _ => .start b d state := by
  have clean : d.checkStructure = .ok () := by
    rw [Document.checkStructure, Document.structureFindings, sound]
    rfl
  rw [load, Attempt.run_bind, Archive.onStore, Attempt.run_focus, found]
  simp only [clean, registered, current, Attempt.ofExcept_bind]
  rw [Attempt.run_bind, Archive.onCheckers, Attempt.run_focus]
  rcases Blueprint.checkPhases _ _ _ with ⟨fault | ⟨⟩, after⟩
  · rfl
  · rfl

variable {φ : Type} [FileSystem φ]

/-- A project that was saved is loaded again in the state of its machine, unless a schema refuses what
became of metadata; then loading fails. -/
theorem load_of_save {registry : Registry} {desk after : Desk (FileStore φ)}
    (typed : desk.project.document.Typed .json)
    (registered : registry.get desk.project.document.type.display = .ok desk.project.blueprint)
    (faithful : FileSystem.Faithful desk.archive.store.files desk.archive.store.path)
    {now : Timestamp} (proper : now.Proper) (saved : Desk.save now desk = (.ok (), after))
    (later : Timestamp) (checkers : Checkers) :
    let loaded := (Project.load registry later ⟨after.archive.store, checkers⟩).1
    (desk.project.blueprint.Readmits desk.project.document →
      ∃ p, loaded = .ok p ∧ p.state = desk.project.state) ∧
    (¬desk.project.blueprint.Readmits desk.project.document →
      ∃ found, loaded = .error (.invalidProject "validate metadata" found)) := by
  intro loaded
  have data : Condition.json.OnData fun _ => true := fun _ _ good => good
  obtain ⟨d, dTyped, samePhases, sameType, current, checked, written⟩ :=
    Desk.save_typed typed proper saved
  obtain ⟨sound, clean⟩ := Blueprint.problems_of_check checked
  have storable : d.Storable := by
    by_contra not
    have refused := FileStore.save_of_no_text (d.print?_eq_none data dTyped not) desk.archive.store
    have written : FileStore.save d desk.archive.store = (.ok (), after.archive.store) := written
    rw [written] at refused
    cases refused
  obtain ⟨again, saved, found⟩ := FileStore.load_stored data dTyped storable sound faithful later
  obtain rfl : after.archive.store = again := congrArg Prod.snd (written.symm.trans saved)
  obtain ⟨phases, given, _, phasesTyped⟩ := dTyped.phases.elim
  have accepted := (Blueprint.phasesFindings_nil_iff _ given
    (fun entry member => (phasesTyped entry member).metadata) _).mp clean
  have changed : (d.mapMetadata (mapRealsEntries stored)).phases =
      .ofEntries (phases.map fun entry =>
        (entry.1, entry.2.mapMetadata (mapRealsEntries stored))) := by
    rw [Document.mapMetadata, given, Table.map_ofEntries]
  have found : (Backend.load later (Archive.mk after.archive.store checkers).store).1 =
      .ok (d.mapMetadata (mapRealsEntries stored)) := found
  have known : registry.get (d.mapMetadata (mapRealsEntries stored)).type.display =
      .ok desk.project.blueprint := by
    rw [← registered, ← sameType]
    rfl
  have loading : loaded = _ :=
    run_load found (d.problems_mapReals data dTyped sound harmless_stored) known current
  rw [loading]
  have checkable : desk.project.blueprint.Checkable (d.mapMetadata (mapRealsEntries stored)) := by
    rw [Blueprint.Checkable, d.mapMetadata_phaseNames]
    exact Blueprint.checkable_of_accepts given accepted
  have dAny : (d.mapMetadata (mapRealsEntries stored)).Typed fun _ _ => True :=
    Document.mapMetadata_typed dTyped fun _ _ _ => True.intro
  obtain ⟨findings, judged⟩ := Blueprint.phasesFindings_succeeds
    dAny checkable checkers
  rw [Blueprint.checkPhases_of_findings judged]
  have readmitted : findings = [] ↔ desk.project.blueprint.Readmits desk.project.document := by
    have proper (entry : String × Phase) (member : entry ∈ phases.map fun entry =>
        (entry.1, entry.2.mapMetadata (mapRealsEntries stored))) :
        entry.2.metadata.Holds fun _ => True := by
      obtain ⟨old, inside, rfl⟩ := List.mem_map.mp member
      exact (phasesTyped old inside).metadata.map _
    have again := Blueprint.phasesFindings_nil_iff desk.project.blueprint changed proper checkers
    rw [judged, List.forall_mem_map] at again
    rw [← Blueprint.accepts_stored (samePhases ▸ given) phasesTyped accepted, ← again]
    exact ⟨congrArg Except.ok, Except.ok.inj⟩
  constructor
  · intro readmits
    rw [if_pos (readmitted.mpr readmits)]
    exact ⟨_, rfl, rfl⟩
  · intro refuses
    rw [if_neg fun empty => refuses (readmitted.mp empty)]
    exact ⟨findings, rfl⟩

end Project

/-- Any number is allowed, and the one given is none that JSON has. -/
def Desk.beyondNumbers : Desk (FileStore MemoryFiles) :=
  .sample (.shape (.map .number)) [("k", .real .nan)]

theorem Project.load_of_save_nan :
    ∃ after found, Desk.save newYear .beyondNumbers = (.ok (), after) ∧
      (Project.load [("standard", Desk.beyondNumbers.project.blueprint)] newYear
        ⟨after.archive.store, []⟩).1 = .error (.invalidProject "validate metadata" found) := by
  have typed : Desk.beyondNumbers.project.document.Typed .json := Document.sample_typed rfl
  have registered : Registry.get [("standard", Desk.beyondNumbers.project.blueprint)]
      Desk.beyondNumbers.project.document.type.display = .ok Desk.beyondNumbers.project.blueprint :=
    rfl
  have refuses : ¬Desk.beyondNumbers.project.blueprint.Readmits
      Desk.beyondNumbers.project.document := by
    intro readmits
    have clean := readmits _ rfl _ List.mem_cons_self _ rfl _ rfl
    revert clean
    decide +kernel
  have passes : (Desk.save newYear .beyondNumbers).1.isOk = true := by decide +kernel
  rcases saved : Desk.save newYear .beyondNumbers with ⟨fault | ⟨⟩, after⟩
  · rw [saved] at passes
    cases passes
  · obtain ⟨found, failed⟩ := (Project.load_of_save typed registered FileStore.blank_faithful
      newYear_proper saved newYear []).2 refuses
    exact ⟨after, found, rfl, failed⟩

end Lifecycle
