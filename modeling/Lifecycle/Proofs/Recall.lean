import Lifecycle.Proofs.Loading
import Lifecycle.Proofs.Saving
/-!
Projects that are what is stored. Where files give back what was written, a project without reals that
was saved is loaded as it stands, whenever that is done and whatever was checked before. -/

namespace Lifecycle

/-- Files that give back documents: reading changes nothing, and the text of a document that was written
is read. -/
structure FileSystem.Recall (φ : Type) [FileSystem φ] : Prop where
  quiet : ∀ path (files : φ), (FileSystem.read path files).2 = files
  write : ∀ (d : Document) path text (files after : φ), d.print? = some text →
    FileSystem.write path text files = (.ok (), after) → (FileSystem.read path after).1 = .ok text

theorem MemoryFiles.read_quiet (path : String) (m : MemoryFiles) : (read path m).2 = m := by
  rw [read, Attempt.run_bind_ok (Attempt.run_get m)]
  cases Keyed.find? m.files path <;> rfl

theorem MemoryFiles.recalls : FileSystem.Recall MemoryFiles where
  quiet := read_quiet
  write _ path text files after _ written := by
    obtain ⟨other, done, found⟩ := faithful files path text
    rw [written] at done
    cases done
    exact found

theorem Condition.exact_onData : Condition.exact.OnData fun _ => false := fun _ _ good => good

namespace Document

variable {condition : Condition} {d : Document} {now : Timestamp}

theorem stamped_typed (typed : d.Typed condition) (proper : now.Proper) :
    (d.stamped now).Typed condition :=
  { typed with updatedAt := proper }

theorem exact_mapReals (typed : d.Typed .exact) (change : Decimal.Binary64 → Value) :
    d.mapMetadata (Value.mapRealsEntries change) = d :=
  mapMetadata_same typed fun _ _ good => Value.map.inj (Value.mapReals_exact good change)

/-- Another stamp breaks no rule. -/
theorem stamped_problems (typed : d.Typed .exact) (sound : d.problems = []) (proper : now.Proper) :
    (d.stamped now).problems = [] := by
  -- The rules are what reading back is done by, and the stamped document reads back as it is.
  have read := read_stamped Condition.exact_onData typed sound harmless_stored proper
    (.ofSeconds 0 0 none)
  rw [exact_mapReals typed] at read
  rw [problems, read]
  rfl

/-- The text of a document without reals that obeys the rules is read as the document. -/
theorem decode_text (typed : d.Typed .exact) (sound : d.problems = []) {text : String}
    (printed : d.print? = some text) (path : String) (now : Timestamp) :
    FileStore.decode path now text = .ok d := by
  have storable : d.Storable := by
    by_contra not
    rw [print?_eq_none Condition.exact_onData typed not] at printed
    cases printed
  have decoded := decode_print? Condition.exact_onData typed storable sound path now
  rw [print?_eq_some Condition.exact_onData typed storable] at printed
  rw [← Option.some.inj printed, decoded, exact_mapReals typed]

end Document

/-- Whether a document fits is a matter of the plans that a type has for its phases, and what was checked
before does not matter for it. -/
theorem Blueprint.phasesFindings_of_plans {condition : Condition} {b c : Blueprint} {d : Document}
    (plans : c.phases = b.phases) (typed : d.Typed condition) {checkers : Checkers}
    (clean : (b.phasesFindings d checkers).1 = .ok []) (others : Checkers) :
    (c.phasesFindings d others).1 = .ok [] := by
  obtain ⟨phases, given, _, all⟩ := typed.phases.elim
  rw [b.phasesFindings_nil_iff given fun entry member => (all entry member).metadata] at clean
  rw [c.phasesFindings_nil_iff given fun entry member => (all entry member).metadata]
  intro entry member
  obtain ⟨plan, declared, accepts⟩ := clean entry member
  refine ⟨plan, ?_, accepts⟩
  rw [phase?, plans]
  exact declared

theorem Blueprint.phasesFindings_again {condition : Condition} {b : Blueprint} {d : Document}
    (typed : d.Typed condition) {checkers : Checkers} (clean : (b.phasesFindings d checkers).1 = .ok [])
    (others : Checkers) : (b.phasesFindings d others).1 = .ok [] :=
  phasesFindings_of_plans rfl typed clean others

namespace Project

variable {registry : Registry} {p : Project}

/-- A project without reals whose machine is that of the type that its document names. -/
structure Bound (registry : Registry) (p : Project) : Prop where
  typed : p.document.Typed .exact
  registered : registry.get p.document.type.display = .ok p.blueprint
  machine : p.machine = .start p.blueprint p.state

/-- Such a project that obeys the rules, fits the plans of its type and notes where it stands. -/
structure Sound (registry : Registry) (p : Project) : Prop extends Bound registry p where
  rules : p.document.problems = []
  noted : p.document.current = .ok (.proper p.state)
  fits : ∀ checkers, (p.blueprint.phasesFindings p.document checkers).1 = .ok []

/-- A project without the lines that its actions left. -/
def quiet (p : Project) : Project := { p with journal := [] }

theorem Sound.accept (sound : p.Sound registry) (checkers : Checkers) :
    (accept registry p.document checkers).1 = .ok p.quiet := by
  have same : p.quiet = start p.blueprint p.document p.state := by
    rw [quiet, start, ← sound.machine]
  exact accept_eq_ok.mpr
    ⟨sound.rules, p.blueprint, sound.registered, .proper p.state, sound.noted, sound.fits checkers, same⟩

end Project

namespace FileStore

variable {φ : Type} [FileSystem φ]

/-- Whether a store holds the text of a document. -/
def Holds (store : FileStore φ) (d : Document) : Prop :=
  ∃ text, d.print? = some text ∧ (FileSystem.read store.path store.files).1 = .ok text

variable {store after : FileStore φ} {d : Document}

theorem load_stays (recalls : FileSystem.Recall φ) (now : Timestamp) (store : FileStore φ) :
    (load now store).2 = store := by
  rw [run_load, recalls.quiet]

theorem Holds.load (holds : store.Holds d) (recalls : FileSystem.Recall φ) (typed : d.Typed .exact)
    (rules : d.problems = []) (now : Timestamp) : load now store = (.ok d, store) := by
  obtain ⟨text, printed, found⟩ := holds
  have loaded : (FileStore.load now store).1 = .ok d := by
    rw [load_of_read found, d.decode_text typed rules printed]
  exact Prod.ext loaded (load_stays recalls now store)

/-- What was saved is held. -/
theorem holds_of_save (recalls : FileSystem.Recall φ) (saved : save d store = (.ok (), after)) :
    after.Holds d := by
  cases printed : d.print? with
  | none =>
      rw [save_of_no_text printed] at saved
      cases saved
  | some text =>
      rw [save_of_print? printed] at saved
      rcases written : FileSystem.write store.path text store.files with ⟨fault | ⟨⟩, files⟩
      · rw [written] at saved
        cases saved
      · rw [written] at saved
        cases saved
        exact ⟨text, printed, recalls.write d store.path text store.files files printed written⟩

end FileStore

/-- Saving a document that fits once it is up to date hands it to the storage. -/
theorem Desk.save_fitting {σ : Type} [Backend σ] {desk : Desk σ} {now : Timestamp} {d : Document}
    (synced : desk.project.document.sync now desk.project.state = .ok d)
    (fits : (desk.project.blueprint.check (d.stamped now) desk.archive.checkers).1 = .ok ()) :
    ∃ checkers, save now desk = ((Backend.save (d.stamped now) desk.archive.store).1,
      ⟨{ desk.project with document := d.stamped now },
        ⟨(Backend.save (d.stamped now) desk.archive.store).2, checkers⟩⟩) := by
  rcases checked : desk.project.blueprint.check (d.stamped now) desk.archive.checkers with
    ⟨result, checkers⟩
  rw [checked] at fits
  obtain rfl : result = .ok () := fits
  have deposits : deposit (d.stamped now) (desk.withDocument (d.stamped now)) =
      ((Backend.save (d.stamped now) desk.archive.store).1,
        ⟨{ desk.project with document := d.stamped now },
          ⟨(Backend.save (d.stamped now) desk.archive.store).2, checkers⟩⟩) := by
    rw [deposit, withDocument]
    simp only [Project.blueprint] at checked ⊢
    rw [checked]
    rfl
  refine ⟨checkers, ?_⟩
  rw [run_save, synced]
  exact deposits

variable {φ : Type} [FileSystem φ] {registry : Registry}

/-- A sound project is loaded from a store that holds its document. -/
theorem Project.Sound.load {p : Project} (sound : p.Sound registry) (recalls : FileSystem.Recall φ)
    {store : FileStore φ} (holds : store.Holds p.document) (now : Timestamp) (checkers : Checkers) :
    ∃ later, Project.load registry now ⟨store, checkers⟩ = (.ok p.quiet, ⟨store, later⟩) := by
  have found : Backend.load now store = (.ok p.document, store) :=
    holds.load recalls sound.typed sound.rules now
  rw [load_eq, found]
  refine ⟨(Project.accept registry p.document checkers).2, ?_⟩
  simp only [sound.accept checkers]

namespace Desk

variable {desk after : Desk (FileStore φ)} {now : Timestamp}

/-- A desk with a sound project that is what is stored. -/
structure Rests (registry : Registry) (desk : Desk (FileStore φ)) : Prop where
  sound : desk.project.Sound registry
  holds : desk.archive.store.Holds desk.project.document

/-- A project that was saved is sound and stored. -/
theorem save_rests (recalls : FileSystem.Recall φ) (bound : desk.project.Bound registry)
    (proper : now.Proper) (saved : save now desk = (.ok (), after)) : after.Rests registry := by
  obtain ⟨d, stamped, _, type, noted, saves⟩ := run_save_typed bound.typed proper
  rw [saves] at saved
  obtain ⟨checked, stored, same⟩ := deposit_ok saved
  obtain ⟨rules, clean⟩ := Blueprint.problems_of_check checked
  have sound : after.project.Sound registry := by
    rw [same]
    exact {
      typed := stamped
      registered := (congrArg (fun type => registry.get type.display) type).trans bound.registered
      machine := bound.machine
      rules
      noted
      fits := Blueprint.phasesFindings_again stamped clean }
  refine ⟨sound, ?_⟩
  rw [same]
  exact FileStore.holds_of_save recalls stored

end Desk

end Lifecycle
