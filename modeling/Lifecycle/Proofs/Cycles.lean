import Lifecycle.Proofs.Firing
import Lifecycle.Proofs.Recall
import Lifecycle.Proofs.Short
import Mathlib.Data.List.Permutation
/-!
Projects that are loaded and saved again and again. The first loading makes a document of the text,
whatever had to be made up for; from then on nothing changes but the time of the last change. -/

namespace Lifecycle

/-- Whether a text can hold how a document nests: the metadata of phases and tasks has at most 255 levels,
that of artifacts 254. -/
def Document.Shallow (d : Document) : Prop :=
  d.Typed fun kind m => Value.withinEntries (room 254 kind) m = true

namespace Document

variable {d : Document} {now : Timestamp}

theorem stamped_writable {condition : Condition} (typed : d.Typed condition) (now : Timestamp) :
    (d.stamped now).toValue.bare.writable = d.toValue.bare.writable := by
  obtain ⟨name, type, branch, description, createdAt, updatedAt, phases, statechart, sessions, rfl, _⟩ :=
    typed.elim
  simp only [stamped, bare_document, Value.writable, Value.writableEntries]

theorem Storable.stamped (storable : d.Storable) (proper : now.Proper) : (d.stamped now).Storable :=
  ⟨stamped_typed storable.shallow proper, (stamped_writable storable.shallow now).trans storable.short⟩

theorem sync_noted {state : String} (noted : d.current = .ok (.proper state)) (now : Timestamp) :
    d.sync now state = .ok d := by
  rw [sync, noted]
  simp only [bind, Except.bind, Slot.holds, decide_true, if_true]
  rfl

end Document

namespace Project

variable {registry : Registry} {p : Project} {now : Timestamp}

/-- A project whose document has another time of its last change. -/
def stamped (p : Project) (now : Timestamp) : Project := { p with document := p.document.stamped now }

theorem Sound.stamped (sound : p.Sound registry) (proper : now.Proper) : (p.stamped now).Sound registry where
  typed := Document.stamped_typed sound.typed proper
  rules := Document.stamped_problems sound.typed sound.rules proper
  registered := sound.registered
  noted := sound.noted
  fits := sound.fits
  machine := sound.machine

/-- What is loaded without reals is sound, and a text can hold it but for its depth. -/
theorem load_sound {φ : Type} [FileSystem φ] {archive : Archive (FileStore φ)} {opened : Timestamp}
    (proper : opened.Proper) (loaded : (load registry opened archive).1 = .ok p)
    (exact : p.document.Typed .exact) :
    p.Sound registry ∧ p.quiet = p ∧ p.document.toValue.bare.writable = true := by
  rw [load_eq] at loaded
  rcases found : Backend.load opened archive.store with ⟨fault | d, store⟩
  · rw [found] at loaded
    cases loaded
  · rw [found] at loaded
    obtain ⟨rules, b, registered, state, noted, clean, rfl⟩ := accept_eq_ok.mp loaded
    have typed : d.Typed .exact := exact
    obtain ⟨current, given⟩ := typed.noted
    rw [noted] at given
    obtain rfl := Except.ok.inj given
    have read : (FileStore.load opened archive.store).1 = .ok d := congrArg Prod.fst found
    rw [FileStore.run_load] at read
    obtain ⟨text, _, decoded⟩ := Except.bind_eq_ok.mp read
    -- No integer that was read can have more digits than one that is written.
    refine ⟨?_, rfl, FileStore.decode_writable proper decoded⟩
    exact {
      typed
      rules
      registered
      noted
      fits := Blueprint.phasesFindings_again typed clean
      machine := rfl }

variable {σ : Type} [Backend σ]

/-- Saves a project beside an archive. -/
def saved (now : Timestamp) (p : Project) : Attempt (Archive σ) Project := fun archive =>
  let (outcome, desk) := Desk.save now ⟨p, archive⟩
  (outcome.map fun _ => desk.project, desk.archive)

/-- Loads a project and saves it again: the project as it was saved. -/
def cycle (registry : Registry) (opened now : Timestamp) : Attempt (Archive σ) Project := do
  saved now (← load registry opened)

/-- Saving a sound project stamps it and hands its document to the storage. -/
theorem Sound.run_saved (sound : p.Sound registry) (proper : now.Proper) (archive : Archive σ) :
    ∃ checkers, saved now p archive =
      ((Backend.save (p.document.stamped now) archive.store).1.map fun _ => p.stamped now,
        ⟨(Backend.save (p.document.stamped now) archive.store).2, checkers⟩) := by
  let desk : Desk σ := ⟨p, archive⟩
  have synced : desk.project.document.sync now desk.project.state = .ok p.document :=
    Document.sync_noted sound.noted now
  have passes : (desk.project.blueprint.check (p.document.stamped now) desk.archive.checkers).1 = .ok () :=
    Blueprint.check_of_clean (sound.stamped proper).rules ((sound.stamped proper).fits _)
  obtain ⟨checkers, done⟩ := Desk.save_fitting synced passes
  refine ⟨checkers, ?_⟩
  have done : Desk.save now ⟨p, archive⟩ = _ := done
  rw [saved, done]
  rfl

theorem run_cycle {opened : Timestamp} {archive left : Archive σ}
    (loaded : load registry opened archive = (.ok p, left)) :
    cycle registry opened now archive = saved now p left := by
  rw [cycle, Attempt.run_bind_ok loaded]

end Project

/-- Files that take documents under a path as long as they are open: they are open still after that. -/
def FileSystem.Takes {φ : Type} [FileSystem φ] (path : String) (isOpen : φ → Prop) : Prop :=
  ∀ (d : Document) text (files : φ), d.print? = some text → isOpen files →
    ∃ after, FileSystem.write path text files = (.ok (), after) ∧ isOpen after

theorem MemoryFiles.takes (path : String) : FileSystem.Takes path fun _ : MemoryFiles => True :=
  fun _ _ _ _ _ => ⟨_, rfl, True.intro⟩

/-- An archive in a file. -/
abbrev Archive.inFile {φ : Type} (files : φ) (path : String) (checkers : Checkers) :
    Archive (FileStore φ) := ⟨⟨files, path⟩, checkers⟩

namespace Project

variable {φ : Type} [FileSystem φ] {registry : Registry} {p : Project} {opened now : Timestamp}

theorem load_quiet (recalls : FileSystem.Recall φ) (registry : Registry) (opened : Timestamp)
    (archive : Archive (FileStore φ)) : (load registry opened archive).2.store = archive.store :=
  (load_store registry opened archive).trans (FileStore.load_stays recalls opened archive.store)

/-- A project that is too deep is not saved. -/
theorem Sound.saved_deep (sound : p.Sound registry) (deep : ¬p.document.Shallow) (proper : now.Proper)
    (archive : Archive (FileStore φ)) :
    ∃ later, saved now p archive =
      (.error (.unencodable archive.store.path), ⟨archive.store, later⟩) := by
  obtain ⟨later, same⟩ := sound.run_saved proper archive
  have not : ¬(p.document.stamped now).Storable := by
    intro storable
    exact deep { storable.shallow with updatedAt := sound.typed.updatedAt }
  have refused : Backend.save (p.document.stamped now) archive.store =
      (.error (.unencodable archive.store.path), archive.store) :=
    FileStore.save_of_no_text
      (Document.print?_eq_none Condition.exact_onData (sound.stamped proper).typed not) archive.store
  refine ⟨later, ?_⟩
  rw [same, refused]
  rfl

section

variable (recalls : FileSystem.Recall φ) {path : String} {isOpen : φ → Prop}
  (takes : FileSystem.Takes path isOpen)

include recalls takes

/-- A sound project is saved with a new stamp if it is not too deep. -/
theorem Sound.saved_holds (sound : p.Sound registry) (storable : p.document.Storable)
    (proper : now.Proper) {files : φ} (ready : isOpen files) (checkers : Checkers) :
    ∃ after later, saved now p (.inFile files path checkers) =
        (.ok (p.stamped now), .inFile after path later) ∧
      isOpen after ∧ FileStore.Holds ⟨after, path⟩ (p.document.stamped now) := by
  have printed := (p.document.stamped now).print?_eq_some Condition.exact_onData
    (sound.stamped proper).typed (storable.stamped proper)
  obtain ⟨after, written, still⟩ := takes _ _ files printed ready
  obtain ⟨later, same⟩ := sound.run_saved proper (.inFile files path checkers)
  have kept : FileStore.save (p.document.stamped now) ⟨files, path⟩ = (.ok (), ⟨after, path⟩) := by
    rw [FileStore.save_of_print? printed, written]
    rfl
  refine ⟨after, later, ?_, still, FileStore.holds_of_save recalls kept⟩
  have kept : Backend.save (p.document.stamped now) (⟨files, path⟩ : FileStore φ) =
      (.ok (), ⟨after, path⟩) := kept
  rw [same, kept]
  rfl

/-- A cycle of a sound project that is what is stored changes the time of its last change. -/
theorem Sound.cycle_holds (sound : p.Sound registry) (journal : p.quiet = p)
    (storable : p.document.Storable) (opened : Timestamp) (proper : now.Proper) {files : φ}
    (ready : isOpen files) (holds : FileStore.Holds ⟨files, path⟩ p.document) (checkers : Checkers) :
    ∃ after later, cycle registry opened now (.inFile files path checkers) =
        (.ok (p.stamped now), .inFile after path later) ∧
      isOpen after ∧ FileStore.Holds ⟨after, path⟩ (p.document.stamped now) := by
  obtain ⟨later, loaded⟩ := sound.load recalls holds opened checkers
  rw [journal] at loaded
  rw [run_cycle loaded]
  exact sound.saved_holds recalls takes storable proper ready later

/-- However often a project that was saved is loaded and saved again, nothing else changes. -/
theorem Sound.cycles_hold (sound : p.Sound registry) (journal : p.quiet = p)
    (storable : p.document.Storable) (later : List (Timestamp × Timestamp))
    (clocks : ∀ t ∈ later, t.2.Proper) (proper : now.Proper) {files : φ} (ready : isOpen files)
    (holds : FileStore.Holds ⟨files, path⟩ (p.document.stamped now)) (checkers : Checkers) :
    ∃ after, later.mapM (fun t => cycle registry t.1 t.2) (.inFile files path checkers) =
        (.ok (later.map fun t => p.stamped t.2), after) ∧
      after.store.Holds
        (p.document.stamped ((now :: later.map Prod.snd).getLast (List.cons_ne_nil _ _))) := by
  -- Before each cycle the project is stored under the stamp that the one before it gave.
  induction later generalizing files now checkers with
  | nil => exact ⟨.inFile files path checkers, rfl, holds⟩
  | cons t rest ih =>
      have still : (p.stamped now).quiet = p.stamped now := by
        rw [← journal]
        rfl
      obtain ⟨clock, clocks⟩ := List.forall_mem_cons.mp clocks
      obtain ⟨middle, checked, cycled, ready, holds⟩ := (sound.stamped proper).cycle_holds recalls takes
        still (storable.stamped proper) t.1 clock ready holds checkers
      obtain ⟨after, run, holds⟩ := ih clocks clock ready holds checked
      refine ⟨after, ?_, holds⟩
      have again : cycle registry t.1 t.2 (.inFile files path checkers) =
          (.ok (p.stamped t.2), .inFile middle path checked) := cycled
      rw [List.mapM_cons, Attempt.run_bind_ok again, Attempt.run_bind_ok run]
      rfl

end

end Project

/-- Data without reals is read from its text as it is, if it is not too deep for that. -/
theorem Json.parse_exact {v : Value} (exact : v.isData (fun _ => false) = true)
    (short : v.writable = true) (inside : v.within depthLimit = true) (layout : Layout) :
    parse (print layout v ++ "\n") = .ok v := by
  have none (x : Decimal.Binary64) (real : false = true) :
      (Value.real x).isData Decimal.Binary64.isFinite = true := by
    cases real
  have finite := Value.isData_mapReals exact none
  rw [Value.mapReals_exact exact] at finite
  rw [parse_print layout v finite short inside, Value.mapReals_exact exact]

/-- Later on the first day of 2024. -/
def noon : Timestamp := { newYear with hour := 12 }

theorem noon_proper : noon.Proper := { newYear_proper with hour := by decide }

/-- Data that documents can be made of: much is left out, and some is spelled in another way. -/
def looseData (m : Metadata) : Value := .map [
  ("type", .text "standard"),
  ("name", .text "demo"),
  ("lines", .integer 7),
  ("phases", .map [("plan", .map [("enabled", .text "yes"), ("metadata", .map m)])]),
  ("statechart", .map [("current_state", .text "Start")])]

theorem read_looseData (m : Metadata) :
    Document.read newYear (looseData m) = Reading.good (.sample m) := by
  cbv

/-- A file in memory with that data. -/
def Archive.loose (m : Metadata) : Archive (FileStore MemoryFiles) :=
  ⟨⟨⟨[("s.json", Json.print .inline (looseData m) ++ "\n")]⟩, "s.json"⟩, []⟩

/-- A type that allows any metadata. -/
def Registry.loose : Registry := [("standard", .sample (.shape .anything))]

namespace Project

/-- The project that is loaded from that data. -/
def loose (m : Metadata) : Project := .start (.sample (.shape .anything)) (.sample m) "Start"

theorem load_loose {m : Metadata} (exact : (looseData m).isData (fun _ => false) = true)
    (short : (looseData m).writable = true) (inside : (looseData m).within Json.depthLimit = true)
    (rules : (Document.sample m).problems = [])
    (clean : ((loose m).blueprint.phasesFindings (.sample m) []).1 = .ok []) :
    ∃ left, load .loose newYear (.loose m) = (.ok (loose m), left) := by
  have decoded : FileStore.decode "s.json" newYear (Json.print .inline (looseData m) ++ "\n") =
      .ok (.sample m) := by
    rw [FileStore.decode, Json.parse_exact exact short inside]
    simp only [read_looseData]
    rfl
  have found : (Backend.load newYear (Archive.loose m).store).1 = .ok (.sample m) :=
    (FileStore.load_of_read rfl newYear).trans decoded
  have accepted : (accept .loose (.sample m) []).1 = .ok (loose m) :=
    accept_eq_ok.mpr ⟨rules, _, rfl, .proper "Start", rfl, clean, rfl⟩
  rw [load_eq]
  rcases shape : Backend.load newYear (Archive.loose m).store with ⟨result, store⟩
  rw [shape] at found
  obtain rfl : result = .ok (.sample m) := found
  rcases judged : accept .loose (.sample m) [] with ⟨outcome, checkers⟩
  rw [judged] at accepted
  obtain rfl : outcome = .ok (loose m) := accepted
  have none : (Archive.loose m).checkers = [] := rfl
  simp only [none, judged]
  exact ⟨_, rfl⟩

end Project

end Lifecycle
