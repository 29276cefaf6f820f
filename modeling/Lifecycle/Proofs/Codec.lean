import Lifecycle.Proofs.Agree
import Lifecycle.Proofs.Attempt
import Lifecycle.Proofs.JsonValue
import Lifecycle.Proofs.Limits
import Lifecycle.Storage.Backend
import Lifecycle.Validation
/-!
Documents kept in files. A document that obeys the rules reads back from its text with every finite
real as JSON spells it and null for the others, so that without reals it is the same; what no text can
hold is refused before anything is written. -/

namespace Lifecycle

open Decimal (Binary64)
open Value

/-- What a real comes back as once it was stored. -/
def stored (x : Binary64) : Value := if x.isFinite then .real (Json.reread x) else .null

theorem harmless_stored : Harmless stored := by
  intro x
  rw [stored]
  split <;> rfl

theorem respelled_finiteReal (x : Binary64) : (finiteReal x).mapReals Json.respelled = stored x := by
  rw [finiteReal, stored]
  split <;> rfl

namespace Document

/-- Whether a text can hold a document: the metadata of phases and tasks has at most 255 levels, that
of artifacts 254, and no whole number is too long. -/
structure Storable (d : Document) : Prop where
  shallow : d.Typed fun kind m => withinEntries (room 254 kind) m = true
  short : d.toValue.bare.writable = true

variable {condition : Condition} {real : Binary64 → Bool} (data : condition.OnData real)
include data

theorem print?_eq_some {d : Document} (typed : d.Typed condition) (storable : d.Storable) :
    d.print? = some (Json.print (.indented 2) (d.toValue.bare.mapReals finiteReal) ++ "\n") := by
  have both : d.Typed (condition.also 254) := typed.both storable.shallow
  have fits : d.toValue.fits depthLimit = true := (fits_iff data 254 typed).mpr both
  have bare := isData_bare data typed
  simp only [print?, fits, storable.short, finite_data bare, Bool.and_self, if_true]

theorem print?_eq_none {d : Document} (typed : d.Typed condition) (not : ¬d.Storable) :
    d.print? = none := by
  rw [print?, if_neg]
  intro test
  obtain ⟨fits, short⟩ := Bool.and_eq_true_iff.mp test
  have both := (fits_iff data 254 typed).mp fits
  exact not ⟨both.mono fun _ _ good => good.2, short⟩

/-- What is written of a storable document reads as what is left of it in JSON. -/
theorem parse_print? {d : Document} (typed : d.Typed condition) (storable : d.Storable) :
    Json.parse (Json.print (.indented 2) (d.toValue.bare.mapReals finiteReal) ++ "\n") =
      .ok (d.mapMetadata (mapRealsEntries stored)).toValue.bare := by
  have bare := isData_bare data typed
  have finite : (d.toValue.bare.mapReals finiteReal).isData Binary64.isFinite = true := by
    apply isData_mapReals bare
    intro x _
    rw [finiteReal]
    split
    · assumption
    · rfl
  have short : (d.toValue.bare.mapReals finiteReal).writable = true := by
    apply writable_mapReals bare storable.short
    intro x
    rw [finiteReal]
    split <;> rfl
  have inside : (d.toValue.bare.mapReals finiteReal).within Json.depthLimit = true := by
    have both : d.Typed (condition.also 254) := typed.both storable.shallow
    have room := within_bare (fun kind m good => data kind m good.1) (fun kind m good => good.2) both
    apply within_mapReals bare (within_mono _ _ bare room (by decide))
    intro x levels
    rw [finiteReal]
    split <;> rfl
  rw [Json.parse_print _ _ finite short inside, mapReals_mapReals bare]
  simp only [respelled_finiteReal]
  rw [mapReals_bare data harmless_stored typed]

/-- A document that obeys the rules obeys them with other reals and another stamp as well, whenever it is
read. -/
theorem read_stamped {d : Document} (typed : d.Typed condition) (sound : d.problems = [])
    {change : Binary64 → Value} (harmless : Harmless change) {stamp : Timestamp} (proper : stamp.Proper)
    (now : Timestamp) :
    Document.read now ((d.mapMetadata (mapRealsEntries change)).stamped stamp).toValue.bare =
      Reading.good ((d.mapMetadata (mapRealsEntries change)).stamped stamp) := by
  obtain ⟨updated, given, before⟩ := typed.updatedAt.elim
  let times (altered : Bool) : Timestamp := if altered then now else .ofSeconds 0 0 none
  let changes (altered : Bool) : Metadata → Metadata := if altered then mapRealsEntries change else id
  let stamps (altered : Bool) : Timestamp := if altered then stamp else updated
  have plain (altered : Bool) (kind : RecordKind) (m : Metadata) (good : condition kind m) :
      bareEntries (changes altered m) = changes altered m := by
    cases altered
    · exact bareEntries_data data good
    · exact bareEntries_mapReals data harmless good
  have stamped (altered : Bool) : (stamps altered).Proper := by
    cases altered
    · exact before
    · exact proper
  have agree := read_bare times plain typed stamped
  have clean : (Document.read (.ofSeconds 0 0 none)
      ((d.mapMetadata id).stamped updated).toValue.bare).problems = [] := by
    rw [stamped_same typed given]
    exact sound
  exact agree ⟨false, clean⟩ true

/-- A document that obeys the rules obeys them with other reals as well, whenever it is read. -/
theorem read_mapReals {d : Document} (typed : d.Typed condition) (sound : d.problems = [])
    {change : Binary64 → Value} (harmless : Harmless change) (now : Timestamp) :
    Document.read now (d.mapMetadata (mapRealsEntries change)).toValue.bare =
      Reading.good (d.mapMetadata (mapRealsEntries change)) := by
  obtain ⟨updated, given, proper⟩ := typed.updatedAt.elim
  have same : (d.mapMetadata (mapRealsEntries change)).stamped updated =
      d.mapMetadata (mapRealsEntries change) := by
    rw [stamped, ← given]
    rfl
  have read := read_stamped data typed sound harmless proper now
  rw [same] at read
  exact read

theorem problems_mapReals {d : Document} (typed : d.Typed condition) (sound : d.problems = [])
    {change : Binary64 → Value} (harmless : Harmless change) :
    (d.mapMetadata (mapRealsEntries change)).problems = [] := by
  rw [problems, read_mapReals data typed sound harmless]
  rfl

/-- A document that obeys the rules is read from its text whenever that is done. -/
theorem decode_print? {d : Document} (typed : d.Typed condition) (storable : d.Storable)
    (sound : d.problems = []) (path : String) (now : Timestamp) :
    FileStore.decode path now
        (Json.print (.indented 2) (d.toValue.bare.mapReals finiteReal) ++ "\n") =
      .ok (d.mapMetadata (mapRealsEntries stored)) := by
  have read := read_mapReals data typed sound harmless_stored now
  simp only [FileStore.decode, parse_print? data typed storable, read]
  rfl

end Document

/-- A file system that takes any text under a path and returns it. -/
def FileSystem.Faithful {φ : Type} [FileSystem φ] (files : φ) (path : String) : Prop :=
  ∀ text, ∃ after, FileSystem.write path text files = (.ok (), after) ∧
    (FileSystem.read path after).1 = .ok text

theorem MemoryFiles.faithful (m : MemoryFiles) (path : String) : FileSystem.Faithful m path := by
  intro text
  refine ⟨⟨Keyed.put m.files path text⟩, rfl, ?_⟩
  have found : Keyed.find? (Keyed.put m.files path text) path = some text := by
    rw [Keyed.find?_put, if_pos rfl]
  show (MemoryFiles.read path ⟨Keyed.put m.files path text⟩).1 = .ok text
  rw [MemoryFiles.read, Attempt.run_bind_ok (Attempt.run_get _), found]
  rfl

namespace FileStore

variable {φ : Type} [FileSystem φ] {condition : Condition} {real : Binary64 → Bool}

theorem save_of_print? {d : Document} {text : String} (printed : d.print? = some text)
    (store : FileStore φ) :
    save d store =
      ((FileSystem.write store.path text store.files).1.mapError (accountAll store.path "write to"),
        { store with files := (FileSystem.write store.path text store.files).2 }) := by
  rw [save, Attempt.run_bind_ok (Attempt.run_get store), printed]
  simp only [Attempt.run_rethrow, onFiles, Attempt.run_focus]

theorem save_of_no_text {d : Document} (printed : d.print? = none) (store : FileStore φ) :
    save d store = (.error (.unencodable store.path), store) := by
  rw [save, Attempt.run_bind_ok (Attempt.run_get store), printed]
  rfl

theorem load_of_read {store : FileStore φ} {text : String}
    (found : (FileSystem.read store.path store.files).1 = .ok text) (now : Timestamp) :
    (load now store).1 = decode store.path now text := by
  have read : (Attempt.rethrow (account store.path "read") (onFiles FileSystem.read) store) =
      (.ok text, { store with files := (FileSystem.read store.path store.files).2 }) := by
    simp only [Attempt.run_rethrow, onFiles, Attempt.run_focus, found]
    rfl
  rw [load, Attempt.run_bind_ok (Attempt.run_get store), Attempt.run_bind_ok read]
  rfl

/-- What was saved is loaded with nothing changed but reals. -/
theorem load_stored (data : condition.OnData real) {d : Document} (typed : d.Typed condition)
    (storable : d.Storable) (sound : d.problems = []) {store : FileStore φ}
    (faithful : FileSystem.Faithful store.files store.path) (now : Timestamp) :
    ∃ after, save d store = (.ok (), after) ∧
      (load now after).1 = .ok (d.mapMetadata (mapRealsEntries stored)) := by
  have printed := d.print?_eq_some data typed storable
  obtain ⟨files, written, found⟩ := faithful _
  refine ⟨{ store with files }, ?_, ?_⟩
  · rw [save_of_print? printed, written]
    rfl
  · rw [load_of_read found, d.decode_print? data typed storable sound]

end FileStore

/-- Metadata that JSON has. -/
def Condition.json : Condition := fun _ m => (Value.map m).isData (fun _ => true) = true

/-- Metadata that JSON has and that holds no reals. -/
def Condition.exact : Condition := fun _ m => (Value.map m).isData (fun _ => false) = true

/-- A document without reals that obeys the rules is loaded as it was saved, whenever that is done,
or refused before anything is written because no text can hold it. -/
theorem FileStore.round_trip {φ : Type} [FileSystem φ] {d : Document} (typed : d.Typed .exact)
    (sound : d.problems = []) {store : FileStore φ}
    (faithful : FileSystem.Faithful store.files store.path) (now : Timestamp) :
    (d.Storable → ∃ after, FileStore.save d store = (.ok (), after) ∧
      (FileStore.load now after).1 = .ok d) ∧
    (¬d.Storable → FileStore.save d store = (.error (.unencodable store.path), store)) := by
  have data : Condition.exact.OnData fun _ => false := fun _ _ good => good
  constructor
  · intro storable
    have unchanged : d.mapMetadata (mapRealsEntries stored) = d :=
      Document.mapMetadata_same typed fun _ _ good => Value.map.inj (mapReals_exact good stored)
    have saved := FileStore.load_stored data typed storable sound faithful now
    rw [unchanged] at saved
    exact saved
  · intro not
    exact FileStore.save_of_no_text (d.print?_eq_none data typed not) store

/-- The beginning of 2024. -/
def newYear : Timestamp := ⟨2024, 1, 1, 0, 0, 0, 0, none⟩

/-- A document with one phase that has the metadata given. -/
def Document.sample (m : Metadata) : Document where
  name := .proper "demo"
  type := .proper "standard"
  branch := .proper "main"
  description := .proper ""
  createdAt := .proper newYear
  updatedAt := .proper newYear
  phases := .ofEntries [("plan", { Phase.fresh newYear [] with metadata := .proper m })]
  statechart := .proper (.noted "Start" newYear)
  agentSessions := .empty

theorem newYear_proper : newYear.Proper where
  year := by decide
  day := by decide
  hour := by decide
  minute := by decide
  second := by decide
  micro := by decide
  offset := nofun

theorem Document.sample_typed {condition : Condition} {m : Metadata} (good : condition .phase m) :
    (sample m).Typed condition := by
  have phase : Phase.Typed condition { Phase.fresh newYear [] with metadata := .proper m } :=
    Phase.fresh_typed newYear_proper (fun _ member => absurd member List.not_mem_nil) good
  exact {
    name := True.intro
    type := True.intro
    branch := True.intro
    description := True.intro
    createdAt := newYear_proper
    updatedAt := newYear_proper
    phases := Table.holds_ofEntries.mpr
      ⟨List.nodup_singleton _, fun entry member => List.mem_singleton.mp member ▸ phase⟩
    statechart := ⟨True.intro, newYear_proper⟩
    agentSessions := ⟨List.nodup_nil, nofun⟩ }

/-- Nothing stored yet. -/
def FileStore.blank : FileStore MemoryFiles := ⟨⟨[]⟩, "s.json"⟩

theorem FileStore.blank_faithful : FileSystem.Faithful blank.files blank.path :=
  MemoryFiles.faithful ⟨[]⟩ "s.json"

theorem FileStore.round_trip_sample :
    ∃ after, FileStore.save (.sample [("k", .integer 7)]) blank = (.ok (), after) ∧
      (FileStore.load newYear after).1 = .ok (.sample [("k", .integer 7)]) := by
  have typed : (Document.sample [("k", .integer 7)]).Typed .exact := Document.sample_typed rfl
  have storable : (Document.sample [("k", .integer 7)]).Storable :=
    ⟨Document.sample_typed rfl, by decide +kernel⟩
  have sound : (Document.sample [("k", .integer 7)]).problems = [] := by decide +kernel
  exact (FileStore.round_trip typed sound blank_faithful newYear).1 storable

/-- So many lists inside each other. -/
def Value.nested : Nat → Value
  | 0 => .null
  | levels + 1 => .list [nested levels]

/-- A document that obeys the rules, of which no text can hold everything. -/
structure Document.Refused (d : Document) : Prop where
  typed : d.Typed .exact
  sound : d.problems = []
  refused : FileStore.save d FileStore.blank = (.error (.unencodable "s.json"), FileStore.blank)

/-- What is deep and what has long numbers is refused. -/
theorem FileStore.save_refuses_data :
    (Document.sample [("k", .nested 255)]).Refused ∧
      (Document.sample [("k", .integer (10 ^ 4300))]).Refused := by
  have refused (m : Metadata) (exact : Condition.exact .phase m)
      (sound : (Document.sample m).problems = []) (printed : (Document.sample m).print? = none) :
      (Document.sample m).Refused :=
    ⟨Document.sample_typed exact, sound, FileStore.save_of_no_text printed blank⟩
  constructor
  · have exact : (Value.map [("k", .nested 255)]).isData (fun _ => false) = true := by decide +kernel
    exact refused _ exact (by decide +kernel) (by decide +kernel)
  · have exact : (Value.map [("k", .integer (10 ^ 4300))]).isData (fun _ => false) = true := rfl
    exact refused _ exact (by decide +kernel) (by decide +kernel)

end Lifecycle
