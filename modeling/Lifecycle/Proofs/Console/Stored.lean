import Lifecycle.Proofs.Console.Commands
import Lifecycle.Proofs.Tracking
import Lifecycle.Proofs.Unsaved
/-!
What command lines leave on disk. One that only looks leaves the disk as it is, one that fails leaves the
stored text as it is, and one that moves the project leaves it stored in the state that is announced. -/

namespace Lifecycle

open Attempt (Leaves)
open Value

/-- What storage never changes, whatever it is asked for. -/
structure Backend.Leaves {σ κ : Type} [Backend σ] (see : σ → κ) : Prop where
  save : ∀ d : Document, Attempt.Leaves see (Backend.save d)
  holds : Attempt.Leaves see (Backend.holds : Attempt σ Bool)
  delete : Attempt.Leaves see (Backend.delete : Attempt σ Unit)

theorem Attempt.Leaves.rethrow {s α κ : Type} {see : s → κ} {work : Attempt s α}
    (inner : Leaves see work) (wrap : Fault → Fault) : Leaves see (Attempt.rethrow wrap work) := by
  intro state
  rw [Attempt.run_rethrow]
  exact inner state

theorem FileStore.leaves_path {φ : Type} [FileSystem φ] :
    Backend.Leaves fun store : FileStore φ => store.path where
  save d := by
    refine Attempt.leaves_get.bind fun store => ?_
    cases d.print? with
    | none => exact Attempt.leaves_throw _
    | some text => exact Leaves.rethrow (fun _ => rfl) _
  holds := Attempt.leaves_get.bind fun _ => Leaves.rethrow (fun _ => rfl) _
  delete := Attempt.leaves_get.bind fun _ => Leaves.rethrow (fun _ => rfl) _

namespace Desk

section

variable {σ κ : Type} [Backend σ] {see : σ → κ} (constant : Backend.Leaves see) (now : Timestamp)

omit [Backend σ] in
theorem leaves_onStore {α : Type} {work : Attempt σ α} (inner : Leaves see work) :
    Leaves (fun desk : Desk σ => see desk.archive.store) (onStore work) :=
  fun desk => inner desk.archive.store

include constant

theorem save_leaves : Leaves (fun desk : Desk σ => see desk.archive.store) (save now) :=
  Leaves.bind (fun _ => rfl) fun _ => Attempt.leaves_get.bind fun _ =>
    Leaves.bind (fun _ => rfl) fun _ => leaves_onStore (constant.save _)

theorem keep_leaves : Leaves (fun desk : Desk σ => see desk.archive.store) (keep now) := by
  refine Attempt.leaves_get.bind fun desk => Attempt.leaves_ite ?_ (save_leaves constant now)
  exact (leaves_onStore constant.holds).bind fun _ =>
    Attempt.leaves_ite (leaves_onStore constant.delete) (Attempt.leaves_pure _)

theorem fire_leaves (event : String) :
    Leaves (fun desk : Desk σ => see desk.archive.store) (fire now event) := by
  refine Attempt.leaves_get.bind fun desk => Leaves.bind (fun _ => rfl) fun t => ?_
  refine Attempt.leaves_get.bind fun desk => Leaves.bind (fun _ => rfl) fun _ => ?_
  exact Leaves.bind (Leaves.rethrow (keep_leaves constant now) _) fun _ => Attempt.leaves_pure _

theorem proceed_leaves (event : Option String) :
    Leaves (fun desk : Desk σ => see desk.archive.store) (proceed now event) := by
  cases event with
  | some event => exact fire_leaves constant now event
  | none =>
      exact Attempt.leaves_get.bind fun desk =>
        (Attempt.leaves_ofExcept _).bind fun event => fire_leaves constant now event

end

variable {σ κ : Type} [Backend σ] {now : Timestamp} {desk after : Desk σ}

theorem settle_ok {source : String} {t : Transition} {m : Move}
    (settled : settle now source t desk = (.ok m, after)) :
    m = t.move source ∧ ∃ document, keep now (desk.withDocument document) = (.ok (), after) := by
  rw [settle] at settled
  rcases edited : Edit.afterTransition now desk.project.blueprint source t desk.project.document with
    ⟨fault | ⟨⟩, document⟩
  · rw [edited] at settled
    cases settled
  · simp only [edited] at settled
    rcases kept : keep now (desk.withDocument document) with ⟨fault | ⟨⟩, last⟩
    · rw [kept] at settled
      cases settled
    · rw [kept] at settled
      cases settled
      exact ⟨rfl, document, kept⟩

/-- A move that is reported was made, and the project was kept in its target. -/
theorem proceed_ok {event : Option String} {m : Move}
    (moved : proceed now event desk = (.ok m, after)) :
    m.source = desk.project.state ∧ m.target = after.project.state ∧
      ∃ before, before.archive = desk.archive ∧ before.project.state = m.target ∧
        keep now before = (.ok (), after) := by
  by_cases fires : ∃ t moved, desk.project.Fires now event t moved
  · obtain ⟨t, project, fires⟩ := fires
    rw [proceed_fires fires] at moved
    have there := fires_state fires
    have stays := settle_machine now desk.project.state t (desk.withProject project)
    rw [moved] at stays
    obtain ⟨rfl, document, kept⟩ := settle_ok moved
    refine ⟨rfl, ?_, (desk.withProject project).withDocument document, rfl, there, kept⟩
    exact (congrArg Machine.state stays).trans there |>.symm
  · rw [run_proceed] at moved
    cases asked : desk.project.eventFor event with
    | error fault =>
        rw [asked] at moved
        cases moved
    | ok name =>
        simp only [asked, run_fire] at moved
        rcases fired : desk.project.fire now name with ⟨fault | t, project⟩
        · rw [fired] at moved
          cases moved
        · exact absurd ⟨t, project, name, asked, fired⟩ fires

theorem proceed_tracks (contract : Backend.Contract σ κ) (event : Option String) :
    contract.Tracks (proceed now event) := by
  cases event with
  | some event => exact fire_tracks contract now event
  | none => exact advance_tracks contract now

/-- An order to look is carried out without touching anything. -/
theorem run_looks (now : Timestamp) {o : Order} (looks : (o.list || o.dryRun) = true)
    (desk : Desk σ) :
    (run now o desk).2 = desk := by
  obtain ⟨event, list, dryRun⟩ := o
  cases list with
  | true =>
      cases dryRun with
      | true => rfl
      | false =>
          cases event with
          | some event => rfl
          | none =>
              rw [run, Attempt.run_bind_ok (Attempt.run_get _), Attempt.ofExcept_bind]
              cases desk.project.discover <;> rfl
  | false =>
      cases dryRun with
      | false => cases looks
      | true =>
          cases event with
          | none => rfl
          | some event =>
              rw [run, Attempt.run_bind_ok (Attempt.run_get _), Attempt.ofExcept_bind]
              cases desk.project.dryRun event <;> rfl

end Desk

/-- What a file is to hold of a project in a state: nothing after the end of its lifecycle, else the text
of a document that notes the state and, if everything in it is what belongs in its place, reads back. -/
def FileStore.Tells (path target : String) (text : Option String) : Prop :=
  if target = noProject then text = none
  else ∃ (d : Document) (written : String), d.current = .ok (.proper target) ∧
    d.print? = some written ∧ text = some written ∧
    (d.Typed .json → ∀ now, ∃ read, FileStore.decode path now written = .ok read ∧
      read.current = .ok (.proper target))

/-- What is written of a document that obeys the rules reads back, whenever that is done. -/
theorem Document.decode_written {d : Document} {written : String} (typed : d.Typed .json)
    (sound : d.problems = []) (printed : d.print? = some written) (path : String) (now : Timestamp) :
    FileStore.decode path now written = .ok (d.mapMetadata (mapRealsEntries stored)) := by
  have data : Condition.json.OnData fun _ => true := fun _ _ good => good
  have storable : d.Storable := by
    by_contra not
    rw [d.print?_eq_none data typed not] at printed
    cases printed
  rw [d.print?_eq_some data typed storable] at printed
  rw [← Option.some.inj printed]
  exact d.decode_print? data typed storable sound path now

/-- What was kept tells the state that the project is in. -/
theorem Desk.keep_tells {φ : Type} [FileSystem φ] (system : FileSystem.Contract φ) {now : Timestamp}
    {desk after : Desk (FileStore φ)} (kept : keep now desk = (.ok (), after)) (path : String) :
    FileStore.Tells path desk.project.state (FileStore.textIn system after.archive.store) := by
  rw [run_keep] at kept
  rw [FileStore.Tells]
  by_cases ended : desk.project.state = noProject
  · rw [if_pos ended] at kept ⊢
    exact (clear_settles (FileStore.contract system)).ok kept
  · rw [if_neg ended] at kept ⊢
    obtain ⟨d, synced, checked, stored, _⟩ := save_ok kept
    have noted := Document.current_of_sync synced
    obtain ⟨sound, _⟩ := Blueprint.problems_of_check checked
    obtain ⟨written, printed, shown⟩ := (FileStore.save_settles system _).ok stored
    refine ⟨{ d with updatedAt := .proper now }, written, noted, printed, shown, ?_⟩
    intro typed later
    exact ⟨_, Document.decode_written typed sound printed path later, noted⟩

namespace Console

/-- Whether a call may change what is stored: only `new` does, and `advance` unless it is to look. -/
def Call.stores (call : Call) : Bool :=
  match call.arguments? with
  | some a => call.entry.name = "new" || call.entry.name = "advance" && !(a.has "list" || a.has "dryRun")
  | none => false

section

variable {now : Timestamp} {d : Disk} {path : String} {checkers : Checkers} {fault : Fault}

/-- A new project that is not made leaves the stored text as it is. -/
theorem create_error {registry : Registry} {r : Request} {archive : Archive (FileStore Disk)}
    (failed : Project.create registry now r (archiveOn d path checkers) = (.error fault, archive)) :
    Disk.textAt path archive.store.files = Disk.textAt path d := by
  rw [Project.run_create] at failed
  cases made : Project.new registry now r with
  | error other =>
      rw [made] at failed
      cases failed
      rfl
  | ok p =>
      simp only [made] at failed
      rcases saved : Desk.save now ⟨p, archiveOn d path checkers⟩ with ⟨other | ⟨⟩, desk⟩
      · rw [saved] at failed
        cases failed
        have same := Desk.save_error (FileStore.contract Disk.contract) saved
        -- The contract speaks of the path that the store has in the end, so that has to be the one it had.
        have place := Desk.save_leaves FileStore.leaves_path now ⟨p, archiveOn d path checkers⟩
        rw [saved] at place
        have place : desk.archive.store.path = path := place
        rw [← place]
        exact same.trans (congrArg (Disk.textAt · d) place.symm)
      · rw [saved] at failed
        cases failed

variable {p : Project} {event : Option String} {desk : Desk (FileStore Disk)}

theorem proceed_path {result : Except Fault Move}
    (done : Desk.proceed now event ⟨p, archiveOn d path checkers⟩ = (result, desk)) :
    desk.archive.store.path = path := by
  have place := Desk.proceed_leaves FileStore.leaves_path now event ⟨p, archiveOn d path checkers⟩
  rw [done] at place
  exact place

/-- A move that is not made, or not stored, leaves the stored text as it is. -/
theorem proceed_error
    (failed : Desk.proceed now event ⟨p, archiveOn d path checkers⟩ = (.error fault, desk)) :
    Disk.textAt path desk.archive.store.files = Disk.textAt path d := by
  have same := (Desk.proceed_tracks (FileStore.contract Disk.contract) event).error failed
  have place := proceed_path failed
  rw [← place]
  exact same.trans (congrArg (Disk.textAt · d) place.symm)

/-- A move that is made is stored. -/
theorem proceed_tells {m : Move}
    (moved : Desk.proceed now event ⟨p, archiveOn d path checkers⟩ = (.ok m, desk)) :
    m.source = p.state ∧ FileStore.Tells path m.target (Disk.textAt path desk.archive.store.files) := by
  obtain ⟨source, _, before, archive, target, kept⟩ := Desk.proceed_ok moved
  have tells := Desk.keep_tells Disk.contract kept path
  rw [target] at tells
  have place := proceed_path moved
  refine ⟨source, ?_⟩
  rw [FileStore.textIn, place] at tells
  exact tells

end

namespace Command

variable {t : Terminal} {d : Disk} {checkers : Checkers}

theorem loadStop_ne_done (fault : Fault) : loadStop fault ≠ .done := by
  unfold loadStop
  split
  · nofun
  · rw [reported]
    split <;> nofun

theorem advanceReport_ne_done (g : Grammar) (fault : Fault) : advanceReport g fault ≠ .done := by
  unfold advanceReport
  split
  iterate 5 nofun
  rw [reported]
  split <;> nofun

/-- What is said of a move: where it led from, unless that was said before, and where it led. -/
theorem run_showMove (event : Option String) (state : String) (m : Move) (t : Terminal) :
    showReport ⟨event, false, false⟩ state (.move m) t =
      (.ok (), { t with out := t.out ++ (if event.isSome then [] else [s!"Current state: {state}"]) ++
        [s!"Advanced to: {m.target}"] }) := by
  cases event with
  | some event =>
      simp only [Option.isSome_some, if_true, List.append_nil]
      rfl
  | none => rfl

/-- What `advance` leaves on disk and says, if it is not to look only. -/
theorem advance_stores (setup : Setup) (g : Grammar) (event : Option String) (on : t.On d checkers) :
    match advance setup g ⟨event, false, false⟩ t with
    | (.error stop, after) => stop ≠ .done ∧
        ∀ path, pathOn d = .ok path → Disk.textAt path after.disk = Disk.textAt path d
    | (.ok _, after) => ∃ path source target : String, pathOn d = .ok path ∧
        after.out = t.out ++ [s!"Current state: {source}", s!"Advanced to: {target}"] ∧
        FileStore.Tells path target (Disk.textAt path after.disk) := by
  cases run_advance setup g ⟨event, false, false⟩ on with
  | astray fault at_ ends =>
      obtain ⟨after, same, _⟩ := ends
      rw [same, at_]
      exact ⟨nofun, nofun⟩
  | unread path fault archive at_ loaded ends =>
      obtain ⟨after, same, rfl⟩ := ends
      rw [same]
      exact ⟨loadStop_ne_done fault, fun _ _ => rfl⟩
  | opened path p archive reached at_ loaded there does =>
      obtain ⟨said, same⟩ := does
      rw [same]
      have moving := run_carryOut setup g ⟨event, false, false⟩ path p there
      rw [Desk.run_moves] at moving
      rcases moved : Desk.proceed setup.now event ⟨p, archiveOn d path archive.checkers⟩ with
        ⟨fault | m, desk⟩
      · rw [moved] at moving
        obtain ⟨after, same, disk⟩ := moving
        rw [same]
        -- The move may have been made all the same, but then it was not stored.
        refine ⟨advanceReport_ne_done g fault, fun other also => ?_⟩
        obtain rfl : path = other := Except.ok.inj (at_.symm.trans also)
        rw [disk]
        exact proceed_error moved
      · rw [moved] at moving
        obtain ⟨told, disk, out, same⟩ := moving
        obtain ⟨source, tells⟩ := proceed_tells moved
        rw [same, run_showMove]
        refine ⟨path, p.state, m.target, at_, ?_, disk ▸ tells⟩
        simp only [out, said, announces, Bool.not_false, Bool.true_and]
        cases event <;> simp

/-- What `new` leaves on disk if it fails. -/
theorem new_stores (setup : Setup) (r : Request) (on : t.On d checkers) {stop : Stop}
    (failed : (new setup r t).1 = .error stop) :
    ∀ path, pathOn d = .ok path → Disk.textAt path (new setup r t).2.disk = Disk.textAt path d := by
  have ran := run_new setup r on
  intro path at_
  rw [at_] at ran
  simp only at ran
  rcases looked : lookOn d path with fault | _ | _
  · rw [looked] at ran
    obtain ⟨after, same, rfl⟩ := ran
    rw [same]
  · rw [looked] at ran
    simp only at ran
    rcases made : Project.create setup.registry setup.now r (archiveOn d path checkers) with
      ⟨fault | p, archive⟩
    · rw [made] at ran
      rw [Leads.disk ran]
      exact create_error made
    · rw [made] at ran
      obtain ⟨after, same, _⟩ := ran
      rw [same] at failed
      cases failed
  · rw [looked] at ran
    obtain ⟨text, after, same, rfl⟩ := ran
    rw [same]

theorem advance_looks (setup : Setup) (g : Grammar) {o : Order} (looks : (o.list || o.dryRun) = true)
    (on : t.On d checkers) : (advance setup g o t).2.disk = d := by
  refine (run_advance setup g o on).disk ?_
  rintro path p checkers reached there ⟨_, same⟩
  rw [same]
  have looking := run_carryOut setup g o path p there
  have quiet := Desk.run_looks setup.now looks ⟨p, archiveOn d path checkers⟩
  rcases ran : Desk.run setup.now o ⟨p, archiveOn d path checkers⟩ with ⟨fault | report, desk⟩
  · rw [ran] at looking quiet
    obtain rfl : desk = _ := quiet
    exact looking.disk
  · rw [ran] at looking quiet
    obtain rfl : desk = _ := quiet
    obtain ⟨told, disk, _, same⟩ := looking
    rw [same]
    have talks : Talks (fun _ => True) (showReport o p.state report) :=
      talks_showReport (fun _ => True.intro) o p.state report
    exact (talks.disk told).trans disk

theorem status_looks (setup : Setup) (asJson showPrompt : Bool) (on : t.On d checkers) :
    (status setup asJson showPrompt t).2.disk = d := by
  refine (run_status setup asJson showPrompt on).disk ?_
  intro _ p _ reached there same
  rw [same]
  have talks : Talks (fun _ => True) (view p asJson showPrompt) := talks_view fun _ => True.intro
  exact (talks.disk reached).trans there.disk

theorem validate_looks (setup : Setup) (on : t.On d checkers) : (validate setup t).2.disk = d := by
  refine (run_validate setup on).disk ?_
  intro path p checkers reached there same
  obtain ⟨checked, disk, judged⟩ := run_judge path p there
  rw [same, judged]
  have talks : Talks (fun _ => True) (conclude p (p.blueprint.findings p.document checkers).1) :=
    talks_conclude (fun _ => True.intro) p fun _ _ => True.intro
  exact (talks.disk checked).trans disk

end Command

/-- What a command leaves on disk: all as it was if it is not one to store anything, and the stored text
if it fails; and what it says of a move if it made one. -/
structure Remains (d : Disk) (said : List String) (call : Call) (result : Except Stop Unit)
    (after : Terminal) : Prop where
  looks : call.stores = false → after.disk = d
  fails : ∀ stop, result = .error stop → ∀ path, pathOn d = .ok path →
    Disk.textAt path after.disk = Disk.textAt path d
  moves : call.stores = true → call.entry.name = "advance" →
    (∀ stop, result = .error stop → stop ≠ .done) ∧
    (result = .ok () → ∃ path source target : String, pathOn d = .ok path ∧
      after.out = said ++ [s!"Current state: {source}", s!"Advanced to: {target}"] ∧
      FileStore.Tells path target (Disk.textAt path after.disk))

/-- A command that leaves the disk as it is. -/
theorem Remains.of_same {d : Disk} {said : List String} {call : Call} {result : Except Stop Unit}
    {after : Terminal} (looks : call.stores = false) (same : after.disk = d) :
    Remains d said call result after where
  looks _ := same
  fails _ _ path _ := by rw [same]
  moves stores := by
    rw [looks] at stores
    cases stores

theorem Call.run_remains (setup : Setup) {call : Call} (member : call.entry ∈ entries) {a : Arguments}
    (given : call.arguments? = some a) {t : Terminal} {d : Disk} {checkers : Checkers}
    (on : t.On d checkers) :
    Remains d t.out call (call.entry.run setup a t).1 (call.entry.run setup a t).2 := by
  obtain ⟨e, verbose, rest⟩ := call
  simp only [entries, List.mem_cons, List.not_mem_nil, or_false] at member
  rcases member with rfl | rfl | rfl | rfl
  · refine ⟨?_, fun stop failed => Command.new_stores setup (requestOf a) on failed, ?_⟩
    · intro looks
      simp [stores, given] at looks
    · intro _ same
      simp at same
  · by_cases looks : (a.has "list" || a.has "dryRun") = true
    · exact .of_same (by simp [stores, given, looks]) (Command.advance_looks setup _ looks on)
    · have earnest : orderOf a = ⟨a.positions.head?, false, false⟩ := by
        simp only [Bool.or_eq_true, not_or, Bool.not_eq_true] at looks
        rw [orderOf, looks.1, looks.2]
      have stored := Command.advance_stores setup advanceGrammar a.positions.head? on
      simp only [earnest]
      rcases ran : Command.advance setup advanceGrammar ⟨a.positions.head?, false, false⟩ t with
        ⟨stop | ⟨⟩, after⟩
      · rw [ran] at stored
        refine ⟨?_, fun _ _ => stored.2, fun _ _ => ⟨?_, nofun⟩⟩
        · intro none
          simp [stores, given, looks] at none
        · intro other same
          cases same
          exact stored.1
      · rw [ran] at stored
        refine ⟨?_, nofun, fun _ _ => ⟨nofun, fun _ => stored⟩⟩
        intro none
        simp [stores, given, looks] at none
  · exact .of_same (by simp [stores, given]) (Command.status_looks setup _ _ on)
  · exact .of_same (by simp [stores, given]) (Command.validate_looks setup on)

/-- A command line that only looks leaves the disk as it is; one that fails, however it does, leaves the
stored text as it is; and one that moves the project announces the target and leaves the text of a
document that notes it, or none if the target is the end of the lifecycle. -/
theorem run_keeps_stored (setup : Setup) (words : List String) (d : Disk) (checkers : Checkers) :
    let (outcome, after, _) := run setup words d checkers
    ((∀ call, called? words = some call → call.stores = false) → after = d) ∧
    (outcome.exit ≠ 0 → ∀ path, pathOn d = .ok path → Disk.textAt path after = Disk.textAt path d) ∧
    ∀ call, called? words = some call → call.stores = true → call.entry.name = "advance" →
      outcome.exit = 0 → ∃ path source target : String, pathOn d = .ok path ∧
        outcome.out = printed [s!"Current state: {source}", s!"Advanced to: {target}"] ∧
        FileStore.Tells path target (Disk.textAt path after) := by
  have course := dispatch_course setup words d checkers
  rw [run_eq]
  -- A course says all that matters of a run, so what the run was can be forgotten.
  generalize dispatch setup words (.fresh d checkers) = outcome at course ⊢
  cases course with
  | idle stop _ never _ disk =>
      refine ⟨fun _ => disk, fun _ path _ => by simp only [disk], fun call calls stores => ?_⟩
      rw [Call.stores, (never call calls).1] at stores
      cases stores
  | unlevelled call fault _ calls _ disk =>
      exact ⟨fun _ => disk, fun _ path _ => by simp only [disk],
        fun _ _ _ _ failed => absurd failed Nat.one_ne_zero⟩
  | performed call a level t calls _ given on silent =>
      have remains := Call.run_remains setup (called_entry calls) given on
      rcases ran : call.entry.run setup a t with ⟨result, after⟩
      rw [ran] at remains
      refine ⟨fun looks => remains.looks (looks call calls), fun failed => ?_, ?_⟩
      · cases result with
        | ok _ => exact absurd rfl failed
        | error stop => exact remains.fails stop rfl
      · intro other also stores named succeeded
        obtain rfl : call = other := Option.some.inj (calls.symm.trans also)
        obtain ⟨never, moved⟩ := remains.moves stores named
        cases result with
        | error stop => exact absurd ((Outcome.exit_ofStop _ _).mp succeeded) (never stop rfl)
        | ok _ =>
            obtain ⟨path, source, target, at_, out, tells⟩ := moved rfl
            rw [silent] at out
            exact ⟨path, source, target, at_, congrArg printed out, tells⟩

end Console

end Lifecycle
