import Lifecycle.Proofs.Console.Course
import Lifecycle.Proofs.Loading
/-!
What the commands come to, step by step: which step failed, what was done to the disk until then, and what
was said. -/

namespace Lifecycle.Console

namespace Command

variable {α β : Type} {kind : Stop → Prop}

/-- Whether a computation only says something, and ends early in one way if at all. -/
def Talks (kind : Stop → Prop) (work : Command α) : Prop :=
  ∀ t : Terminal, ∃ result out err, work t = (result, { t with out, err }) ∧
    ∀ stop, result = .error stop → kind stop

theorem talks_pure (a : α) : Talks kind (pure a : Command α) :=
  fun t => ⟨_, t.out, t.err, rfl, nofun⟩

theorem talks_say (line : String) : Talks kind (say line) :=
  fun t => ⟨_, t.out ++ [line], t.err, rfl, nofun⟩

theorem talks_complain (line : String) : Talks kind (complain line) :=
  fun t => ⟨_, t.out, t.err ++ [line], rfl, nofun⟩

theorem talks_throw {stop : Stop} (is : kind stop) : Talks kind (throw stop : Command α) := by
  refine fun t => ⟨.error stop, t.out, t.err, rfl, ?_⟩
  intro other same
  cases same
  exact is

theorem talks_orElseStop {stop : Fault → Stop} {e : Except Fault α}
    (is : ∀ fault, e = .error fault → kind (stop fault)) : Talks kind (orElseStop stop e) := by
  cases e with
  | ok a => exact talks_pure a
  | error fault => exact talks_throw (is fault rfl)

theorem talks_ite {p : Prop} [Decidable p] {work next : Command α} (first : Talks kind work)
    (second : Talks kind next) : Talks kind (if p then work else next) := by
  split
  · exact first
  · exact second

theorem Talks.bind {work : Command α} (first : Talks kind work) {next : α → Command β}
    (later : ∀ a, Talks kind (next a)) : Talks kind (work >>= next) := by
  intro t
  obtain ⟨result, out, err, same, ends⟩ := first t
  rw [run_bind, same]
  cases result with
  | error stop =>
      refine ⟨.error stop, out, err, rfl, ?_⟩
      intro other also
      cases also
      exact ends stop rfl
  | ok a => exact later a { t with out, err }

/-- What is said only if there is something to say, before the rest. -/
theorem talks_sayIf {p : Prop} [Decidable p] {line : String} {next : Unit → Command α}
    (later : ∀ u, Talks kind (next u)) :
    Talks kind (if p then say line >>= fun u => next u else next ()) :=
  talks_ite ((talks_say line).bind later) (later ())

theorem Talks.forM {work : α → Command PUnit} {list : List α}
    (each : ∀ a ∈ list, Talks kind (work a)) : Talks kind (list.forM work) := by
  induction list with
  | nil => exact talks_pure _
  | cons a rest ih =>
      exact (each a List.mem_cons_self).bind fun _ =>
        ih fun b member => each b (List.mem_cons_of_mem _ member)

/-- Talking leaves the disk alone. -/
theorem Talks.disk {work : Command α} (talks : Talks kind work) (t : Terminal) :
    (work t).2.disk = t.disk := by
  obtain ⟨result, out, err, same, _⟩ := talks t
  rw [same]

theorem talks_showDiscovery (o : Discovery) : Talks kind (showDiscovery o) := by
  refine (talks_say _).bind fun _ => (talks_say _).bind fun _ => ?_
  exact talks_sayIf fun _ => talks_sayIf fun _ => talks_say _

theorem talks_showDiscoveries (state : String) (list : List Discovery) :
    Talks kind (showDiscoveries state list) := by
  refine (talks_say _).bind fun _ => (talks_say _).bind fun _ => talks_ite ?_ ?_
  · exact (talks_say _).bind fun _ => talks_say _
  · refine (talks_say _).bind fun _ => (talks_say _).bind fun _ => ?_
    refine (Talks.forM fun o _ => talks_showDiscovery o).bind fun _ => ?_
    exact talks_ite (talks_say _) (talks_pure _)

theorem talks_showDryRun (failed : ∀ text, kind (.failed text)) (m : Move) :
    Talks kind (showDryRun m) := by
  refine (talks_say _).bind fun _ => (talks_say _).bind fun _ => ?_
  cases m.blockedReason with
  | some reason =>
      refine (talks_say _).bind fun _ => (talks_say _).bind fun _ => (talks_say _).bind fun _ => ?_
      refine (talks_say _).bind fun _ => (talks_say _).bind fun _ => (talks_say _).bind fun _ => ?_
      exact talks_throw (failed _)
  | none =>
      refine (talks_say _).bind fun _ => (talks_say _).bind fun _ => (talks_say _).bind fun _ => ?_
      exact talks_sayIf fun _ => (talks_say _).bind fun _ => talks_say _

theorem talks_showReport (failed : ∀ text, kind (.failed text)) (o : Order) (state : String)
    (report : Report) : Talks kind (showReport o state report) := by
  cases report with
  | discoveries list => exact talks_showDiscoveries state list
  | move m => exact talks_ite (talks_showDryRun failed m) (talks_sayIf fun _ => talks_say _)

/-- An explanation does not end a command. -/
theorem talks_explain (o : Order) (state : String) (fault : Fault) :
    Talks kind (explainUnconfigured o state fault) := by
  unfold explainUnconfigured
  split
  · refine talks_ite ?_ (talks_pure _)
    refine (talks_say _).bind fun _ => (talks_say _).bind fun _ => (talks_say _).bind fun _ => ?_
    exact (talks_say _).bind fun _ => talks_say _
  · exact talks_pure _

theorem talks_showOverview {o : Overview}
    (lines : ∀ p ∈ o.phases, ∀ fault, phaseLine p = .error fault → kind (.escaped fault)) :
    Talks kind (showOverview o) := by
  refine (talks_say _).bind fun _ => (talks_say _).bind fun _ => (talks_say _).bind fun _ => ?_
  refine (talks_say _).bind fun _ => (talks_say _).bind fun _ => (talks_say _).bind fun _ => ?_
  refine (Talks.forM fun p member => ?_).bind fun _ => (talks_say _).bind fun _ =>
    talks_ite (talks_say _) (talks_say _)
  exact (talks_orElseStop (lines p member)).bind fun _ => talks_say _

theorem talks_showFindings (failed : ∀ text, kind (.failed text)) (findings : List Finding) :
    Talks kind (showFindings findings) :=
  (Talks.forM fun _ _ => talks_complain _).bind fun _ => talks_throw (failed _)

/-- Whether a computation comes to a result, with the disk given. -/
def Leads (work : Command α) (t : Terminal) (result : Except Stop α) (d : Disk) : Prop :=
  ∃ after, work t = (result, after) ∧ after.disk = d

theorem Leads.disk {work : Command α} {t : Terminal} {result : Except Stop α} {d : Disk}
    (leads : Leads work t result d) : (work t).2.disk = d := by
  obtain ⟨after, same, disk⟩ := leads
  rw [same, disk]

theorem Leads.after {work : Command α} {t middle : Terminal} {a : α} (done : work t = (.ok a, middle))
    {next : α → Command β} {result : Except Stop β} {d : Disk} (rest : Leads (next a) middle result d) :
    Leads (work >>= next) t result d := by
  rw [Leads, run_bind_ok done]
  exact rest

theorem leads_stop {work : Command α} {t middle : Terminal} {stop : Stop}
    (stopped : work t = (.error stop, middle)) {d : Disk} (same : middle.disk = d)
    (next : α → Command β) : Leads (work >>= next) t (.error stop) d := by
  rw [Leads, run_bind, stopped]
  exact ⟨middle, rfl, same⟩

/-- What talks first and never ends early comes to what the rest does. -/
theorem Talks.leads {work : Command α} (talks : Talks (fun _ => False) work) {t : Terminal}
    {next : α → Command β} {result : Except Stop β} {d : Disk}
    (rest : ∀ a out err, Leads (next a) { t with out, err } result d) :
    Leads (work >>= next) t result d := by
  obtain ⟨ended, out, err, same, never⟩ := talks t
  cases ended with
  | error stop => exact (never stop rfl).elim
  | ok a => exact .after same (rest a out err)

theorem leads_showFindings (findings : List Finding) (t : Terminal) :
    Leads (showFindings findings) t
      (.error (.failed s!"Project is invalid ({findings.length} problem(s)).")) t.disk :=
  (Talks.forM fun _ _ => talks_complain _).leads fun _ _ _ => ⟨_, rfl, rfl⟩

end Command

/-- What is kept under a path of a disk. -/
def archiveOn (d : Disk) (path : String) (checkers : Checkers) : Archive (FileStore Disk) :=
  ⟨⟨d, path⟩, checkers⟩

/-- Whether something is stored under a path of a disk, as far as that can be told. -/
def lookOn (d : Disk) (path : String) : Except Fault Bool := (FileStore.holds ⟨d, path⟩).1

/-- Loading from a disk leaves it as it is. -/
theorem load_on (registry : Registry) (now : Timestamp) (d : Disk) (path : String)
    (checkers : Checkers) :
    (Project.load registry now (archiveOn d path checkers)).2.store = ⟨d, path⟩ := by
  rw [Project.load_store]
  show (FileStore.load now ⟨d, path⟩).2 = _
  rw [FileStore.run_load]
  exact congrArg (fun files => (⟨files, path⟩ : FileStore Disk)) (Disk.read_quiet path d)

/-- How a command ends that cannot load the project. -/
def loadStop : Fault → Stop
  | .noState _ => .failed Command.noProjectText
  | fault => Command.reported fault

/-- How `validate` ends that cannot load the project: it shows what is wrong with one that is there. -/
def judgeStop : Fault → Stop
  | .invalidProject _ findings => .failed s!"Project is invalid ({findings.length} problem(s))."
  | fault => loadStop fault

namespace Command

variable {t : Terminal} {d : Disk} {checkers : Checkers} {path : String}

/-- What is done on the archive stays done. -/
theorem run_onArchive {α : Type} (work : Attempt (Archive (FileStore Disk)) α)
    (on : t.On d checkers) {result : Except Fault α} {archive : Archive (FileStore Disk)}
    (done : work (archiveOn d path checkers) = (result, archive)) :
    onArchive path work t =
      (.ok result, { t with disk := archive.store.files, checkers := archive.checkers }) := by
  obtain ⟨rfl, rfl, _⟩ := on
  rw [onArchive, show work ⟨⟨t.disk, path⟩, t.checkers⟩ = (result, archive) from done]

theorem run_look (path : String) (on : t.On d checkers) :
    onArchive path (Archive.onStore Backend.holds) t = (.ok (lookOn d path), t) := by
  have quiet := (Disk.holds_outcome path d).1
  have looked : Archive.onStore Backend.holds (archiveOn d path checkers) =
      (lookOn d path, archiveOn d path checkers) := by
    rw [Archive.onStore, Attempt.run_focus, archiveOn]
    show ((FileStore.holds ⟨d, path⟩).1, Archive.mk (FileStore.holds ⟨d, path⟩).2 checkers) = _
    have same : (FileStore.holds ⟨d, path⟩).2 = (⟨d, path⟩ : FileStore Disk) := by
      rw [FileStore.holds, Attempt.run_bind_ok (Attempt.run_get _), Attempt.run_rethrow]
      exact congrArg (fun files => (⟨files, path⟩ : FileStore Disk)) quiet
    rw [same]
    rfl
  rw [run_onArchive _ on looked]
  obtain ⟨rfl, rfl, _⟩ := on
  rfl

/-- All that comes of a command that works on the stored project. It ends where the settings give no path, it
reports in its own way that the project cannot be loaded, or it goes on with the project from a terminal that
is on the same disk. -/
inductive Opens {α : Type} (setup : Setup) (report : Fault → Stop) (work : Command α) (t : Terminal)
    (d : Disk) (checkers : Checkers) (goes : String → Project → Terminal → Prop) : Prop where
  | astray (fault : Fault) (at_ : pathOn d = .error fault)
      (ends : Leads work t (.error (.escaped fault)) d)
  | unread (path : String) (fault : Fault) (archive : Archive (FileStore Disk)) (at_ : pathOn d = .ok path)
      (loaded : Project.load setup.registry setup.now (archiveOn d path checkers) = (.error fault, archive))
      (ends : Leads work t (.error (report fault)) d)
  | opened (path : String) (p : Project) (archive : Archive (FileStore Disk)) (reached : Terminal)
      (at_ : pathOn d = .ok path)
      (loaded : Project.load setup.registry setup.now (archiveOn d path checkers) = (.ok p, archive))
      (on : reached.On d archive.checkers) (does : goes path p reached)

section

variable {α β : Type} {setup : Setup} {report : Fault → Stop}
  {goes later : String → Project → Terminal → Prop}

theorem Opens.after {work : Command β} {middle : Terminal} {b : β} (done : work t = (.ok b, middle))
    {next : β → Command α} (opens : Opens setup report (next b) middle d checkers goes) :
    Opens setup report (work >>= next) t d checkers goes := by
  cases opens with
  | astray fault at_ ends => exact .astray fault at_ (.after done ends)
  | unread path fault archive at_ loaded ends =>
      exact .unread path fault archive at_ loaded (.after done ends)
  | opened path p archive reached at_ loaded on does =>
      exact .opened path p archive reached at_ loaded on does

theorem Opens.bind {work : Command α} (opens : Opens setup report work t d checkers goes)
    {next : α → Command β}
    (rest : ∀ path p checkers reached, pathOn d = .ok path → reached.On d checkers →
      goes path p reached → ∃ gone : Terminal, gone.On d checkers ∧ later path p gone) :
    Opens setup report (work >>= next) t d checkers later := by
  cases opens with
  | astray fault at_ ends =>
      obtain ⟨after, stopped, same⟩ := ends
      exact .astray fault at_ (leads_stop stopped same next)
  | unread path fault archive at_ loaded ends =>
      obtain ⟨after, stopped, same⟩ := ends
      exact .unread path fault archive at_ loaded (leads_stop stopped same next)
  | opened path p archive reached at_ loaded on does =>
      obtain ⟨gone, still, does⟩ := rest path p archive.checkers reached at_ on does
      exact .opened path p archive gone at_ loaded still does

theorem Opens.mono {work : Command α} (opens : Opens setup report work t d checkers goes)
    (more : ∀ path p reached, goes path p reached → later path p reached) :
    Opens setup report work t d checkers later := by
  cases opens with
  | astray fault at_ ends => exact .astray fault at_ ends
  | unread path fault archive at_ loaded ends => exact .unread path fault archive at_ loaded ends
  | opened path p archive reached at_ loaded on does =>
      exact .opened path p archive reached at_ loaded on (more path p reached does)

/-- The disk stays as it is if going on with the project leaves it so. -/
theorem Opens.disk {work : Command α} (opens : Opens setup report work t d checkers goes)
    (rest : ∀ path p checkers reached, reached.On d checkers → goes path p reached →
      (work t).2.disk = d) : (work t).2.disk = d := by
  cases opens with
  | astray fault at_ ends => exact ends.disk
  | unread path fault archive at_ loaded ends => exact ends.disk
  | opened path p archive reached at_ loaded on does =>
      exact rest path p archive.checkers reached on does

/-- What asks for the path and tries to load what is there opens the stored project. -/
theorem opens_stored {next : String → Except Fault Project → Command α} (on : t.On d checkers)
    (lost : ∀ path fault t, Leads (next path (.error fault)) t (.error (report fault)) t.disk) :
    Opens setup report
      (statePath >>= fun path => onArchive path (Project.load setup.registry setup.now) >>= next path)
      t d checkers fun path p reached => reached.out = t.out ∧
        (statePath >>= fun path => onArchive path (Project.load setup.registry setup.now) >>= next path) t =
          next path (.ok p) reached := by
  obtain ⟨asked, done, there, said⟩ := run_statePath on
  cases at_ : pathOn d with
  | error fault =>
      rw [at_] at done
      exact .astray fault at_ (leads_stop done there.disk _)
  | ok path =>
      rw [at_] at done
      have store := load_on setup.registry setup.now d path checkers
      rcases loaded : Project.load setup.registry setup.now (archiveOn d path checkers) with
        ⟨fault | p, archive⟩
      · rw [loaded] at store
        have same : archive.store.files = d := congrArg FileStore.files store
        refine .unread path fault archive at_ loaded (.after done ?_)
        refine .after (run_onArchive _ there loaded) ?_
        have ends := lost path fault
          { asked with disk := archive.store.files, checkers := archive.checkers }
        rw [same] at ends ⊢
        exact ends
      · rw [loaded] at store
        refine .opened path p archive
          { asked with disk := archive.store.files, checkers := archive.checkers } at_ loaded
          ⟨congrArg FileStore.files store, rfl, there.current⟩ ⟨said, ?_⟩
        rw [run_bind_ok done, run_bind_ok (run_onArchive _ there loaded)]

/-- A project is loaded from the disk as it is. -/
theorem run_loadProject (setup : Setup) (on : t.On d checkers) :
    Opens setup loadStop (loadProject setup reported) t d checkers fun _ p reached =>
      reached.out = t.out ∧ loadProject setup reported t = (.ok p, reached) := by
  rw [loadProject]
  refine opens_stored on ?_
  intro _ fault reached
  cases fault <;> exact ⟨reached, rfl, rfl⟩

end

theorem run_new (setup : Setup) (r : Request) (on : t.On d checkers) :
    match pathOn d with
    | .error fault => Leads (new setup r) t (.error (.escaped fault)) d
    | .ok path =>
      match lookOn d path with
      | .error fault => Leads (new setup r) t (.error (.escaped fault)) d
      | .ok true => ∃ text, Leads (new setup r) t (.error (.failed text)) d
      | .ok false =>
        match Project.create setup.registry setup.now r (archiveOn d path checkers) with
        | (.error fault, archive) =>
          Leads (new setup r) t (.error (newReport fault)) archive.store.files
        | (.ok _, archive) => Leads (new setup r) t (.ok ()) archive.store.files := by
  obtain ⟨asked, done, there, _⟩ := run_statePath on
  rw [new]
  cases at_ : pathOn d with
  | error fault =>
      rw [at_] at done
      exact leads_stop done there.disk _
  | ok path =>
      rw [at_] at done
      have looked := run_look path there
      simp only
      rcases seen : lookOn d path with fault | _ | _
      · rw [seen] at looked
        exact .after done (.after looked (leads_stop rfl there.disk _))
      · rw [seen] at looked
        simp only
        rcases created : Project.create setup.registry setup.now r (archiveOn d path checkers) with
          ⟨fault | p, archive⟩
        · have tried := run_onArchive _ there created
          exact .after done (.after looked (.after rfl (.after tried (leads_stop rfl rfl _))))
        · have tried := run_onArchive _ there created
          exact .after done (.after looked (.after rfl (.after tried (.after rfl ⟨_, rfl, rfl⟩))))
      · rw [seen] at looked
        exact ⟨_, .after done (.after looked (.after rfl ⟨_, rfl, there.disk⟩))⟩

theorem run_onDesk {α : Type} (work : Attempt (Desk (FileStore Disk)) α) (p : Project)
    (on : t.On d checkers) {result : Except Fault α} {desk : Desk (FileStore Disk)}
    (done : work ⟨p, archiveOn d path checkers⟩ = (result, desk)) :
    onDesk path p work t =
      (.ok (result, desk.project),
        { t with disk := desk.archive.store.files, checkers := desk.archive.checkers }) := by
  obtain ⟨rfl, rfl, _⟩ := on
  rw [onDesk, show work ⟨p, ⟨⟨t.disk, path⟩, t.checkers⟩⟩ = (result, desk) from done]

theorem run_sayIf (c : Bool) (line : String) (next : Unit → Command α) (t : Terminal) :
    (if c then say line >>= fun u => next u else next ()) t =
      next () { t with out := t.out ++ (if c then [line] else []) } := by
  cases c with
  | true => rfl
  | false =>
      simp only [Bool.false_eq_true, if_false, List.append_nil]

/-- Whether an order is said to be carried out in a state before that is tried. -/
def announces (o : Order) : Bool := !o.list && !o.dryRun && o.event.isSome

/-- What is left of `advance` once the project is loaded and the order is announced. -/
def carryOut (setup : Setup) (g : Grammar) (o : Order) (path : String) (p : Project) : Command Unit := do
  let (outcome, _) ← onDesk path p (Desk.run setup.now o)
  match outcome with
  | .ok report => showReport o p.state report
  | .error fault =>
    explainUnconfigured o p.state fault
    throw (advanceReport g fault)

theorem run_carryOut (setup : Setup) (g : Grammar) (o : Order) (path : String) (p : Project)
    (on : t.On d checkers) :
    match Desk.run setup.now o ⟨p, archiveOn d path checkers⟩ with
    | (.error fault, desk) =>
      Leads (carryOut setup g o path p) t (.error (advanceReport g fault)) desk.archive.store.files
    | (.ok report, desk) =>
      ∃ opened : Terminal, opened.disk = desk.archive.store.files ∧ opened.out = t.out ∧
        carryOut setup g o path p t = showReport o p.state report opened := by
  rcases ran : Desk.run setup.now o ⟨p, archiveOn d path checkers⟩ with ⟨fault | report, desk⟩
  · exact .after (run_onDesk _ p on ran) ((talks_explain o p.state fault).leads fun _ _ _ => ⟨_, rfl, rfl⟩)
  · exact ⟨{ t with disk := desk.archive.store.files, checkers := desk.archive.checkers }, rfl, rfl,
      run_bind_ok (run_onDesk _ p on ran) _⟩

theorem run_advance (setup : Setup) (g : Grammar) (o : Order) (on : t.On d checkers) :
    Opens setup loadStop (advance setup g o) t d checkers fun path p reached =>
      reached.out = t.out ++ (if announces o then [s!"Current state: {p.state}"] else []) ∧
        advance setup g o t = carryOut setup g o path p reached := by
  obtain ⟨asked, done, there, said⟩ := run_statePath on
  rw [advance]
  cases at_ : pathOn d with
  | error fault =>
      rw [at_] at done
      exact .astray fault at_ (leads_stop done there.disk _)
  | ok path =>
      rw [at_] at done
      refine .after done ((run_loadProject setup there).bind ?_)
      rintro other p checkers reached also still ⟨silent, ready⟩
      obtain rfl : path = other := Except.ok.inj (at_.symm.trans also)
      have told := run_sayIf (announces o) s!"Current state: {p.state}"
        (fun _ => carryOut setup g o path p) reached
      refine ⟨{ reached with out := reached.out ++
          (if announces o then [s!"Current state: {p.state}"] else []) },
        ⟨still.disk, still.checkers, still.current⟩, ?_,
        (run_bind_ok done _).trans ((run_bind_ok ready _).trans told)⟩
      simp only [silent, said]

/-- What is left of `status` once the project is loaded. -/
def view (p : Project) (asJson showPrompt : Bool) : Command Unit := do
  let o ← orElseStop .escaped p.overview
  if asJson then say (Json.print (.indented 2) o.toValue)
  else if showPrompt then say (← orElseStop .escaped (p.machine.prompt p.document))
  else showOverview o

theorem talks_view {kind : Stop → Prop} {p : Project} {asJson showPrompt : Bool}
    (escapes : ∀ fault, kind (.escaped fault)) : Talks kind (view p asJson showPrompt) := by
  refine (talks_orElseStop fun fault _ => escapes fault).bind fun o => talks_ite (talks_say _) ?_
  refine talks_ite ?_ (talks_showOverview fun _ _ fault _ => escapes fault)
  exact (talks_orElseStop fun fault _ => escapes fault).bind fun _ => talks_say _

theorem run_status (setup : Setup) (asJson showPrompt : Bool) (on : t.On d checkers) :
    Opens setup loadStop (status setup asJson showPrompt) t d checkers fun _ p reached =>
      status setup asJson showPrompt t = view p asJson showPrompt reached := by
  rw [status]
  refine (run_loadProject setup on).bind ?_
  rintro _ p _ reached _ still ⟨_, ready⟩
  exact ⟨reached, still, run_bind_ok ready _⟩

/-- What is left of `validate` once it was tried to load the project. -/
def judge (path : String) : Except Fault Project → Command Unit
  | .ok p => do
    let checking := Archive.onCheckers (p.blueprint.findings p.document)
    let findings ← orElseStop .escaped (← onArchive path checking)
    if findings.isEmpty then say s!"Project '{p.document.name.display}' is valid."
    else showFindings findings
  | .error (.invalidProject _ findings) => showFindings findings
  | .error (.noState _) => throw (.failed noProjectText)
  | .error fault => throw (reported fault)

/-- What is said of a loaded project once it was checked. -/
def conclude (p : Project) (checked : Except Fault (List Finding)) : Command Unit := do
  let findings ← orElseStop .escaped checked
  if findings.isEmpty then say s!"Project '{p.document.name.display}' is valid."
  else showFindings findings

theorem talks_conclude {kind : Stop → Prop} (failed : ∀ text, kind (.failed text)) (p : Project)
    {checked : Except Fault (List Finding)}
    (escapes : ∀ fault, checked = .error fault → kind (.escaped fault)) :
    Talks kind (conclude p checked) :=
  (talks_orElseStop escapes).bind fun findings =>
    talks_ite (talks_say _) (talks_showFindings failed findings)

theorem run_judge (path : String) (p : Project) (on : t.On d checkers) :
    ∃ checked : Terminal, checked.disk = d ∧
      judge path (.ok p) t = conclude p (p.blueprint.findings p.document checkers).1 checked := by
  have checking : Archive.onCheckers (p.blueprint.findings p.document) (archiveOn d path checkers) =
      ((p.blueprint.findings p.document checkers).1,
        archiveOn d path (p.blueprint.findings p.document checkers).2) := rfl
  exact ⟨_, rfl, run_bind_ok (run_onArchive _ on checking) _⟩

theorem run_validate (setup : Setup) (on : t.On d checkers) :
    Opens setup judgeStop (validate setup) t d checkers fun path p reached =>
      validate setup t = judge path (.ok p) reached := by
  have lost (path : String) (fault : Fault) (t : Terminal) :
      Leads (judge path (.error fault)) t (.error (judgeStop fault)) t.disk := by
    cases fault with
    | invalidProject _ findings => exact leads_showFindings findings t
    | _ => exact ⟨t, rfl, rfl⟩
  have same : validate setup = statePath >>= fun path =>
      onArchive path (Project.load setup.registry setup.now) >>= judge path := rfl
  rw [same]
  exact (opens_stored on lost).mono fun _ _ _ judged => judged.2

end Command

end Lifecycle.Console
