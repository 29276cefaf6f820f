import Lifecycle.Proofs.Console.Commands
import Lifecycle.Proofs.Refused
/-!
Failures that no command reports. Each goes back to settings that cannot be used, to a path that leads
nowhere or is beyond what can be read or written, to what a type brings in, or to a new project that breaks
the rules for documents. -/

namespace Lifecycle

theorem mapM_gives {ε α β : Type} {f : α → Except ε β} {good : β → Prop} {list : List α}
    (each : ∀ a ∈ list, ∃ b, f a = .ok b ∧ good b) :
    ∃ made, list.mapM f = .ok made ∧ ∀ b ∈ made, good b := by
  induction list with
  | nil => exact ⟨[], rfl, nofun⟩
  | cons a rest ih =>
      obtain ⟨b, first, goodFirst⟩ := each a List.mem_cons_self
      obtain ⟨made, others, all⟩ := ih fun c member => each c (List.mem_cons_of_mem _ member)
      refine ⟨b :: made, ?_, List.forall_mem_cons.mpr ⟨goodFirst, all⟩⟩
      rw [List.mapM_cons, first, others]
      rfl

variable {condition : Condition}

theorem Slot.filter_typed {α : Type} {property : α → Prop} (part : String) (test : α → Bool)
    {list : List (Slot α)} (typed : ∀ s ∈ list, s.Holds property) :
    ∃ kept, Slot.filter part (fun a => .ok (test a)) list = .ok kept := by
  induction list with
  | nil => exact ⟨[], rfl⟩
  | cons s rest ih =>
      obtain ⟨a, rfl, _⟩ := (typed s List.mem_cons_self).elim
      obtain ⟨others, done⟩ := ih fun s member => typed s (List.mem_cons_of_mem _ member)
      rw [Slot.filter, done]
      exact ⟨_, rfl⟩

/-- A typed phase can be looked at, and its line can be written. -/
theorem Phase.overview_typed {p : Phase} (typed : p.Typed condition) (name : String) :
    ∃ o, p.overview name = .ok o ∧ ∃ line, Console.Command.phaseLine o = .ok line := by
  obtain ⟨ins, inputs, _⟩ := Slot.Holds.elim typed.inputs
  obtain ⟨outs, outputs, _⟩ := Slot.Holds.elim typed.outputs
  obtain ⟨slots, tasks, all⟩ := Slot.Holds.elim typed.tasks
  obtain ⟨iteration, counted, _⟩ := typed.iteration.elim
  obtain ⟨ended, filtered⟩ := Slot.filter_typed "is_terminal" Task.isOver all
  have made : p.overview name =
      .ok ⟨name, p.status, .proper iteration, ins.length, outs.length, slots.length, ended.length⟩ := by
    rw [Phase.overview, inputs, outputs, tasks, counted]
    simp only [Many.size, Many.elements, bind, Except.bind, filtered]
    rfl
  exact ⟨_, made, _, rfl⟩

theorem Document.phaseOverviews_typed {d : Document} (typed : d.Typed condition) :
    ∃ list, d.phaseOverviews = .ok list ∧
      ∀ o ∈ list, ∃ line, Console.Command.phaseLine o = .ok line := by
  obtain ⟨phases, given, _, all⟩ := typed.phases.elim
  have each (entry : String × Slot Phase)
      (member : entry ∈ phases.map fun entry => (entry.1, Slot.proper entry.2)) :
      ∃ o, (do (← entry.2.having "status").overview entry.1) = .ok o ∧
        ∃ line, Console.Command.phaseLine o = .ok line := by
    obtain ⟨entry, inside, rfl⟩ := List.mem_map.mp member
    exact Phase.overview_typed (all entry inside) entry.1
  rw [phaseOverviews, given]
  exact mapM_gives each

/-- A typed project can be looked at unless a guard fails. -/
theorem Project.overview_typed {p : Project} (typed : p.document.Typed condition) :
    ∃ list, (∀ o ∈ list, ∃ line, Console.Command.phaseLine o = .ok line) ∧
      p.overview = (p.machine.permittedEvents p.document).map fun permitted =>
        ⟨p.document.name, p.document.type, p.document.branch, p.document.description,
          .proper p.state, list, permitted⟩ := by
  obtain ⟨list, seen, lines⟩ := Document.phaseOverviews_typed typed
  refine ⟨list, lines, ?_⟩
  rw [overview]
  simp only [bind, Except.bind, seen]
  cases p.machine.permittedEvents p.document <;> rfl

namespace Console

/-- Whether the settings on a disk are beyond what can be read, or no map. -/
def Unsettled (d : Disk) (fault : Fault) : Prop :=
  ∃ text, settingsOn d = some text ∧
    ((∃ which, Json.parse text = .error (.excess which) ∧ fault = .ofExcess which) ∨
      ∃ v, Json.parse text = .ok v ∧ (∀ entries, v ≠ .map entries) ∧
        fault = .noAttribute "settings are no map of names to values")

/-- Only settings that cannot be read as a map keep a setting, or its default, from being found. -/
theorem inFile_error {d : Disk} {key default : String} {fault : Fault} :
    Settings.inFile (settingsOn d) key default = .error fault ↔ Unsettled d fault :=
  Settings.inFile_eq_error

theorem pathOn_error {d : Disk} {fault : Fault} : pathOn d = .error fault ↔ Unsettled d fault := by
  rw [← inFile_error, pathOn]
  cases Settings.inFile (settingsOn d) "state_path" FileStore.defaultPath with
  | error cause => exact Iff.rfl
  | ok path => constructor <;> intro same <;> cases same

/-- Whether the settings on a disk give no level of logging. -/
def Unlevelled (d : Disk) (fault : Fault) : Prop :=
  Unsettled d fault ∨ ∃ name, Settings.inFile (settingsOn d) "log_level" "WARNING" = .ok name ∧
    Settings.levelOf (Text.upper name) = .error fault

theorem levelFor_error {verbose : Bool} {d : Disk} {fault : Fault} :
    levelFor verbose d = .error fault ↔ verbose = false ∧ Unlevelled d fault := by
  rw [levelFor]
  cases verbose with
  | true => simp
  | false =>
      rw [if_neg Bool.false_ne_true, Unlevelled, ← inFile_error, levelOn]
      cases Settings.inFile (settingsOn d) "log_level" "WARNING" with
      | error cause => simp [bind, Except.bind]
      | ok name => simp [bind, Except.bind]

namespace Command

/-- Whether a computation ends in a failure that it does not report. -/
def Escapes {α : Type} (work : Command α) (t : Terminal) (fault : Fault) : Prop :=
  (work t).1 = .error (.escaped fault)

variable {α : Type} {work : Command α} {t : Terminal} {d : Disk} {checkers : Checkers} {fault : Fault}

theorem Leads.escapes {result : Except Stop α} (leads : Leads work t result d) :
    Escapes work t fault ↔ result = .error (.escaped fault) := by
  obtain ⟨after, same, _⟩ := leads
  rw [Escapes, same]

theorem reported_escapes {cause : Fault} :
    reported cause = .escaped fault ↔ cause = fault ∧ ¬fault.Owned := by
  rw [reported]
  split
  · next own =>
      refine ⟨nofun, ?_⟩
      rintro ⟨rfl, disowned⟩
      exact absurd own disowned
  · next own =>
      constructor
      · rintro same
        cases same
        exact ⟨rfl, own⟩
      · rintro ⟨rfl, _⟩
        rfl

/-- A failure that is reported in a way of its own is one of this library's. -/
theorem failed_escapes {cause : Fault} (own : cause.Owned) {stop : Stop}
    (told : stop.isReported = true) : stop = .escaped fault ↔ cause = fault ∧ ¬fault.Owned := by
  constructor
  · rintro rfl
    cases told
  · rintro ⟨rfl, disowned⟩
    exact absurd own disowned

theorem newReport_escapes {cause : Fault} :
    newReport cause = .escaped fault ↔ cause = fault ∧ ¬fault.Owned := by
  rw [newReport]
  split
  · next known => exact failed_escapes (by simp [Fault.Owned, Fault.isOwn, known]) rfl
  · split
    · next valid => exact failed_escapes (by simp [Fault.Owned, Fault.isOwn, valid]) rfl
    · exact reported_escapes

theorem loadStop_escapes {cause : Fault} :
    loadStop cause = .escaped fault ↔ cause = fault ∧ ¬fault.Owned := by
  rw [loadStop.eq_def]
  split
  · exact failed_escapes rfl rfl
  · exact reported_escapes

theorem judgeStop_escapes {cause : Fault} :
    judgeStop cause = .escaped fault ↔ cause = fault ∧ ¬fault.Owned := by
  rw [judgeStop.eq_def]
  split
  · exact failed_escapes rfl rfl
  · exact loadStop_escapes

theorem advanceReport_escapes {g : Grammar} {cause : Fault} :
    advanceReport g cause = .escaped fault ↔ cause = fault ∧ ¬fault.Owned := by
  rw [advanceReport.eq_def]
  split
  iterate 5 exact failed_escapes rfl rfl
  exact reported_escapes

/-- What `new` does not report: settings that cannot be used, a look at the path that fails, and what goes
wrong with a new project otherwise than this library does. -/
theorem new_escapes (setup : Setup) (r : Request) (on : t.On d checkers) :
    Escapes (new setup r) t fault ↔
      Unsettled d fault ∨ ∃ path, pathOn d = .ok path ∧ (lookOn d path = .error fault ∨
        lookOn d path = .ok false ∧
          (Project.create setup.registry setup.now r (archiveOn d path checkers)).1 = .error fault ∧
          ¬fault.Owned) := by
  have ran := run_new setup r on
  cases at_ : pathOn d with
  | error cause =>
      rw [at_] at ran
      rw [ran.escapes, ← pathOn_error, at_]
      simp
  | ok path =>
      have settled : ¬Unsettled d fault := by
        rw [← pathOn_error, at_]
        nofun
      rw [at_] at ran
      simp only [settled, false_or, Except.ok.injEq, exists_eq_left']
      simp only at ran
      rcases seen : lookOn d path with cause | _ | _
      · rw [seen] at ran
        rw [ran.escapes]
        simp
      · rw [seen] at ran
        simp only at ran
        rcases made : Project.create setup.registry setup.now r (archiveOn d path checkers) with
          ⟨cause | p, archive⟩
        · rw [made] at ran
          rw [ran.escapes, Except.error.injEq, newReport_escapes]
          simp
        · rw [made] at ran
          rw [ran.escapes]
          simp
      · rw [seen] at ran
        obtain ⟨text, ran⟩ := ran
        rw [ran.escapes]
        simp

/-- What a command does not report that works on the stored project: settings that cannot be used, a
project that cannot be loaded, or what goes wrong with the one that was loaded. -/
theorem Opens.escapes {setup : Setup} (proper : setup.now.Proper) {report : Fault → Stop}
    {work : Command Unit} {goes : String → Project → Terminal → Prop}
    (opens : Opens setup report work t d checkers goes)
    (told : ∀ cause, report cause = .escaped fault ↔ cause = fault ∧ ¬fault.Owned)
    {later : String → Project → Archive (FileStore Disk) → Prop}
    (rest : ∀ path p archive reached,
      Project.load setup.registry setup.now (archiveOn d path checkers) = (.ok p, archive) →
      reached.On d archive.checkers → goes path p reached →
      (Escapes work t fault ↔ later path p archive)) :
    Escapes work t fault ↔ Unsettled d fault ∨ ∃ path, pathOn d = .ok path ∧
      (d.Unloadable path fault ∨ ∃ p archive,
        Project.load setup.registry setup.now (archiveOn d path checkers) = (.ok p, archive) ∧
          later path p archive) := by
  have loading (path : String) : d.Unloadable path fault ↔
      (Project.load setup.registry setup.now (archiveOn d path checkers)).1 = .error fault ∧
        ¬fault.Owned :=
    (Project.load_disowned setup.registry proper d path checkers fault).symm
  have settled {path : String} (at_ : pathOn d = .ok path) : ¬Unsettled d fault := by
    rw [← pathOn_error, at_]
    nofun
  cases opens with
  | astray cause at_ ends =>
      rw [ends.escapes, ← pathOn_error, at_]
      simp
  | unread path cause archive at_ loaded ends =>
      rw [ends.escapes, Except.error.injEq, told]
      simp only [at_, settled at_, false_or, Except.ok.injEq, exists_eq_left', loading, loaded]
      constructor
      · rintro ⟨rfl, disowned⟩
        exact .inl ⟨rfl, disowned⟩
      · rintro (⟨same, disowned⟩ | ⟨_, _, same, _⟩)
        · exact ⟨Except.error.inj same, disowned⟩
        · cases same
  | opened path p archive reached at_ loaded on does =>
      rw [rest path p archive reached loaded on does]
      simp only [at_, settled at_, false_or, Except.ok.injEq, exists_eq_left', loading, loaded]
      constructor
      · exact fun happens => .inr ⟨p, archive, rfl, happens⟩
      · rintro (⟨same, _⟩ | ⟨_, _, same, happens⟩)
        · cases same
        · cases same
          exact happens

/-- What only says something and reports all that ends it leaves nothing unreported. -/
theorem Talks.reports {α : Type} {work : Command α} (talks : Talks (·.isReported = true) work) :
    ¬Escapes work t fault := by
  obtain ⟨result, out, err, same, reports⟩ := talks t
  rw [Escapes, same]
  rintro rfl
  cases reports _ rfl

theorem advance_escapes (setup : Setup) (proper : setup.now.Proper) (g : Grammar) (o : Order)
    (on : t.On d checkers) :
    Escapes (advance setup g o) t fault ↔
      Unsettled d fault ∨ ∃ path, pathOn d = .ok path ∧ (d.Unloadable path fault ∨ ∃ p archive,
        Project.load setup.registry setup.now (archiveOn d path checkers) = (.ok p, archive) ∧
          (Desk.run setup.now o ⟨p, archiveOn d path archive.checkers⟩).1 = .error fault ∧
            ¬fault.Owned) := by
  refine (run_advance setup g o on).escapes proper (fun _ => loadStop_escapes) ?_
  rintro path p archive reached _ still ⟨_, same⟩
  have carried := run_carryOut setup g o path p still
  rw [Escapes, same]
  rcases ordered : Desk.run setup.now o ⟨p, archiveOn d path archive.checkers⟩ with
    ⟨cause | report, desk⟩
  · rw [ordered] at carried
    have done : Escapes (carryOut setup g o path p) reached fault ↔ _ := carried.escapes
    rw [Escapes] at done
    rw [done, Except.error.injEq, Except.error.injEq, advanceReport_escapes]
  · rw [ordered] at carried
    obtain ⟨showing, _, _, shown⟩ := carried
    rw [shown]
    have talks : Talks (·.isReported = true) (showReport o p.state report) :=
      talks_showReport (fun _ => rfl) o p.state report
    exact iff_of_false talks.reports nofun

/-- What `status` does not report of a loaded project: a guard that fails, or the prompt if that is what
is to be shown. -/
theorem view_escapes {p : Project} {condition : Condition} (typed : p.document.Typed condition)
    (asJson showPrompt : Bool) :
    Escapes (view p asJson showPrompt) t fault ↔
      p.machine.permittedEvents p.document = .error fault ∨
        asJson = false ∧ showPrompt = true ∧
          (∃ permitted, p.machine.permittedEvents p.document = .ok permitted) ∧
          p.machine.prompt p.document = .error fault := by
  obtain ⟨list, lines, seen⟩ := Project.overview_typed typed
  rw [view, seen, Escapes]
  cases p.machine.permittedEvents p.document with
  | error cause =>
      rw [Except.map, run_bind]
      simp [orElseStop]
  | ok permitted =>
      rw [Except.map, run_bind_ok (run_orElseStop _ _ _)]
      simp only [reduceCtorEq, false_or, Except.ok.injEq, exists_eq', true_and]
      cases asJson with
      | true => simp [say]
      | false =>
          cases showPrompt with
          | true =>
              simp only [Bool.false_eq_true, if_false, if_true, true_and]
              rw [run_bind, run_orElseStop]
              cases p.machine.prompt p.document <;> simp [say, Except.mapError]
          | false =>
              have talks : Talks (·.isReported = true) (showOverview ⟨p.document.name, p.document.type,
                  p.document.branch, p.document.description, .proper p.state, list, permitted⟩) := by
                apply talks_showOverview
                intro o member cause failed
                obtain ⟨line, done⟩ := lines o member
                rw [done] at failed
                cases failed
              exact iff_of_false talks.reports (by simp)

theorem status_escapes (setup : Setup) (proper : setup.now.Proper) (asJson showPrompt : Bool)
    (on : t.On d checkers) :
    Escapes (status setup asJson showPrompt) t fault ↔
      Unsettled d fault ∨ ∃ path, pathOn d = .ok path ∧ (d.Unloadable path fault ∨ ∃ p archive,
        Project.load setup.registry setup.now (archiveOn d path checkers) = (.ok p, archive) ∧
          (p.machine.permittedEvents p.document = .error fault ∨
            asJson = false ∧ showPrompt = true ∧
              (∃ permitted, p.machine.permittedEvents p.document = .ok permitted) ∧
              p.machine.prompt p.document = .error fault)) := by
  refine (run_status setup asJson showPrompt on).escapes proper (fun _ => loadStop_escapes) ?_
  intro path p archive reached loaded _ same
  have typed := (Project.load_typed proper (congrArg Prod.fst loaded)).1
  rw [Escapes, same]
  exact view_escapes typed asJson showPrompt

/-- Nothing goes unreported of a project that was loaded: its plans can be held against it once more. -/
theorem judge_reports {path : String} {p : Project} {condition : Condition}
    (typed : p.document.Typed condition) (checkable : p.blueprint.Checkable p.document)
    (on : t.On d checkers) : ¬Escapes (judge path (.ok p)) t fault := by
  obtain ⟨checked, _, same⟩ := run_judge path p on
  obtain ⟨found, done⟩ := Blueprint.phasesFindings_succeeds typed checkable checkers
  have findings : ∃ all, (p.blueprint.findings p.document checkers).1 = .ok all :=
    ⟨_, (Attempt.bind_pure_ok _ _ _ _).mpr ⟨found, done, rfl⟩⟩
  obtain ⟨all, findings⟩ := findings
  rw [Escapes, same, findings]
  exact (talks_conclude (fun _ => rfl) p nofun).reports

theorem validate_escapes (setup : Setup) (proper : setup.now.Proper) (on : t.On d checkers) :
    Escapes (validate setup) t fault ↔
      Unsettled d fault ∨ ∃ path, pathOn d = .ok path ∧ d.Unloadable path fault := by
  have opened : Escapes (validate setup) t fault ↔
      Unsettled d fault ∨ ∃ path, pathOn d = .ok path ∧ (d.Unloadable path fault ∨ ∃ p archive,
        Project.load setup.registry setup.now (archiveOn d path checkers) = (.ok p, archive) ∧
          False) := by
    refine (run_validate setup on).escapes proper (fun _ => judgeStop_escapes) ?_
    intro path p archive reached loaded still same
    have loaded := congrArg Prod.fst loaded
    have typed := (Project.load_typed proper loaded).1
    rw [Escapes, same]
    exact iff_of_false (judge_reports typed (Project.load_checkable typed loaded) still) id
  simpa using opened

end Command

/-- How a command that is carried out comes to a failure that it does not report. -/
inductive Leak (setup : Setup) (d : Disk) (checkers : Checkers) (name : String) (a : Arguments)
    (fault : Fault) : Prop where
  | unsettled (settings : Unsettled d fault)
  /-- The stored project cannot be loaded. -/
  | unloadable (path : String) (at_ : pathOn d = .ok path) (loads : name ≠ "new")
      (beyond : d.Unloadable path fault)
  /-- Whether there is a project already cannot be told. -/
  | unseen (path : String) (at_ : pathOn d = .ok path) (makes : name = "new")
      (looked : lookOn d path = .error fault)
  /-- The new project breaks the rules for documents from the start. -/
  | undrafted (path : String) (at_ : pathOn d = .ok path) (makes : name = "new")
      (free : lookOn d path = .ok false)
      (refused : Project.Undrafted setup.registry setup.now (requestOf a) fault)
  /-- The new project is spoiled by its type, or it cannot be written. -/
  | uncreated (path : String) (at_ : pathOn d = .ok path) (makes : name = "new")
      (free : lookOn d path = .ok false)
      (failed : (Project.create setup.registry setup.now (requestOf a)
        (archiveOn d path checkers)).1 = .error fault)
      (disowned : ¬fault.Owned)
      (because : Project.Spoiled setup.registry setup.now (requestOf a) ∨ d.Unwritable path fault)
  /-- An action spoiled the project before it was to be kept, or it cannot be written. -/
  | unkept (path : String) (at_ : pathOn d = .ok path) (moves : name = "advance")
      (earnest : a.has "list" = false ∧ a.has "dryRun" = false) (p : Project)
      (archive : Archive (FileStore Disk))
      (loaded : Project.load setup.registry setup.now (archiveOn d path checkers) = (.ok p, archive))
      (failed : (Desk.proceed setup.now a.positions.head?
        ⟨p, archiveOn d path archive.checkers⟩).1 = .error fault)
      (disowned : ¬fault.Owned)
      (because : ∃ t moved, p.Fires setup.now a.positions.head? t moved ∧
        (moved.document.Typed .any → d.Unwritable path fault))
  /-- A guard fails while the project is looked at. -/
  | guarded (path : String) (at_ : pathOn d = .ok path) (looks : name = "status") (p : Project)
      (archive : Archive (FileStore Disk))
      (loaded : Project.load setup.registry setup.now (archiveOn d path checkers) = (.ok p, archive))
      (failed : p.machine.permittedEvents p.document = .error fault)
  /-- The prompt that is asked for fails. -/
  | unprompted (path : String) (at_ : pathOn d = .ok path) (looks : name = "status") (p : Project)
      (archive : Archive (FileStore Disk))
      (loaded : Project.load setup.registry setup.now (archiveOn d path checkers) = (.ok p, archive))
      (asked : a.has "json" = false ∧ a.has "prompt" = true)
      (permitted : List String) (open_ : p.machine.permittedEvents p.document = .ok permitted)
      (failed : p.machine.prompt p.document = .error fault)

section

variable {setup : Setup} (proper : setup.now.Proper) (a : Arguments) {t : Terminal} {d : Disk}
  {checkers : Checkers} (on : t.On d checkers) (fault : Fault)

include proper on

theorem Command.new_leaks :
    Escapes (new setup (requestOf a)) t fault ↔ Leak setup d checkers "new" a fault := by
  refine (Command.new_escapes setup (requestOf a) on).trans ?_
  constructor
  · rintro (settings | ⟨path, at_, looked | ⟨free, failed, disowned⟩⟩)
    · exact .unsettled settings
    · exact .unseen path at_ rfl looked
    · rcases Project.create_disowned proper failed disowned with refused | because
      · exact .undrafted path at_ rfl free refused
      · exact .uncreated path at_ rfl free failed disowned because
  · intro leak
    cases leak with
    | unsettled settings => exact .inl settings
    | unseen path at_ _ looked => exact .inr ⟨path, at_, .inl looked⟩
    | undrafted path at_ _ free refused =>
        refine .inr ⟨path, at_, .inr ⟨free, ?_, ?_⟩⟩
        · rw [Project.run_create, Project.new_of_undrafted refused]
        · obtain ⟨_, _, _, _, drafted⟩ := refused
          obtain ⟨problems, rfl⟩ := Request.draftDocument_fails _ _ _ _ fault drafted
          nofun
    | uncreated path at_ _ free failed disowned _ =>
        exact .inr ⟨path, at_, .inr ⟨free, failed, disowned⟩⟩
    | unloadable _ _ loads => exact absurd rfl loads
    | unkept _ _ other => simp at other
    | guarded _ _ other => simp at other
    | unprompted _ _ other => simp at other

theorem Command.advance_leaks :
    Escapes (advance setup advanceGrammar (orderOf a)) t fault ↔
      Leak setup d checkers "advance" a fault := by
  refine (Command.advance_escapes setup proper advanceGrammar (orderOf a) on).trans ?_
  simp only [Desk.run_disowned, orderOf]
  constructor
  · rintro (settings | ⟨path, at_, beyond | ⟨p, archive, loaded, list, dryRun, failed, disowned⟩⟩)
    · exact .unsettled settings
    · exact .unloadable path at_ (by simp) beyond
    · have because := Desk.proceed_disk proper failed disowned
      exact .unkept path at_ rfl ⟨list, dryRun⟩ p archive loaded failed disowned because
  · intro leak
    cases leak with
    | unsettled settings => exact .inl settings
    | unloadable path at_ _ beyond => exact .inr ⟨path, at_, .inl beyond⟩
    | unkept path at_ _ earnest p archive loaded failed disowned _ =>
        exact .inr ⟨path, at_, .inr ⟨p, archive, loaded, earnest.1, earnest.2, failed, disowned⟩⟩
    | unseen _ _ other => simp at other
    | undrafted _ _ other => simp at other
    | uncreated _ _ other => simp at other
    | guarded _ _ other => simp at other
    | unprompted _ _ other => simp at other

theorem Command.status_leaks :
    Escapes (status setup (a.has "json") (a.has "prompt")) t fault ↔
      Leak setup d checkers "status" a fault := by
  refine (Command.status_escapes setup proper (a.has "json") (a.has "prompt") on).trans ?_
  constructor
  · rintro (settings | ⟨path, at_, beyond |
      ⟨p, archive, loaded, failed | ⟨json, prompt, ⟨permitted, open_⟩, failed⟩⟩⟩)
    · exact .unsettled settings
    · exact .unloadable path at_ (by simp) beyond
    · exact .guarded path at_ rfl p archive loaded failed
    · exact .unprompted path at_ rfl p archive loaded ⟨json, prompt⟩ permitted open_ failed
  · intro leak
    cases leak with
    | unsettled settings => exact .inl settings
    | unloadable path at_ _ beyond => exact .inr ⟨path, at_, .inl beyond⟩
    | guarded path at_ _ p archive loaded failed =>
        exact .inr ⟨path, at_, .inr ⟨p, archive, loaded, .inl failed⟩⟩
    | unprompted path at_ _ p archive loaded asked permitted open_ failed =>
        exact .inr ⟨path, at_, .inr ⟨p, archive, loaded,
          .inr ⟨asked.1, asked.2, ⟨permitted, open_⟩, failed⟩⟩⟩
    | unseen _ _ other => simp at other
    | undrafted _ _ other => simp at other
    | uncreated _ _ other => simp at other
    | unkept _ _ other => simp at other

theorem Command.validate_leaks :
    Escapes (validate setup) t fault ↔ Leak setup d checkers "validate" a fault := by
  refine (Command.validate_escapes setup proper on).trans ?_
  constructor
  · rintro (settings | ⟨path, at_, beyond⟩)
    · exact .unsettled settings
    · exact .unloadable path at_ (by simp) beyond
  · intro leak
    cases leak with
    | unsettled settings => exact .inl settings
    | unloadable path at_ _ beyond => exact .inr ⟨path, at_, beyond⟩
    | unseen _ _ other => simp at other
    | undrafted _ _ other => simp at other
    | uncreated _ _ other => simp at other
    | unkept _ _ other => simp at other
    | guarded _ _ other => simp at other
    | unprompted _ _ other => simp at other

/-- A command leaves just those failures unreported. -/
theorem Call.escapes_iff {e : Entry} (member : e ∈ entries) :
    Command.Escapes (e.run setup a) t fault ↔ Leak setup d checkers e.name a fault := by
  simp only [entries, List.mem_cons, List.not_mem_nil, or_false] at member
  rcases member with rfl | rfl | rfl | rfl
  · exact Command.new_leaks proper a on fault
  · exact Command.advance_leaks proper a on fault
  · exact Command.status_leaks proper a on fault
  · exact Command.validate_leaks proper a on fault

end

theorem Outcome.escaped_ofStop (t : Terminal) (result : Except Stop Unit) (fault : Fault) :
    (ofStop t (ending result)).escaped = some fault ↔ result = .error (.escaped fault) := by
  rcases result with stop | ⟨⟩
  · cases stop <;> simp [ofStop, ending]
  · simp [ofStop, ending]

/-- One type of projects, at the turn of a year. -/
def Setup.plain : Setup := ⟨[("standard", .sample (.shape .anything))], newYear⟩

/-- The words that ask for a project with a name that breaks the rules. -/
def misnaming : List String := ["new", "Demo", "--name", "Bad Name"]

end Console

end Lifecycle
