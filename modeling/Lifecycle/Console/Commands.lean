import Lifecycle.Console.Arguments
import Lifecycle.Project.Advance
import Lifecycle.Project.Overview
import Lifecycle.Prompt
import Lifecycle.Settings
import Lifecycle.Storage.Disk
/-!
The commands `new`, `advance`, `status` and `validate` on the project that is kept on disk. What
they print before a failure stays printed. -/

namespace Lifecycle.Console

/-- Why a command ended early. -/
inductive Stop where
  /-- A failure that is reported to the user. -/
  | failed (text : String)
  | misused (g : Grammar) (misuse : Misuse)
  /-- A fault that no command reports. -/
  | escaped (fault : Fault)
  | done

/-- What a command works on and what it has printed. -/
structure Terminal where
  disk : Disk
  checkers : Checkers
  settings : Settings
  out : List String
  err : List String
  level : Nat

abbrev Command (α : Type) := ExceptT Stop (StateM Terminal) α

/-- What commands are given from outside. -/
structure Setup where
  registry : Registry
  now : Timestamp

namespace Command

def say (line : String) : Command Unit := modify fun t => { t with out := t.out ++ [line] }

def complain (line : String) : Command Unit := modify fun t => { t with err := t.err ++ [line] }

/-- Runs a computation on the settings; its failures are not reported. -/
def onSettings {α : Type} (work : Option String → Attempt Settings α) : Command α := fun t =>
  let file := match Disk.read Settings.fileName t.disk with
    | (.ok text, _) => some text
    | (.error _, _) => none
  match work file t.settings with
  | (.ok a, settings) => (.ok a, { t with settings })
  | (.error fault, settings) => (.error (.escaped fault), { t with settings })

def orElseStop {α : Type} (stop : Fault → Stop) : Except Fault α → Command α
  | .ok a => pure a
  | .error fault => throw (stop fault)

/-- Reports the failures of this library's own and no others. -/
def reported (fault : Fault) : Stop :=
  if fault.isOwn then .failed s!"Error: {fault.message}" else .escaped fault

/-- Where the document is kept. -/
def statePath : Command String := do
  let path ← onSettings Settings.statePath
  return if path = "" then FileStore.defaultPath else path

/-- Runs a computation on the archive; it keeps what was done. -/
def onArchive {α : Type} (path : String) (work : Attempt (Archive (FileStore Disk)) α) :
    Command (Except Fault α) := fun t =>
  let (outcome, archive) := work ⟨⟨t.disk, path⟩, t.checkers⟩
  (.ok outcome, { t with disk := archive.store.files, checkers := archive.checkers })

/-- Runs a computation on a project and its archive. -/
def onDesk {α : Type} (path : String) (p : Project) (work : Attempt (Desk (FileStore Disk)) α) :
    Command (Except Fault α × Project) := fun t =>
  let (outcome, desk) := work ⟨p, ⟨⟨t.disk, path⟩, t.checkers⟩⟩
  (.ok (outcome, desk.project),
    { t with disk := desk.archive.store.files, checkers := desk.archive.checkers })

def noProjectText : String := "No active project. Run 'phasekit new' first."

/-- The stored project. -/
def loadProject (setup : Setup) (report : Fault → Stop) : Command Project := do
  match ← onArchive (← statePath) (Project.load setup.registry setup.now) with
  | .ok p => return p
  | .error (.noState _) => throw (.failed noProjectText)
  | .error fault => throw (report fault)

/-- How `new` reports what went wrong. -/
def newReport (fault : Fault) : Stop :=
  if fault.isNotFound then .failed fault.message
  else if fault.isValidation then .failed s!"Validation Error: {fault.message}"
  else reported fault

def new (setup : Setup) (r : Request) : Command Unit := do
  let path ← statePath
  let there ← orElseStop .escaped (← onArchive path (Archive.onStore Backend.holds))
  if there then
    throw (.failed "A project already exists. Finish or delete it before starting another.")
  let created ← onArchive path (Project.create setup.registry setup.now r)
  let p ← orElseStop newReport created
  say s!"Project '{p.document.name.display}' created ({p.document.type.display})."
  say s!"Current state: {p.state}"

def showDiscovery (o : Discovery) : Command Unit := do
  say (s!"  phasekit advance {o.event}" ++ if o.permitted then "" else "  [BLOCKED]")
  say s!"    → {o.target}"
  if o.description ≠ "" then say s!"    {o.description}"
  if o.guardDescription ≠ "" then say s!"    Requires: {o.guardDescription}"
  say ""

def showDiscoveries (state : String) (list : List Discovery) : Command Unit := do
  say s!"Current state: {state}"
  say ""
  if list.isEmpty then
    say "No transitions available from current state."
    say "This may be a terminal state."
  else
    say "Available transitions:"
    say ""
    list.forM showDiscovery
    if !list.any Discovery.permitted then
      say "(All configured transitions are currently blocked by guard conditions)"

/-- Shows what a move would come to; a blocked one is a failure. -/
def showDryRun (m : Move) : Command Unit := do
  say s!"Validating transition: {m.source} -> {m.event}"
  say ""
  match m.blockedReason with
  | some reason =>
    say "✗ Transition blocked by guard condition"
    say ""
    say s!"Guard description: {reason}"
    say "Current status: Guard not satisfied"
    say ""
    say "Fix the guard condition, then try again."
    throw (.failed s!"transition {m.source} -> {m.target} blocked by guard: {reason}")
  | none =>
    say "✓ Transition is valid and can be executed"
    say ""
    say s!"Target state: {m.target}"
    if m.description ≠ "" then say s!"Description: {m.description}"
    say ""
    say s!"To execute: phasekit advance {m.event}"

/-- How `advance` reports what went wrong. -/
def advanceReport (g : Grammar) (fault : Fault) : Stop :=
  match fault with
  | .usage text => .misused g (.combination text)
  | .notConfigured _ _ _ => .failed fault.message
  | .blocked arrow reason =>
    .failed (s!"cannot advance from {arrow.source} to {arrow.target} via " ++
      s!"{Text.quoted arrow.event}: {reason}\n" ++
      s!"Run 'phasekit advance {arrow.event} --dry-run' for details.")
  | .noDeterminer _ =>
    .failed (fault.message ++ "\nUse 'phasekit advance --list' to see available transitions.")
  | .unsaved _ _ =>
    .failed (fault.message ++ "\nThe transition was applied in memory only; " ++
      "the stored project is unchanged.")
  | fault => reported fault

/-- An event that is not declared is explained where it was only to be tried. -/
def explainUnconfigured (o : Order) (state : String) (fault : Fault) : Command Unit :=
  match fault, o.event with
  | .notConfigured _ _ _, some event =>
    if o.dryRun then do
      say s!"Validating transition: {state} -> {event}"
      say ""
      say s!"✗ Event '{event}' is not configured for state {state}"
      say ""
      say "Use 'phasekit advance --list' to see available transitions."
    else pure ()
  | _, _ => pure ()

def showReport (o : Order) (state : String) : Report → Command Unit
  | .discoveries list => showDiscoveries state list
  | .move m =>
    if o.dryRun then showDryRun m
    else do
      if o.event.isNone then say s!"Current state: {state}"
      say s!"Advanced to: {m.target}"

def advance (setup : Setup) (g : Grammar) (o : Order) : Command Unit := do
  let path ← statePath
  let p ← loadProject setup reported
  if !o.list && !o.dryRun && o.event.isSome then say s!"Current state: {p.state}"
  let (outcome, _) ← onDesk path p (Desk.run setup.now o)
  match outcome with
  | .ok report => showReport o p.state report
  | .error fault =>
    explainUnconfigured o p.state fault
    throw (advanceReport g fault)

def statusMark (status : Slot PhaseStatus) : String :=
  if status.holds .completed then " ✓"
  else if status.holds .inProgress then " ⏳"
  else if status.holds .failed then " ✗"
  else ""

def phaseLine (p : PhaseOverview) : Except Fault String := do
  return s!"- {p.name}: {p.status.display}" ++ statusMark p.status ++
    (← Prompt.iterationNote p.iteration) ++
    (if p.tasks = 0 then "" else s!" [{p.tasksDone}/{p.tasks} tasks]")

def showOverview (o : Overview) : Command Unit := do
  say s!"Project: {o.name.display} ({o.type.display})"
  say "========================="
  say s!"Branch: {o.branch.display}"
  say s!"Current state: {o.current.display}"
  say ""
  say "Phases:"
  o.phases.forM fun p => do say (← orElseStop .escaped (phaseLine p))
  say ""
  if o.permitted.isEmpty then
    say "No transitions are currently permitted. Run 'phasekit advance --list'."
  else say ("Ready: " ++ Fault.commaList o.permitted)

def status (setup : Setup) (asJson showPrompt : Bool) : Command Unit := do
  let p ← loadProject setup reported
  let o ← orElseStop .escaped p.overview
  if asJson then say (Json.print (.indented 2) o.toValue)
  else if showPrompt then say (← orElseStop .escaped (p.machine.prompt p.document))
  else showOverview o

def showFindings (findings : List Finding) : Command Unit := do
  findings.forM fun f => complain s!"- {f.text}"
  throw (.failed s!"Project is invalid ({findings.length} problem(s)).")

def validate (setup : Setup) : Command Unit := do
  let path ← statePath
  match ← onArchive path (Project.load setup.registry setup.now) with
  | .ok p =>
    let checking := Archive.onCheckers (p.blueprint.findings p.document)
    let findings ← orElseStop .escaped (← onArchive path checking)
    if findings.isEmpty then say s!"Project '{p.document.name.display}' is valid."
    else showFindings findings
  | .error (.invalidProject _ findings) => showFindings findings
  | .error (.noState _) => throw (.failed noProjectText)
  | .error fault => throw (reported fault)

end Command

end Lifecycle.Console
