import Lifecycle.Console.Run
import Lifecycle.Proofs.Disk
import Lifecycle.Proofs.Settings
/-!
The course of a command line: it departs from the grammar, its settings cannot be used, or the command
that it calls is run, on the disk as it was found. -/

namespace Lifecycle

namespace Console

namespace Command

variable {α β : Type}

@[simp] theorem run_pure (a : α) (t : Terminal) : (pure a : Command α) t = (.ok a, t) := rfl

@[simp] theorem run_throw (stop : Stop) (t : Terminal) :
    (throw stop : Command α) t = (.error stop, t) := rfl

@[simp] theorem run_modify (change : Terminal → Terminal) (t : Terminal) :
    (modify change : Command PUnit) t = (.ok ⟨⟩, change t) := rfl

theorem run_bind (work : Command α) (next : α → Command β) (t : Terminal) :
    (work >>= next) t =
      match work t with
      | (.ok a, after) => next a after
      | (.error stop, after) => (.error stop, after) := by
  show ExceptT.bindCont next (work t).1 (work t).2 = _
  rcases work t with ⟨result, after⟩
  cases result <;> rfl

theorem run_bind_ok {work : Command α} {t after : Terminal} {a : α} (done : work t = (.ok a, after))
    (next : α → Command β) : (work >>= next) t = next a after := by
  rw [run_bind, done]

theorem run_orElseStop (stop : Fault → Stop) (e : Except Fault α) (t : Terminal) :
    orElseStop stop e t = (e.mapError stop, t) := by
  cases e <;> rfl

end Command

/-- The text of the settings on a disk, if they can be read. -/
def settingsOn (d : Disk) : Option String := (Disk.read Settings.fileName d).1.toOption

/-- Where the settings on a disk keep the document. -/
def pathOn (d : Disk) : Except Fault String := do
  let path ← Settings.inFile (settingsOn d) "state_path" FileStore.defaultPath
  return if path = "" then FileStore.defaultPath else path

/-- The level of logging that the settings on a disk set. -/
def levelOn (d : Disk) : Except Fault Nat := do
  Settings.levelOf (Text.upper (← Settings.inFile (settingsOn d) "log_level" "WARNING"))

def levelFor (verbose : Bool) (d : Disk) : Except Fault Nat :=
  if verbose then .ok debugLevel else levelOn d

/-- A terminal on a disk, of whose settings it keeps nothing that is out of date. -/
structure Terminal.On (t : Terminal) (d : Disk) (checkers : Checkers) : Prop where
  disk : t.disk = d
  checkers : t.checkers = checkers
  current : Settings.Current (settingsOn d) t.settings

namespace Command

theorem run_onSettings {α : Type} (work : Option String → Attempt Settings α) (t : Terminal) :
    onSettings work t =
      ((work (settingsOn t.disk) t.settings).1.mapError .escaped,
        { t with settings := (work (settingsOn t.disk) t.settings).2 }) := by
  simp only [onSettings, settingsOn]
  rcases Disk.read Settings.fileName t.disk with ⟨fault | text, after⟩
  · simp only [Except.toOption]
    rcases work none t.settings with ⟨fault | a, settings⟩ <;> rfl
  · simp only [Except.toOption]
    rcases work (some text) t.settings with ⟨fault | a, settings⟩ <;> rfl

variable {t : Terminal} {d : Disk} {checkers : Checkers}

/-- The path is that of the settings on the disk, whenever they are asked. -/
theorem run_statePath (on : t.On d checkers) :
    ∃ after, statePath t = ((pathOn d).mapError .escaped, after) ∧ after.On d checkers ∧
      after.out = t.out := by
  obtain ⟨rfl, same, current⟩ := on
  obtain ⟨settings, read, still⟩ :=
    Settings.run_text current "state_path" FileStore.defaultPath
  refine ⟨{ t with settings }, ?_, ⟨rfl, same, still⟩, rfl⟩
  rw [statePath, run_bind, run_onSettings, Settings.statePath, read, pathOn]
  cases Settings.inFile (settingsOn t.disk) "state_path" FileStore.defaultPath <;> rfl

/-- The level that is set: all is logged if that was asked for. -/
theorem run_chooseLevel (on : t.On d checkers) (verbose : Bool) :
    ∃ after, chooseLevel verbose t =
        ((levelFor verbose d).map (fun _ => ()) |>.mapError .escaped, after) ∧
      after.On d checkers ∧ after.out = t.out := by
  cases verbose with
  | true => exact ⟨_, rfl, ⟨on.disk, on.checkers, on.current⟩, rfl⟩
  | false =>
      obtain ⟨rfl, same, current⟩ := on
      obtain ⟨settings, read, still⟩ := Settings.run_text current "log_level" "WARNING"
      rw [chooseLevel, if_neg Bool.false_ne_true, run_bind, run_onSettings, Settings.logLevel,
        Attempt.run_bind, read, levelFor, if_neg Bool.false_ne_true, levelOn]
      cases Settings.inFile (settingsOn t.disk) "log_level" "WARNING" with
      | error fault => exact ⟨{ t with settings }, rfl, ⟨rfl, same, still⟩, rfl⟩
      | ok name =>
          simp only [Attempt.run_pure, Except.mapError, bind, Except.bind]
          cases Settings.levelOf (Text.upper name) with
          | error fault => exact ⟨{ t with settings }, rfl, ⟨rfl, same, still⟩, rfl⟩
          | ok level => exact ⟨{ t with settings, level }, rfl, ⟨rfl, same, still⟩, rfl⟩

end Command

/-- Whether a command that ended early said why, if there was anything to say. -/
def Stop.isReported : Stop → Bool
  | .escaped _ => false
  | .failed _ | .misused _ _ | .done => true

namespace Grammar

/-- What words come to by a grammar, unless they depart from it or ask for help. -/
def read? (g : Grammar) (words : List String) : Option Arguments :=
  match g.scan none words .empty with
  | .ok a => if a.has "help" then none else some a
  | .error _ => none

/-- The same, with as many positional arguments as the grammar asks for. -/
def readAll? (g : Grammar) (words : List String) : Option Arguments :=
  (g.read? words).filter fun a => (checkPositions g.positions a.positions).isOk

end Grammar

/-- A command that is called: the command, whether all is to be logged, and the words that follow its
name. -/
structure Call where
  entry : Entry
  verbose : Bool
  rest : List String

/-- The command that words call, if they call one. -/
def called? (words : List String) : Option Call := do
  let main ← mainGrammar.read? words
  match main.positions with
  | [] => none
  | name :: rest =>
    let e ← entries.find? fun e => e.name = name
    return ⟨e, main.has "verbose", rest⟩

/-- Only commands that there are are called. -/
theorem called_entry {words : List String} {call : Call} (calls : called? words = some call) :
    call.entry ∈ entries := by
  obtain ⟨main, _, calls⟩ := Option.bind_eq_some_iff.mp calls
  split at calls
  · cases calls
  · obtain ⟨e, found, same⟩ := Option.bind_eq_some_iff.mp calls
    cases same
    exact List.mem_of_find?_eq_some found

/-- What a called command is given, if the words after its name keep to its grammar. -/
def Call.arguments? (call : Call) : Option Arguments := call.entry.grammar.readAll? call.rest

/-- The command of a call, which may stop short of it. -/
def Call.perform (setup : Setup) (call : Call) : Command Unit := do
  chooseLevel call.verbose
  call.entry.run setup (← readAll call.entry.grammar call.rest)

/-- Whether a computation ends early, with nothing done but that something may have been said. -/
def Command.Ends {α : Type} (work : Command α) (t : Terminal) : Prop :=
  ∃ stop out, stop.isReported = true ∧ work t = (.error stop, { t with out })

namespace Command

variable {α β : Type} {t : Terminal}

theorem ends_throw {stop : Stop} (reported : stop.isReported = true) :
    Ends (throw stop : Command α) t := ⟨stop, t.out, reported, rfl⟩

theorem Ends.bind {work : Command α} (ends : Ends work t) (next : α → Command β) :
    Ends (work >>= next) t := by
  obtain ⟨stop, out, reported, same⟩ := ends
  refine ⟨stop, out, reported, ?_⟩
  rw [run_bind, same]

theorem run_readArguments (g : Grammar) (words : List String) (t : Terminal) :
    match g.read? words with
    | some a => readArguments g words t = (.ok a, t)
    | none => Ends (readArguments g words) t := by
  rw [readArguments, Grammar.read?]
  cases g.scan none words .empty with
  | error misuse => exact ends_throw rfl
  | ok a =>
      simp only
      cases a.has "help" with
      | true => exact ⟨.done, _, rfl, rfl⟩
      | false => rfl

theorem run_readAll (g : Grammar) (words : List String) (t : Terminal) :
    match g.readAll? words with
    | some a => readAll g words t = (.ok a, t)
    | none => Ends (readAll g words) t := by
  have read := run_readArguments g words t
  rw [readAll, Grammar.readAll?]
  cases given : g.read? words with
  | none =>
      rw [given] at read
      exact read.bind _
  | some a =>
      rw [given] at read
      rw [Option.filter_some]
      simp only [Ends]
      rw [run_bind_ok read]
      cases Grammar.checkPositions g.positions a.positions with
      | error misuse => exact ends_throw rfl
      | ok _ => rfl

/-- A command line runs the command that it calls, if it calls one. -/
theorem run_dispatch (setup : Setup) (words : List String) (t : Terminal) :
    match called? words with
    | some call => dispatch setup words t = call.perform setup t
    | none => Ends (dispatch setup words) t := by
  have read := run_readArguments mainGrammar words t
  rw [called?, dispatch]
  cases given : mainGrammar.read? words with
  | none =>
      rw [given] at read
      exact read.bind _
  | some main =>
      rw [given] at read
      simp only [Option.bind_eq_bind, Option.bind_some, Ends]
      rw [run_bind_ok read]
      cases main.positions with
      | nil => exact ends_throw rfl
      | cons name rest =>
          simp only
          cases entries.find? fun e => e.name = name with
          | some e => rfl
          | none =>
              -- A name that is no command is read once more as a switch, which may end otherwise.
              have again := run_readArguments mainGrammar (name :: rest) t
              simp only [Option.bind_none, refuse]
              cases given : mainGrammar.read? (name :: rest) with
              | none =>
                  rw [given] at again
                  exact again.bind _
              | some main =>
                  rw [given] at again
                  rw [run_bind_ok again]
                  exact ends_throw rfl

end Command

/-- What a call comes to on a terminal: it gets no further than its settings or its words, or its
command is run on the disk as it is. -/
theorem Call.run_perform (setup : Setup) (call : Call) {t : Terminal} {d : Disk} {checkers : Checkers}
    (on : t.On d checkers) :
    match levelFor call.verbose d with
    | .error fault =>
      ∃ after, call.perform setup t = (.error (.escaped fault), after) ∧ after.On d checkers
    | .ok _ =>
      ∃ levelled : Terminal, levelled.On d checkers ∧ levelled.out = t.out ∧
        match call.arguments? with
        | some a => call.perform setup t = call.entry.run setup a levelled
        | none => ∃ stop after, stop.isReported = true ∧
            call.perform setup t = (.error stop, after) ∧ after.On d checkers := by
  obtain ⟨levelled, chosen, still, said⟩ := Command.run_chooseLevel on call.verbose
  rw [Call.perform, Command.run_bind, chosen]
  cases levelFor call.verbose d with
  | error fault => exact ⟨levelled, rfl, still⟩
  | ok level =>
      refine ⟨levelled, still, said, ?_⟩
      have read := Command.run_readAll call.entry.grammar call.rest levelled
      rw [Call.arguments?]
      simp only [Except.map, Except.mapError]
      cases given : call.entry.grammar.readAll? call.rest with
      | some a =>
          rw [given] at read
          exact Command.run_bind_ok read _
      | none =>
          rw [given] at read
          obtain ⟨stop, out, reported, same⟩ := read
          refine ⟨stop, { levelled with out }, reported, ?_, still.disk, still.checkers, still.current⟩
          rw [Command.run_bind, same]

/-- A terminal that nothing was done on. -/
def Terminal.fresh (d : Disk) (checkers : Checkers) : Terminal :=
  ⟨d, checkers, .unread, [], [], Settings.defaultLevel⟩

theorem Terminal.fresh_on (d : Disk) (checkers : Checkers) : (fresh d checkers).On d checkers :=
  ⟨rfl, rfl, .inl rfl⟩

/-- The courses that a command line can take. -/
inductive Course (setup : Setup) (words : List String) (d : Disk) (checkers : Checkers) :
    Except Stop Unit × Terminal → Prop where
  /-- No command is called, or not as its grammar asks for. -/
  | idle (stop : Stop) (after : Terminal)
      (never : ∀ call, called? words = some call →
        call.arguments? = none ∧ ∃ level, levelFor call.verbose d = .ok level)
      (reported : stop.isReported = true) (disk : after.disk = d) :
      Course setup words d checkers (.error stop, after)
  /-- The settings give no level of logging. -/
  | unlevelled (call : Call) (fault : Fault) (after : Terminal) (calls : called? words = some call)
      (levels : levelFor call.verbose d = .error fault) (disk : after.disk = d) :
      Course setup words d checkers (.error (.escaped fault), after)
  | performed (call : Call) (a : Arguments) (level : Nat) (t : Terminal)
      (calls : called? words = some call) (levels : levelFor call.verbose d = .ok level)
      (given : call.arguments? = some a) (on : t.On d checkers) (silent : t.out = []) :
      Course setup words d checkers (call.entry.run setup a t)

theorem dispatch_course (setup : Setup) (words : List String) (d : Disk) (checkers : Checkers) :
    Course setup words d checkers (dispatch setup words (.fresh d checkers)) := by
  have dispatched := Command.run_dispatch setup words (.fresh d checkers)
  cases calls : called? words with
  | none =>
      rw [calls] at dispatched
      obtain ⟨stop, out, reported, same⟩ := dispatched
      rw [same]
      exact .idle stop _ (by rw [calls]; nofun) reported rfl
  | some call =>
      rw [calls] at dispatched
      have performed := call.run_perform setup (Terminal.fresh_on d checkers)
      rw [dispatched]
      cases levels : levelFor call.verbose d with
      | error fault =>
          rw [levels] at performed
          obtain ⟨after, same, still⟩ := performed
          rw [same]
          exact .unlevelled call fault after calls levels still.disk
      | ok level =>
          rw [levels] at performed
          obtain ⟨levelled, still, silent, performed⟩ := performed
          cases given : call.arguments? with
          | some a =>
              rw [given] at performed
              rw [performed]
              exact .performed call a level levelled calls levels given still silent
          | none =>
              rw [given] at performed
              obtain ⟨stop, after, reported, same, still⟩ := performed
              rw [same]
              refine .idle stop after (fun other also => ?_) reported still.disk
              obtain rfl : call = other := Option.some.inj (calls.symm.trans also)
              exact ⟨given, level, levels⟩

theorem Outcome.exit_ofStop (t : Terminal) (stop : Stop) :
    (ofStop t stop).exit = 0 ↔ stop = .done := by
  cases stop <;> simp [ofStop]

/-- How a command line that was carried out is reported. -/
def ending : Except Stop Unit → Stop
  | .ok _ => .done
  | .error stop => stop

theorem run_eq (setup : Setup) (words : List String) (d : Disk) (checkers : Checkers) :
    run setup words d checkers =
      let (result, after) := dispatch setup words (.fresh d checkers)
      (.ofStop after (ending result), after.disk, after.checkers) := by
  rw [run, Terminal.fresh]
  rcases dispatch setup words ⟨d, checkers, .unread, [], [], Settings.defaultLevel⟩ with
    ⟨stop | ⟨⟩, after⟩ <;> rfl

end Console

end Lifecycle
