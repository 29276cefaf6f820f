import Lifecycle.Console.Commands
import Lifecycle.Text.Control
/-!
A whole command line, from its words to its exit code: the switches before the command, the level of
logging, the command itself, and what is printed about failures. -/

namespace Lifecycle.Console

def helpSwitch : Switch := ⟨"help", ["--help"], false⟩

def mainGrammar : Grammar where
  command := "cli"
  signature := "[OPTIONS] COMMAND [ARGS]..."
  switches := [
    ⟨"root", ["--root"], true⟩, ⟨"verbose", ["-v", "--verbose"], false⟩, helpSwitch]
  positions := []
  mixed := false

def newGrammar : Grammar where
  command := "cli new"
  signature := "[OPTIONS] DESCRIPTION"
  switches := [
    ⟨"branch", ["--branch"], true⟩, ⟨"type", ["--type"], true⟩, ⟨"name", ["--name"], true⟩,
    helpSwitch]
  positions := [⟨"DESCRIPTION", true⟩]
  mixed := true

def advanceGrammar : Grammar where
  command := "cli advance"
  signature := "[OPTIONS] [EVENT]"
  switches := [⟨"list", ["--list"], false⟩, ⟨"dryRun", ["--dry-run"], false⟩, helpSwitch]
  positions := [⟨"EVENT", false⟩]
  mixed := true

def statusGrammar : Grammar where
  command := "cli status"
  signature := "[OPTIONS]"
  switches := [⟨"json", ["-j", "--json"], false⟩, ⟨"prompt", ["--prompt"], false⟩, helpSwitch]
  positions := []
  mixed := true

def validateGrammar : Grammar where
  command := "cli validate"
  signature := "[OPTIONS]"
  switches := [helpSwitch]
  positions := []
  mixed := true

/-- A command's words, read by its grammar. Asking for help ends the command. -/
def readArguments (g : Grammar) (words : List String) : Command Arguments := do
  match g.scan none words .empty with
  | .error misuse => throw (.misused g misuse)
  | .ok a =>
    if a.has "help" then
      Command.say s!"Usage: {g.command} {g.signature}"
      throw .done
    return a

/-- The same, with as many positional arguments as the grammar asks for. -/
def readAll (g : Grammar) (words : List String) : Command Arguments := do
  let a ← readArguments g words
  match Grammar.checkPositions g.positions a.positions with
  | .ok () => return a
  | .error misuse => throw (.misused g misuse)

structure Entry where
  name : String
  grammar : Grammar
  run : Setup → Arguments → Command Unit

def requestOf (a : Arguments) : Request where
  description := a.positions.headD ""
  branch := (a.value? "branch").getD "main"
  type := a.value? "type"
  name := a.value? "name"

def orderOf (a : Arguments) : Order := ⟨a.positions.head?, a.has "list", a.has "dryRun"⟩

def entries : List Entry := [
  ⟨"new", newGrammar, fun setup a => Command.new setup (requestOf a)⟩,
  ⟨"advance", advanceGrammar, fun setup a => Command.advance setup advanceGrammar (orderOf a)⟩,
  ⟨"status", statusGrammar, fun setup a => Command.status setup (a.has "json") (a.has "prompt")⟩,
  ⟨"validate", validateGrammar, fun setup _ => Command.validate setup⟩]

def debugLevel : Nat := 10

/-- Sets the level of logging, from the settings unless all is to be logged. -/
def chooseLevel (verbose : Bool) : Command Unit := do
  if verbose then modify fun t => { t with level := debugLevel }
  else
    let name ← Command.onSettings Settings.logLevel
    let level ← Command.orElseStop .escaped (Settings.levelOf name)
    modify fun t => { t with level }

/-- A word that names no command is read as switches once more before it is refused. -/
def refuse (name : String) (rest : List String) : Command Unit := do
  let _ ← readArguments mainGrammar (name :: rest)
  throw (.misused mainGrammar
    (.unknownCommand name (Text.proposals name (entries.map Entry.name))))

def dispatch (setup : Setup) (words : List String) : Command Unit := do
  let a ← readArguments mainGrammar words
  match a.positions with
  | [] => throw (.misused mainGrammar .missingCommand)
  | name :: rest =>
    match entries.find? fun e => e.name = name with
    | none => refuse name rest
    | some e =>
      chooseLevel (a.has "verbose")
      e.run setup (← readAll e.grammar rest)

/-- What a command line comes to. -/
structure Outcome where
  exit : Nat
  out : String
  err : String
  level : Nat
  /-- A fault that went unreported. -/
  escaped : Option Fault

/-- Lines as a terminal that takes no control sequences gets them. -/
def printed (lines : List String) : String :=
  String.ofList (Text.withoutControls (String.join (lines.map (· ++ "\n"))).toList)

def misuseText (g : Grammar) (misuse : Misuse) : String :=
  (if misuse.showsGrammar then g.reminder else "") ++ s!"Error: {misuse.message}"

def Outcome.ofStop (t : Terminal) : Stop → Outcome
  | .failed text => ⟨1, printed t.out, printed (t.err ++ [s!"Error: {text}"]), t.level, none⟩
  | .misused g misuse => ⟨2, printed t.out, printed (t.err ++ [misuseText g misuse]), t.level, none⟩
  | .escaped fault => ⟨1, printed t.out, printed t.err, t.level, some fault⟩
  | .done => ⟨0, printed t.out, printed t.err, t.level, none⟩

/-- Runs a command line on a disk, with the checkers of those that ran before. -/
def run (setup : Setup) (words : List String) (disk : Disk) (checkers : Checkers) :
    Outcome × Disk × Checkers :=
  match dispatch setup words ⟨disk, checkers, .unread, [], [], Settings.defaultLevel⟩ with
  | (.ok (), t) => (.ofStop t .done, t.disk, t.checkers)
  | (.error stop, t) => (.ofStop t stop, t.disk, t.checkers)

end Lifecycle.Console
