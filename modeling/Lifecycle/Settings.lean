import Lifecycle.Fault
import Lifecycle.Storage.Backend
import Lifecycle.Text.Upper
/-!
Settings from a JSON file. They are read once and kept until they are read again; a file that is
missing or is no JSON counts as empty. Nothing is kept of a file that cannot be read through. -/

namespace Lifecycle

structure Settings where
  /-- What was read; null as long as nothing was. -/
  kept : Value
  deriving Repr, Inhabited

namespace Settings

def fileName : String := "config.json"

def unread : Settings := ⟨.null⟩

/-- What the text of the file says, if there is a file. -/
def contents : Option String → Except Fault Value
  | some text =>
    match Json.parse text with
    | .ok v => .ok v
    | .error (.syntactic _) => .ok (.map [])
    | .error (.excess which) => .error (.ofExcess which)
  | none => .ok (.map [])

/-- The settings as they are kept, or else as the file has them now. -/
def values (file : Option String) : Attempt Settings Value := do
  match (← get).kept with
  | .null =>
    let found ← Attempt.ofExcept (contents file)
    set (⟨found⟩ : Settings)
    return found
  | v => return v

/-- Reads the file again. -/
def reload (file : Option String) : Attempt Settings Value := do
  set unread
  values file

def lookup (key : String) (default : Value) : Value → Except Fault Value
  | .map entries => .ok ((Keyed.find? entries key).getD default)
  | _ => .error (.noAttribute "settings are no map of names to values")

def value (file : Option String) (key : String) (default : Value) : Attempt Settings Value := do
  Attempt.ofExcept (lookup key default (← values file))

/-- A setting as text; null counts as not set. -/
def text (file : Option String) (key default : String) : Attempt Settings String := do
  match ← value file key (.text default) with
  | .null => return default
  | v => return v.display

/-- Where the document is kept, below the folder of the settings. -/
def statePath (file : Option String) : Attempt Settings String :=
  text file "state_path" FileStore.defaultPath

def logLevel (file : Option String) : Attempt Settings String := do
  return Text.upper (← text file "log_level" "WARNING")

/-- Levels of logging by name. -/
def levels : List (String × Nat) := [
  ("CRITICAL", 50), ("FATAL", 50), ("ERROR", 40), ("WARNING", 30), ("WARN", 30), ("INFO", 20),
  ("DEBUG", 10), ("NOTSET", 0)]

def defaultLevel : Nat := 30

/-- Two names belong to formats of log lines: they stand for no level and are refused. -/
def levelOf (name : String) : Except Fault Nat :=
  if name = "BASIC_FORMAT" then
    .error (.badValue "Unknown level: '%(levelname)s:%(name)s:%(message)s'")
  else if name = "_STYLES" then
    .error (.badType ("Level not an integer or a valid string: " ++ styles))
  else .ok ((levels.find? fun entry => entry.1 = name).map (·.2) |>.getD defaultLevel)
where
  style (mark kind format : String) : String :=
    "'" ++ mark ++ "': (<class 'logging." ++ kind ++ "'>, '" ++ format ++ "')"
  styles : String :=
    "\x7b" ++ ", ".intercalate [
      style "%" "PercentStyle" "%(levelname)s:%(name)s:%(message)s",
      style "\x7b" "StrFormatStyle" "\x7blevelname\x7d:\x7bname\x7d:\x7bmessage\x7d",
      style "$" "StringTemplateStyle" "$\x7blevelname\x7d:$\x7bname\x7d:$\x7bmessage\x7d"] ++ "\x7d"

end Settings

end Lifecycle
