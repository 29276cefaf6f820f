import Lifecycle.Text.Likeness
import Lifecycle.Text.Quoted
/-!
Command lines: switches that may take a value, and positional arguments. A switch may be written
`--name value`, `--name=value`, or by one letter, and letters may share a dash; after `--` nothing
is a switch any more. -/

namespace Lifecycle.Console

structure Switch where
  /-- What the switch is known as once it is read. -/
  key : String
  spellings : List String
  takesValue : Bool
  deriving DecidableEq, Repr

structure Position where
  name : String
  required : Bool
  deriving DecidableEq, Repr

/-- What a command accepts. -/
structure Grammar where
  command : String
  signature : String
  switches : List Switch
  positions : List Position
  /-- Whether switches may follow arguments. -/
  mixed : Bool
  deriving DecidableEq, Repr

/-- How a command line departs from a grammar. -/
inductive Misuse where
  | needsValue (spelling : String)
  | takesNoValue (spelling : String)
  | unknownSwitch (spelling : String) (close : List String)
  | missingArgument (name : String)
  | surplusArguments (arguments : List String)
  | unknownCommand (name : String) (close : List String)
  | missingCommand
  | combination (text : String)
  deriving DecidableEq, Repr

namespace Misuse

/-- Names that may have been meant. -/
def proposal : List String → String
  | [] => ""
  | [name] => s!" Did you mean {Text.quoted name}?"
  | names => " (Did you mean one of: " ++ ", ".intercalate (names.map Text.quoted) ++ "?)"

def message : Misuse → String
  | .needsValue spelling => s!"Option {Text.quoted spelling} requires an argument."
  | .takesNoValue spelling => s!"Option {Text.quoted spelling} does not take a value."
  | .unknownSwitch spelling close => s!"No such option {Text.quoted spelling}." ++ proposal close
  | .missingArgument name => s!"Missing argument '{name}'."
  | .surplusArguments [argument] => s!"Got unexpected extra argument ({argument})"
  | .surplusArguments arguments =>
    "Got unexpected extra arguments (" ++ " ".intercalate arguments ++ ")"
  | .unknownCommand name close => s!"No such command {Text.quoted name}." ++ proposal close
  | .missingCommand => "Missing command."
  | .combination text => text

/-- Whether the message comes with a reminder of the grammar. -/
def showsGrammar : Misuse → Bool
  | .needsValue _ | .takesNoValue _ => false
  | _ => true

end Misuse

/-- A command line as read so far. -/
structure Arguments where
  flags : List String
  values : List (String × String)
  positions : List String
  deriving DecidableEq, Repr

namespace Arguments

def empty : Arguments := ⟨[], [], []⟩

def has (a : Arguments) (key : String) : Bool := a.flags.contains key

/-- The value given last. -/
def value? (a : Arguments) (key : String) : Option String :=
  (a.values.reverse.find? fun entry => entry.1 = key).map (·.2)

def raise (a : Arguments) (key : String) : Arguments := { a with flags := a.flags ++ [key] }

def give (a : Arguments) (key value : String) : Arguments :=
  { a with values := a.values ++ [(key, value)] }

end Arguments

namespace Grammar

def switch? (g : Grammar) (spelling : String) : Option Switch :=
  g.switches.find? fun s => s.spellings.contains spelling

def isLong (spelling : String) : Bool :=
  2 < spelling.length || spelling.toList.take 2 = ['-', '-']

def longSpellings (g : Grammar) : List String :=
  (g.switches.flatMap Switch.spellings).filter isLong

/-- A word cut at its first equals sign. -/
def cut (word : List Char) : List Char × Option (List Char) :=
  match word.span (· ≠ '=') with
  | (name, _ :: value) => (name, some value)
  | (name, []) => (name, none)

/-- What a word says about switches: it may leave one waiting for the next word. -/
structure Reading where
  arguments : Arguments
  waiting : Option (Switch × String)

def readLetters (g : Grammar) (a : Arguments) : List Char → Except Misuse Reading
  | [] => .ok ⟨a, none⟩
  | letter :: rest =>
    let spelling := String.ofList ['-', letter]
    match g.switch? spelling with
    | none => .error (.unknownSwitch spelling [])
    | some s =>
      if !s.takesValue then g.readLetters (a.raise s.key) rest
      else if rest.isEmpty then .ok ⟨a, some (s, spelling)⟩
      else .ok ⟨a.give s.key (String.ofList rest), none⟩

/-- Reads a word that begins with a dash: as a whole if it can be, else letter by letter. -/
def readWord (g : Grammar) (a : Arguments) (word : List Char) : Except Misuse Reading :=
  let (name, value) := cut word
  let spelling := String.ofList name
  match if isLong spelling then g.switch? spelling else none with
  | some s =>
    match s.takesValue, value with
    | true, some v => .ok ⟨a.give s.key (String.ofList v), none⟩
    | true, none => .ok ⟨a, some (s, spelling)⟩
    | false, some _ => .error (.takesNoValue spelling)
    | false, none => .ok ⟨a.raise s.key, none⟩
  | none =>
    if word.take 2 = ['-', '-'] then
      .error (.unknownSwitch spelling (Text.proposals spelling g.longSpellings))
    else g.readLetters a (word.drop 1)

def isSwitch (word : String) : Bool := 1 < word.length && word.toList.head? = some '-'

/-- Reads words one after the other; a waiting switch takes the next word whatever it is. -/
def scan (g : Grammar) : Option (Switch × String) → List String → Arguments →
    Except Misuse Arguments
  | some (s, _), word :: rest, a => g.scan none rest (a.give s.key word)
  | some (_, spelling), [], _ => .error (.needsValue spelling)
  | none, [], a => .ok a
  | none, word :: rest, a =>
    if word = "--" then .ok { a with positions := a.positions ++ rest }
    else if isSwitch word then
      match g.readWord a word.toList with
      | .ok r => g.scan r.waiting rest r.arguments
      | .error misuse => .error misuse
    else if g.mixed then g.scan none rest { a with positions := a.positions ++ [word] }
    else .ok { a with positions := a.positions ++ word :: rest }

/-- The argument that is missing, else those that are too many. -/
def checkPositions : List Position → List String → Except Misuse Unit
  | [], [] => .ok ()
  | [], surplus => .error (.surplusArguments surplus)
  | p :: rest, [] => if p.required then .error (.missingArgument p.name) else checkPositions rest []
  | _ :: rest, _ :: given => checkPositions rest given

/-- The reminder of a grammar that precedes a message. -/
def reminder (g : Grammar) : String :=
  s!"Usage: {g.command} {g.signature}\nTry '{g.command} --help' for help.\n\n"

end Grammar

end Lifecycle.Console
