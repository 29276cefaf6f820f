import Lifecycle.Json.Reader
import Lifecycle.Problem
/-!
Everything that can go wrong, by its cause. `Fault.message` is the one place where causes get their
wording. -/

namespace Lifecycle

/-- A finding of validation, tagged with the phase it belongs to. -/
structure Finding where
  phase : Option String
  message : String
  deriving DecidableEq, Repr

def Finding.text (f : Finding) : String :=
  match f.phase with
  | some phase => if phase = "" then f.message else s!"phase {phase}: {f.message}"
  | none => f.message

/-- A transition that fired, or what one would do. -/
structure Move where
  source : String
  target : String
  event : String
  description : String
  executed : Bool
  permitted : Bool
  blockedReason : Option String
  deriving DecidableEq, Repr

/-- The two ends of a transition and the event between them. -/
structure Arrow where
  source : String
  target : String
  event : String
  deriving DecidableEq, Repr

def Arrow.text (a : Arrow) : String := s!"{a.source} -> {a.target} via {Text.quoted a.event}"

/-- Problems are listed beside a message, and a mark stands for them in it. -/
def problemsMark : String := "<problems>"

/-- What a stored text failed at. -/
inductive Undecoded where
  | syntactic (fault : SyntaxFault)
  | malformed (problems : List Problem)
  deriving DecidableEq, Repr

def Undecoded.message : Undecoded → String
  | .syntactic fault => fault.message
  | .malformed _ => problemsMark

inductive Fault where
  /-- A failure without a kind of its own. -/
  | general (text : String)
  | notBound (project : String)
  | initialization (project : String) (cause : Fault)
  | configuration (text : String)
  | invalidSchema
  | alreadyRegistered (name : String)
  | notFound (text : String)
  | unknownType (name : String) (known : List String)
  | usage (text : String)
  | transition (text : String)
  | guardRaised (arrow : Arrow) (cause : Fault)
  | notConfigured (state event : String) (available : List String)
  | blocked (arrow : Arrow) (reason : String)
  | exitAction (arrow : Arrow) (cause : Fault)
  | entryAction (arrow : Arrow) (cause : Fault)
  | noDeterminer (state : String)
  | unmatched (state value : String) (values : List String)
  | undetermined (state : String) (cause : Fault)
  | noEvent (state : String)
  | invalid (finding : Finding)
  | invalidProject (context : String) (findings : List Finding)
  | storage (text : String)
  | noState (place : String)
  | unreadable (place : String) (why : Undecoded)
  | unencodable (place : String)
  | unsaved (move : Move) (cause : Fault)
  /-- A value that is no document of the kind asked for. -/
  | malformed (problems : List Problem)
  | missingFile (text : String)
  | system (text : String)
  | badValue (text : String)
  | badType (text : String)
  | noAttribute (text : String)
  | absentKey (key : String)
  /-- Lists and maps are nested too deeply to be worked through. -/
  | tooDeep (text : String)
  | runtime (text : String)
  deriving Repr

namespace Fault

def commaList (texts : List String) : String := ", ".intercalate texts

def message : Fault → String
  | general text => text
  | notBound project => s!"project {project} has no machine bound"
  | initialization project cause => s!"initialize project {project}: {message cause}"
  | configuration text => text
  | invalidSchema => "invalid metadata schema"
  | alreadyRegistered name => s!"project type {Text.quoted name} is already registered"
  | notFound text => text
  | unknownType name known =>
    s!"unknown project type: {name}" ++
      (if known.isEmpty then "" else s!" (registered: {commaList known})")
  | usage text => text
  | transition text => text
  | guardRaised arrow cause => s!"guard for {arrow.text} raised: {message cause}"
  | notConfigured state event available =>
    s!"event not configured: {Text.quoted event} from state {state}" ++
      (if available.isEmpty then "" else s!" (available: {commaList available})")
  | blocked arrow reason => s!"transition {arrow.text} blocked by guard: {reason}"
  | exitAction arrow cause => s!"exit action for {arrow.text} failed: {message cause}"
  | entryAction arrow cause => s!"entry action for {arrow.text} failed: {message cause}"
  | noDeterminer state =>
    s!"no event determiner for state {state}; list the available transitions and fire one explicitly"
  | unmatched state value values =>
    let available := commaList (values.map fun v => "\"" ++ v ++ "\"")
    s!"no branch defined for discriminator value \"{value}\" from state {state} " ++
      s!"(available values: {available})"
  | undetermined state cause => s!"failed to determine event from state {state}: {message cause}"
  | noEvent state => s!"event determiner for state {state} returned no event"
  | invalid finding => finding.text
  | invalidProject context findings =>
    context ++ ": " ++ "; ".intercalate (findings.map Finding.text)
  | storage text => text
  | noState place => s!"no project state {place}"
  | unreadable place why => s!"Failed to decode {place}: {why.message}"
  | unencodable place => s!"Failed to encode project state for {place}"
  | unsaved move cause =>
    s!"advanced {move.source} -> {move.target} via {Text.quoted move.event} " ++
      s!"but failed to save: {message cause}"
  | malformed _ => problemsMark
  | missingFile text => text
  | system text => text
  | badValue text => text
  | badType text => text
  | noAttribute text => text
  | absentKey key => Text.quoted key
  | tooDeep text => text
  | runtime text => text

/-- A text that goes beyond what can be read is no matter of its syntax. -/
def ofExcess (which : Json.Excess) : Fault :=
  match which with
  | .digits _ => .badValue which.message
  | .nestedList | .nestedMap => .tooDeep which.message

/-- Work whose steps lie too deep inside each other. -/
def tooManySteps : Fault := .tooDeep "maximum recursion depth exceeded while calling a Python object"

/-- Failures while moving a project between states. -/
def isTransition : Fault → Bool
  | transition _ | guardRaised _ _ | notConfigured _ _ _ | blocked _ _ | exitAction _ _
  | entryAction _ _ | noDeterminer _ | unmatched _ _ _ | undetermined _ _ | noEvent _ => true
  | _ => false

def isValidation : Fault → Bool
  | invalid _ | invalidProject _ _ => true
  | _ => false

/-- Failures of loading, saving and deleting. -/
def isStorage : Fault → Bool
  | storage _ | noState _ | unreadable _ _ | unencodable _ | unsaved _ _ => true
  | _ => false

def isNotFound : Fault → Bool
  | notFound _ | unknownType _ _ | noState _ => true
  | _ => false

def isConfiguration : Fault → Bool
  | configuration _ | invalidSchema | alreadyRegistered _ => true
  | _ => false

def isUsage : Fault → Bool
  | usage _ => true
  | _ => false

/-- Failures that this library reports of its own accord. -/
def isOwn (f : Fault) : Bool :=
  isTransition f || isValidation f || isStorage f || isNotFound f || isConfiguration f ||
    isUsage f || match f with
      | general _ | notBound _ | initialization _ _ => true
      | _ => false

end Fault

namespace Reading

/-- A reading that must be free of problems. -/
def result {α : Type} (r : Reading α) : Except Fault α :=
  match r.problems, r.value? with
  | [], some a => .ok a
  | problems, _ => .error (.malformed problems)

end Reading

/-- A computation on a state that outlives a failure. -/
abbrev Attempt (s α : Type) := ExceptT Fault (StateM s) α

namespace Attempt

variable {s t α : Type}

/-- Works on a part of the state. -/
def focus (get : s → t) (set : t → s → s) (work : Attempt t α) : Attempt s α :=
  fun whole =>
    let (result, part) := work (get whole)
    (result, set part whole)

def ofExcept (e : Except Fault α) : Attempt s α := fun state => (e, state)

/-- Renames the failure of a computation; what it did to the state stays. -/
def rethrow (wrap : Fault → Fault) (work : Attempt s α) : Attempt s α :=
  fun state =>
    match work state with
    | (.error fault, after) => (.error (wrap fault), after)
    | outcome => outcome

end Attempt

end Lifecycle
