import Lifecycle.Fault
import Lifecycle.Text.Order
/-!
Shapes that metadata may be declared to have. Checking is strict: nothing is converted, a flag is no
number, and only a whole number may stand where any number is asked for, as long as it is in the
range of numbers. A choice must leave something to choose. Two schemas that allow the same count as one,
and the one that was checked against first gives problems their words. -/

namespace Lifecycle

inductive Shape where
  | flag
  | integer
  | number
  | text
  | anything
  | optional (inner : Shape)
  | list (inner : Shape)
  | map (inner : Shape)
  | choice (names : List String)
  deriving DecidableEq, Repr

/-- What becomes of entries that a record does not declare. -/
inductive Extras where
  | ignored | forbidden | kept
  deriving DecidableEq, Repr

structure Field where
  name : String
  shape : Shape
  required : Bool
  deriving DecidableEq, Repr

inductive Schema where
  | shape (s : Shape)
  | record (title : String) (extras : Extras) (fields : List Field)
  /-- A declaration that makes no schema. -/
  | unusable
  deriving DecidableEq, Repr

/-- The schemas that values were checked against, one of those that allow the same. -/
abbrev Checkers := List Schema

namespace Shape

/-- Whether a shape can be checked against. -/
def usable : Shape → Bool
  | .optional inner | .list inner | .map inner => usable inner
  | .choice names => !names.isEmpty
  | _ => true

/-- Whether two shapes allow the same: the order of a choice does not matter. -/
def agrees : Shape → Shape → Bool
  | .choice names, .choice others => names.all others.contains && others.all names.contains
  | .optional inner, .optional other | .list inner, .list other | .map inner, .map other =>
    agrees inner other
  | s, other => s = other

def misfit (why : Misfit) : List Problem := [⟨[], why⟩]

/-- Every place where a value departs from a shape. -/
def check : Shape → Value → List Problem
  | .anything, _ => []
  | .flag, v => match v with | .flag _ => [] | _ => misfit .notFlag
  | .integer, v => match v with | .integer _ => [] | _ => misfit .notInteger
  | .number, v =>
    match v with
    | .integer n => if Decimal.Binary64.reaches n then [] else misfit .notNumber
    | .real _ => []
    | _ => misfit .notNumber
  | .text, v => match v with | .text _ => [] | _ => misfit .notText
  | .optional inner, v => match v with | .null => [] | v => check inner v
  | .list inner, v =>
    match v with
    | .list vs => (vs.mapIdx fun n v => (check inner v).map (Problem.under (toString n))).flatten
    | _ => misfit .notList
  | .map inner, v =>
    match v with
    | .map es => es.flatMap fun entry => (check inner entry.2).map (Problem.under entry.1)
    | _ => misfit .notMap
  | .choice names, v =>
    let why := Misfit.notListed ((Text.distinct names).map Text.quoted)
    match v with
    | .text s => if s ∈ names then [] else misfit why
    | _ => misfit why

end Shape

namespace Schema

def checkField (source : List (String × Value)) (f : Field) : List Problem :=
  match Keyed.find? source f.name with
  | some v => (f.shape.check v).map (Problem.under f.name)
  | none => if f.required then [⟨[f.name], .missing⟩] else []

def surplus (fields : List Field) (source : List (String × Value)) : List Problem :=
  (source.filter fun entry => fields.all fun f => f.name != entry.1).map fun entry =>
    ⟨[entry.1], .surplus⟩

def checkRecord (extras : Extras) (fields : List Field) (source : List (String × Value)) :
    List Problem :=
  fields.flatMap (checkField source) ++
    (if extras = .forbidden then surplus fields source else [])

/-- Whether a declaration makes a schema. -/
def usable : Schema → Bool
  | .unusable => false
  | .shape s => s.usable
  | .record _ _ fields => fields.all fun f => f.shape.usable

def agrees : Schema → Schema → Bool
  | .shape s, .shape other => s.agrees other
  | s, other => s = other

def problems : Schema → Value → List Problem
  | .unusable, _ => []
  | .shape s, v => s.check v
  | .record title extras fields, v =>
    match v with
    | .map source => checkRecord extras fields source
    | _ => [⟨[], .notRecord title⟩]

/-- Every problem of a value, in the words of the checker that allows the same, if there is one. A
declaration that makes no schema cannot be checked against. -/
def check (s : Schema) (v : Value) : Attempt Checkers (List Problem) := do
  if !s.usable then throw .invalidSchema
  match (← get).find? s.agrees with
  | some checker => return checker.problems v
  | none =>
    modify (s :: ·)
    return s.problems v

end Schema

end Lifecycle
