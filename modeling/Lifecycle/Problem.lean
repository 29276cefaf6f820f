import Lifecycle.Timestamp.Reader
import Lifecycle.Value.Basic
/-!
What can be wrong with a document, place by place, and readings that collect every such problem
instead of stopping at the first. -/

namespace Lifecycle

/-- Why a value does not fit its place. -/
inductive Misfit where
  | missing
  | surplus
  | notText
  | notFlag
  | unclearFlag
  | notInteger
  | fractional
  | unclearInteger
  | hugeInteger
  | infiniteInteger
  | below (least : Int)
  | emptyText
  | notNumber
  | notList
  | notMap
  | notRecord (kind : String)
  | notTime
  | badCount (why : Misdating)
  | badDate (why : Misdating)
  | notListed (alternatives : List String)
  | rule (text : String)
  deriving DecidableEq, Repr

/-- Alternatives as prose, the last after `or`. -/
def alternatives : List String → String
  | [] => ""
  | [one] => one
  | [one, other] => one ++ " or " ++ other
  | one :: rest => one ++ ", " ++ alternatives rest

def Misfit.message : Misfit → String
  | .missing => "Field required"
  | .surplus => "Extra inputs are not permitted"
  | .notText => "Input should be a valid string"
  | .notFlag => "Input should be a valid boolean"
  | .unclearFlag => "Input should be a valid boolean, unable to interpret input"
  | .notInteger => "Input should be a valid integer"
  | .fractional => "Input should be a valid integer, got a number with a fractional part"
  | .unclearInteger => "Input should be a valid integer, unable to parse string as an integer"
  | .hugeInteger => "Unable to parse input string as an integer, exceeded maximum size"
  | .infiniteInteger => "Input should be a finite number"
  | .below least => s!"Input should be greater than or equal to {least}"
  | .emptyText => "String should have at least 1 character"
  | .notNumber => "Input should be a valid number"
  | .notList => "Input should be a valid list"
  | .notMap => "Input should be a valid dictionary"
  | .notRecord kind => s!"Input should be a valid dictionary or instance of {kind}"
  | .notTime => "Input should be a valid datetime"
  | .badCount why => s!"Input should be a valid datetime, {why.message}"
  | .badDate why => s!"Input should be a valid datetime or date, {why.message}"
  | .notListed names => s!"Input should be {alternatives names}"
  | .rule text => s!"Value error, {text}"

/-- A misfit and the names and numbers that lead to it. -/
structure Problem where
  path : List String
  misfit : Misfit
  deriving DecidableEq, Repr

namespace Problem

def location (p : Problem) : String := ".".intercalate p.path

def text (p : Problem) : String :=
  if p.location = "" then p.misfit.message else p.location ++ ": " ++ p.misfit.message

def under (step : String) (p : Problem) : Problem := { p with path := step :: p.path }

end Problem

/-- What was read, as far as anything could be, and all that is wrong with it. -/
structure Reading (α : Type) where
  value? : Option α
  problems : List Problem

namespace Reading

variable {α β : Type}

def good (a : α) : Reading α := ⟨some a, []⟩

def bad (why : Misfit) : Reading α := ⟨none, [⟨[], why⟩]⟩

def map (f : α → β) (r : Reading α) : Reading β := ⟨r.value?.map f, r.problems⟩

/-- Reads both sides, so that the problems of both are kept. -/
def both (f : Reading (α → β)) (r : Reading α) : Reading β :=
  ⟨f.value?.bind fun g => r.value?.map g, f.problems ++ r.problems⟩

instance : Functor Reading where
  map f := Reading.map f

instance : Seq Reading where
  seq f r := both f (r ())

def under (step : String) (r : Reading α) : Reading α :=
  ⟨r.value?, r.problems.map (Problem.under step)⟩

/-- A problem where a condition fails; what has problems already is not tested. -/
def require (condition : α → Bool) (why : Misfit) (r : Reading α) : Reading α :=
  match r.value?, r.problems with
  | some a, [] => if condition a then r else bad why
  | _, _ => r

def ofExcept (r : Except Misfit α) : Reading α :=
  match r with
  | .ok a => good a
  | .error why => bad why

/-- Every item in turn, each named by its number. -/
def items (read : Value → Reading α) (first : Nat) : List Value → Reading (List α)
  | [] => good []
  | v :: rest => both (map List.cons (under (toString first) (read v))) (items read (first + 1) rest)

/-- Every entry in turn, each named by its key. -/
def entries (read : Value → Reading α) : List (String × Value) → Reading (Keyed String α)
  | [] => good []
  | (key, v) :: rest =>
    both (map (fun a more => (key, a) :: more) (under key (read v))) (entries read rest)

end Reading

end Lifecycle
