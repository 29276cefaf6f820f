import Lifecycle.Decimal.Notation
import Lifecycle.Keyed
import Lifecycle.Text.Quoted
import Lifecycle.Timestamp.Basic
/-!
Document values: what metadata, settings and stored texts are made of, and the records that documents
consist of. Maps keep the order of their keys. -/

namespace Lifecycle

open Decimal (Binary64)

/-- The kinds of records that documents consist of. -/
inductive RecordKind where
  | document | phase | statechart | task | artifact
  deriving DecidableEq, Repr

/-- What a kind of record is called in messages. -/
def RecordKind.text : RecordKind → String
  | .document => "ProjectState"
  | .phase => "PhaseState"
  | .statechart => "StatechartState"
  | .task => "TaskState"
  | .artifact => "ArtifactState"

inductive Value where
  | null
  | flag (b : Bool)
  | integer (n : Int)
  | real (x : Binary64)
  | text (s : String)
  | list (items : List Value)
  | map (entries : List (String × Value))
  /-- Something that lives in memory only and that no text can hold. -/
  | live
  /-- A time that is not written out yet. -/
  | moment (t : Timestamp)
  /-- A record, which has the fields of its kind and no others. -/
  | record (kind : RecordKind) (fields : List (String × Value))
  deriving Repr, Inhabited

abbrev Metadata := Keyed String Value

namespace Value

def ofOption {α : Type} (f : α → Value) : Option α → Value
  | some a => f a
  | none => .null

/-- What counts as true: everything but null, false, zero and whatever is empty. -/
def truthy : Value → Bool
  | .null => false
  | .flag b => b
  | .integer n => n != 0
  | .real x => !x.isZero
  | .text s => s != ""
  | .list items => !items.isEmpty
  | .map entries => !entries.isEmpty
  | .live | .moment _ | .record _ _ => true

/-- The number a value stands for where flags count as zero and one. -/
def number? : Value → Option (Int ⊕ Binary64)
  | .flag b => some (.inl (if b then 1 else 0))
  | .integer n => some (.inl n)
  | .real x => some (.inr x)
  | _ => none

def sameNumber : Int ⊕ Binary64 → Int ⊕ Binary64 → Bool
  | .inl m, .inl n => m = n
  | .inl n, .inr x | .inr x, .inl n => x.toInt? = some n
  | .inr x, .inr y => !x.isNaN && (x = y || (x.isZero && y.isZero))

mutual

/-- Equality of content: numbers by value, maps without regard to order. -/
def same (left right : Value) : Bool :=
  match left with
  | .null => match right with | .null => true | _ => false
  | .text s => match right with | .text t => s = t | _ => false
  | .list items => match right with | .list others => sameItems items others | _ => false
  | .map entries =>
    match right with
    | .map others => entries.length = others.length && sameEntries entries others
    | _ => false
  | .live => false
  | .moment t => match right with | .moment u => t.same u | _ => false
  | .record kind fields =>
    match right with
    | .record other others =>
      kind = other && fields.length = others.length && sameEntries fields others
    | _ => false
  | .flag b => sameScalar (.inl (if b then 1 else 0)) right
  | .integer n => sameScalar (.inl n) right
  | .real x => sameScalar (.inr x) right
where
  sameScalar (number : Int ⊕ Binary64) (other : Value) : Bool :=
    match other.number? with
    | some o => sameNumber number o
    | none => false

def sameItems (left right : List Value) : Bool :=
  match left with
  | [] => right.isEmpty
  | v :: rest => match right with | w :: others => same v w && sameItems rest others | [] => false

def sameEntries (left right : List (String × Value)) : Bool :=
  match left with
  | [] => true
  | (key, v) :: rest =>
    match Keyed.find? right key with
    | some w => same v w && sameEntries rest right
    | none => false

end

mutual

/-- A value as it reads inside a list or map. -/
def shown : Value → String
  | .null => "None"
  | .flag b => if b then "True" else "False"
  | .integer n => String.ofList (Decimal.integer n)
  | .real x => x.text
  | .text s => Text.quoted s
  | .list items => "[" ++ ", ".intercalate (shownItems items) ++ "]"
  | .map entries => "\x7b" ++ ", ".intercalate (shownEntries entries) ++ "\x7d"
  | .live => "<live>"
  | .moment t => t.shown
  | .record kind fields => kind.text ++ "(" ++ ", ".intercalate (shownFields fields) ++ ")"

def shownItems : List Value → List String
  | [] => []
  | v :: rest => shown v :: shownItems rest

def shownEntries : List (String × Value) → List String
  | [] => []
  | (key, v) :: rest => (Text.quoted key ++ ": " ++ shown v) :: shownEntries rest

def shownFields : List (String × Value) → List String
  | [] => []
  | (name, v) :: rest => (name ++ "=" ++ shown v) :: shownFields rest

end

/-- A value as text of its own: a text stands for itself. -/
def display : Value → String
  | .text s => s
  | v => shown v

/-- The name that a value stands for; null is the empty name. -/
def name : Value → String
  | .null => ""
  | v => display v

end Value

end Lifecycle
