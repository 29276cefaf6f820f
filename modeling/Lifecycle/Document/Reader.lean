import Lifecycle.Decimal.Written
import Lifecycle.Document.Basic
import Lifecycle.Json.Reader
import Lifecycle.Problem
import Lifecycle.Text.Slug
/-!
Documents read from values, generously: spelled-out flags and numbers are taken for what they say,
fields that are left out get their defaults, and unknown fields are passed over. In a document that
was read everything is what belongs in its place. -/

namespace Lifecycle

namespace Reading

def text : Value → Reading String
  | .text s => good s
  | _ => bad .notText

def offWords : List String := ["0", "off", "f", "false", "n", "no"]

def onWords : List String := ["1", "on", "t", "true", "y", "yes"]

def asciiLower (s : String) : String :=
  String.ofList (s.toList.map fun c => if 'A' ≤ c ∧ c ≤ 'Z' then Char.ofNat (c.toNat + 32) else c)

def flagOfInt (n : Int) : Except Misfit Bool :=
  if n = 0 then .ok false else if n = 1 then .ok true else .error .unclearFlag

def flag? : Value → Except Misfit Bool
  | .flag b => .ok b
  | .text s =>
    if asciiLower s ∈ offWords then .ok false
    else if asciiLower s ∈ onWords then .ok true
    else .error .unclearFlag
  | .integer n => if Decimal.isWord n then flagOfInt n else .error .notFlag
  | .real x =>
    match x.toInt? with
    | some n => if n.natAbs < Nat.pow 2 63 then flagOfInt n else .error .notFlag
    | none => .error .notFlag
  | _ => .error .notFlag

def flag (v : Value) : Reading Bool := ofExcept (flag? v)

def integerText (s : String) : Reading Int :=
  if Decimal.overlong s.toList then bad .hugeInteger
  else match Decimal.written? s.toList with
    | some n => good n
    | none => bad .unclearInteger

def integer : Value → Reading Int
  | .integer n => good n
  | .flag b => good (if b then 1 else 0)
  | .text s => integerText s
  | .real x =>
    if !x.isFinite then bad .infiniteInteger
    else match x.toInt? with
      | some n => if n.natAbs < Nat.pow 2 63 then good n else bad .hugeInteger
      | none => bad .fractional
  | _ => bad .notInteger

/-- The calendar begins with the year one. -/
def inCalendar (t : Timestamp) : Reading Timestamp :=
  if t.year = 0 then bad (.badCount .yearZero) else good t

def count (r : Except Misdating Timestamp) : Reading Timestamp :=
  match r with
  | .ok t => inCalendar t
  | .error why => bad (.badCount why)

def time : Value → Reading Timestamp
  | .text s =>
    match Timestamp.read s.toList with
    | .ok t => inCalendar t
    | .error why => bad (.badDate why)
  | .integer n => if Decimal.Binary64.reaches n then count (Timestamp.ofCount n) else bad .notTime
  | .real x => count (Timestamp.ofReal x)
  | _ => bad .notTime

def optionalTime : Value → Reading (Option Timestamp)
  | .null => good none
  | v => map some (time v)

/-- A place that holds what was read. -/
def placed {α : Type} (r : Reading α) : Reading (Slot α) := map .proper r

def list {α : Type} (read : Value → Reading α) : Value → Reading (List (Slot α))
  | .list vs => items (fun v => placed (read v)) 0 vs
  | _ => bad .notList

def table {α : Type} (read : Value → Reading α) : Value → Reading (Keyed String (Slot α))
  | .map es => entries (fun v => placed (read v)) es
  | _ => bad .notMap

def anyMap : Value → Reading Metadata
  | .map es => good es
  | _ => bad .notMap

def nonEmpty (r : Reading String) : Reading String := require (· != "") .emptyText r

def atLeast (least : Int) (r : Reading Int) : Reading Int :=
  require (fun n => least ≤ n) (.below least) r

/-- The field of that name, read where it stands. -/
def field {α : Type} (source : List (String × Value)) (name : String) (read : Value → Reading α) :
    Reading (Slot α) :=
  match Keyed.find? source name with
  | some v => under name (placed (read v))
  | none => under name (bad .missing)

/-- A field that may be left out. -/
def fieldOr {α : Type} (source : List (String × Value)) (name : String) (default : α)
    (read : Value → Reading α) : Reading (Slot α) :=
  match Keyed.find? source name with
  | some v => under name (placed (read v))
  | none => good (.proper default)

/-- A record's fields; `kind` names what was asked for. -/
def record {α : Type} (kind : String) (read : List (String × Value) → Reading α) :
    Value → Reading α
  | .map source => read source
  | _ => bad (.notRecord kind)

/-- One of the texts that name something. -/
def named {α : Type} (ofText? : String → Option α) (why : Misfit) : Value → Reading α
  | .text s =>
    match ofText? s with
    | some a => good a
    | none => bad why
  | _ => bad .notText

def phaseStatus : Value → Reading PhaseStatus :=
  let names := ", ".intercalate (PhaseStatus.listed.map PhaseStatus.text)
  named PhaseStatus.ofText? (.rule s!"Phase status must be one of: {names}")

def taskStatus : Value → Reading TaskStatus :=
  let names := ", ".intercalate (TaskStatus.listed.map TaskStatus.text)
  named TaskStatus.ofText? (.rule s!"Task status must be one of: {names}")

def projectName (v : Value) : Reading String :=
  require Text.isName
    (.rule "Project name must be lowercase alphanumeric words separated by single hyphens") (text v)

def projectType (v : Value) : Reading String :=
  require Text.isTypeName
    (.rule "Project type must be lowercase alphanumeric with underscores") (text v)

end Reading

open Reading

/-- `now` is the time at which a field that was left out counts as made. -/
def Artifact.read (now : Timestamp) : Value → Reading Artifact :=
  record "ArtifactState" fun source =>
    Artifact.mk <$> field source "type" (nonEmpty ∘ text)
      <*> field source "path" (nonEmpty ∘ text)
      <*> fieldOr source "approved" false flag
      <*> fieldOr source "created_at" now time
      <*> fieldOr source "metadata" [] anyMap

def Task.read (now : Timestamp) : Value → Reading Task :=
  record "TaskState" fun source =>
    Task.mk <$> field source "id" (nonEmpty ∘ text)
      <*> field source "name" (nonEmpty ∘ text)
      <*> field source "phase" (nonEmpty ∘ text)
      <*> fieldOr source "status" .pending taskStatus
      <*> fieldOr source "created_at" now time
      <*> fieldOr source "updated_at" now time
      <*> fieldOr source "started_at" none optionalTime
      <*> fieldOr source "completed_at" none optionalTime
      <*> fieldOr source "iteration" 1 (atLeast 1 ∘ integer)
      <*> fieldOr source "assigned_agent" "implementer" text
      <*> fieldOr source "inputs" [] (list (Artifact.read now))
      <*> fieldOr source "outputs" [] (list (Artifact.read now))
      <*> fieldOr source "metadata" [] anyMap

def Phase.read (now : Timestamp) : Value → Reading Phase :=
  record "PhaseState" fun source =>
    Phase.mk <$> fieldOr source "status" .pending phaseStatus
      <*> fieldOr source "enabled" true flag
      <*> fieldOr source "created_at" now time
      <*> fieldOr source "started_at" none optionalTime
      <*> fieldOr source "completed_at" none optionalTime
      <*> fieldOr source "failed_at" none optionalTime
      <*> fieldOr source "iteration" 0 (atLeast 0 ∘ integer)
      <*> fieldOr source "inputs" [] (list (Artifact.read now))
      <*> fieldOr source "outputs" [] (list (Artifact.read now))
      <*> fieldOr source "tasks" [] (list (Task.read now))
      <*> fieldOr source "metadata" [] anyMap

def Statechart.read (now : Timestamp) : Value → Reading Statechart :=
  record "StatechartState" fun source =>
    Statechart.mk <$> field source "current_state" (nonEmpty ∘ text)
      <*> fieldOr source "updated_at" now time

def Document.read (now : Timestamp) : Value → Reading Document :=
  record "ProjectState" fun source =>
    Document.mk <$> field source "name" projectName
      <*> field source "type" projectType
      <*> fieldOr source "branch" "main" (nonEmpty ∘ text)
      <*> fieldOr source "description" "" text
      <*> fieldOr source "created_at" now time
      <*> fieldOr source "updated_at" now time
      <*> fieldOr source "phases" [] (table (Phase.read now))
      <*> field source "statechart" (Statechart.read now)
      <*> fieldOr source "agent_sessions" [] (table text)

end Lifecycle
