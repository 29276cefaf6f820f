import Lifecycle.Document.Record
import Lifecycle.Json.Printer
import Lifecycle.Value.Writing
/-!
Documents written out: records become maps of their fields and times become texts. A list of records
of one kind shows of a record of another kind only the fields that both kinds have. -/

namespace Lifecycle

/-- What a field of a record holds where nothing stands in it that does not belong there. -/
inductive FieldUse where
  | single
  | count
  /-- A list of records. -/
  | records (kind : RecordKind)
  /-- A map whose keys are not known beforehand. -/
  | table
  deriving DecidableEq, Repr

namespace FieldUse

def ofName (field : String) : FieldUse :=
  match field with
  | "iteration" => .count
  | "inputs" | "outputs" => .records .artifact
  | "tasks" => .records .task
  | "phases" | "agent_sessions" | "metadata" => .table
  | _ => .single

def kind? : FieldUse → Option RecordKind
  | .records kind => some kind
  | _ => none

end FieldUse

/-- The fields that tasks and artifacts have in common. -/
def commonFields : List String := ["created_at", "metadata"]

namespace Value

mutual

/-- A value as it is written. -/
def bare : Value → Value
  | .moment t => .text t.print
  | .list items => .list (bareItems none items)
  | .map entries => .map (bareEntries entries)
  | .record _ fields => .map (bareFields false fields)
  | v => v

/-- The items of a list that is for records of a kind, or for anything. -/
def bareItems (kind? : Option RecordKind) : List Value → List Value
  | [] => []
  | .record kind fields :: rest =>
    .map (bareFields (kind?.any (· ≠ kind)) fields) :: bareItems kind? rest
  | v :: rest => bare v :: bareItems kind? rest

def bareEntries : List (String × Value) → List (String × Value)
  | [] => []
  | (key, v) :: rest => (key, bare v) :: bareEntries rest

/-- The fields of a record, or the common ones only. In a count a flag stands for zero or one. -/
def bareFields (common : Bool) : List (String × Value) → List (String × Value)
  | [] => []
  | (name, v) :: rest =>
    let others := bareFields common rest
    if common && !commonFields.contains name then others
    else match v with
      | .list items => (name, .list (bareItems (FieldUse.ofName name).kind? items)) :: others
      | .flag b =>
        (name, if FieldUse.ofName name = .count then .integer (if b then 1 else 0) else .flag b) ::
          others
      | v => (name, bare v) :: others

end

mutual

/-- Whether what stands in a place for anything has at most so many levels; what holds nothing is a level
of its own. -/
def within : Nat → Value → Bool
  | 0, _ => false
  | levels + 1, .list items => withinItems levels items
  | levels + 1, .map entries => withinEntries levels entries
  | levels + 1, .record _ fields => fieldsFit false levels fields
  | _ + 1, _ => true

def withinItems : Nat → List Value → Bool
  | _, [] => true
  | levels, v :: rest => within levels v && withinItems levels rest

def withinEntries : Nat → List (String × Value) → Bool
  | _, [] => true
  | levels, (_, v) :: rest => within levels v && withinEntries levels rest

/-- Whether what the fields of a record hold, or the common ones only, has at most so many levels. The
levels of what a field is declared to hold do not count. -/
def fieldsFit (common : Bool) (levels : Nat) : List (String × Value) → Bool
  | [] => true
  | (name, v) :: rest =>
    fieldsFit common levels rest &&
      (common && !commonFields.contains name ||
        match v with
        | .list items =>
          match (FieldUse.ofName name).kind? with
          | some kind => itemsFit kind levels items
          | none => 0 < levels && withinItems (levels - 1) items
        | .map entries =>
          if FieldUse.ofName name = .table then entriesFit levels entries
          else 0 < levels && withinEntries (levels - 1) entries
        | .record _ fields => fieldsFit false levels fields
        | _ => true)

/-- The same for a list of records, in which every artifact is a level. -/
def itemsFit (kind : RecordKind) (levels : Nat) : List Value → Bool
  | [] => true
  | v :: rest =>
    itemsFit kind levels rest && (kind ≠ .artifact || 0 < levels) &&
      let inner := if kind = .artifact then levels - 1 else levels
      match v with
      | .record other fields => fieldsFit (other ≠ kind) inner fields
      | v => within inner v

/-- The same for a map whose keys are not known beforehand. -/
def entriesFit (levels : Nat) : List (String × Value) → Bool
  | [] => true
  | (_, v) :: rest =>
    entriesFit levels rest &&
      match v with
      | .record _ fields => fieldsFit false levels fields
      | v => within levels v

end

/-- Whether a value has at most so many levels; a record on its own is none. -/
def fits (levels : Nat) : Value → Bool
  | .record _ fields => fieldsFit false levels fields
  | v => within levels v

end Value

/-- How deep what is kept in a document may nest when it is written out. -/
def depthLimit : Nat := 255

/-- The stored text, unless the document holds something that no text can, or nests too deeply.
Numbers that are not finite are stored as null. -/
def Document.print? (d : Document) : Option String :=
  let v := d.toValue
  if v.fits depthLimit && v.bare.writable then
    some (Json.print (.indented 2) v.bare.finite ++ "\n")
  else none

/-- What is shown of a record, which must not nest too deeply for it. -/
def Value.present (v : Value) : Except Fault Value :=
  if v.fits depthLimit then .ok v.bare
  else .error (.badValue "Maximum serialization depth exceeded")

end Lifecycle
