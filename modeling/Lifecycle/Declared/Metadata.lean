import Lifecycle.Declared.Expression
import Lifecycle.Schema.Stock
/-!
Metadata schemas declared as data. Their shapes are built in the order in which they are declared. -/

namespace Lifecycle.Declared

def shape : Value → Shape
  | .text "bool" => .flag
  | .text "int" => .integer
  | .text "float" => .number
  | .text "str" => .text
  | .list [.text "opt", inner] => .optional (shape inner)
  | .list [.text "list", inner] => .list (shape inner)
  | .list [.text "dict", inner] => .map (shape inner)
  | .list (.text "literal" :: names) => .choice (names.map Value.asText)
  | _ => .anything

/-- A field with a default may be left out. -/
def field (v : Value) : StateM Stock Field := do
  return ⟨v.textAt 0, ← (shape (v.item 1)).built, v.items.length < 3⟩

/-- A name that begins with an underscore is private and declares nothing. -/
def isPrivate (name : String) : Bool := name.toList.head? = some '_'

/-- Of fields declared under one name the last counts, in the place of the first. -/
def fields (list : List Value) : StateM Stock (List Field) := do
  let declared := (← list.mapM field).filter fun f => !isPrivate f.name
  return (Keyed.ofList (declared.map fun f => (f.name, f))).map (·.2)

def extras : String → Extras
  | "forbid" => .forbidden
  | "allow" => .kept
  | _ => .ignored

/-- A schema of its own, or one that the host knows by name. -/
def schema (w : Vocabulary) : Value → StateM Stock Schema
  | .text name => return w.schema name
  | .list [.text "type", t] => return .shape (← (shape t).built)
  | .list [.text "model", kind, declared] =>
    return .record "Meta" (extras kind.asText) (← fields declared.items)
  | _ => return .unusable

end Lifecycle.Declared
