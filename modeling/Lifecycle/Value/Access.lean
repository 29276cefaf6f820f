import Lifecycle.Value.Basic
/-! Taking values apart where a shape is expected: what does not fit counts as empty. -/

namespace Lifecycle.Value

def entries : Value → List (String × Value)
  | .map entries => entries
  | _ => []

def items : Value → List Value
  | .list vs => vs
  | _ => []

def field? (v : Value) (name : String) : Option Value := Keyed.find? v.entries name

/-- The entry of that name, null if there is none. -/
def field (v : Value) (name : String) : Value := (v.field? name).getD .null

def item (v : Value) (n : Nat) : Value := v.items.getD n .null

def asText? : Value → Option String
  | .text s => some s
  | _ => none

def asText (v : Value) : String := v.asText?.getD ""

def asFlag : Value → Bool
  | .flag b => b
  | _ => false

def asNat : Value → Nat
  | .integer n => n.toNat
  | _ => 0

def textAt (v : Value) (n : Nat) : String := (v.item n).asText

def texts (v : Value) : List String := v.items.map asText

def ofTexts (list : List String) : Value := .list (list.map .text)

end Lifecycle.Value
