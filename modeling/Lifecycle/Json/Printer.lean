import Lifecycle.Value.Basic
/-!
Values as JSON text in ASCII. Other characters are written by their UTF-16 units; numbers that JSON
lacks have the spellings `NaN` and `Infinity`, and what is no JSON value is written as null. -/

namespace Lifecycle.Json

/-- How items are set apart: one per line, or all on one line. -/
inductive Layout where
  | indented (width : Nat)
  | inline
  deriving DecidableEq

namespace Layout

def lineBreak : Layout → Nat → List Char
  | .indented width, depth => '\n' :: List.replicate (width * depth) ' '
  | .inline, _ => []

def comma : Layout → Nat → List Char
  | .indented width, depth => ',' :: lineBreak (.indented width) depth
  | .inline, _ => [',', ' ']

end Layout

def unit (code : Nat) : List Char := '\\' :: 'u' :: Text.hex 4 code

def escapeChar (c : Char) : List Char :=
  let code := c.toNat
  if c = '"' then ['\\', '"']
  else if c = '\\' then ['\\', '\\']
  else if c = '\n' then ['\\', 'n']
  else if c = '\r' then ['\\', 'r']
  else if c = '\t' then ['\\', 't']
  else if code = 0x0c then ['\\', 'f']
  else if code = 0x08 then ['\\', 'b']
  else if 0x20 ≤ code ∧ code < 0x7f then [c]
  else if code < 0x10000 then unit code
  else
    let offset := code - 0x10000
    unit (0xd800 + offset / 0x400) ++ unit (0xdc00 + offset % 0x400)

def writeText (s : String) : List Char :=
  '"' :: s.toList.flatMap escapeChar ++ ['"']

def numberSpelling : Decimal.Spelling := { Decimal.standardSpelling with nan := "NaN", infinity := "Infinity" }

mutual

def write (layout : Layout) (depth : Nat) : Value → List Char
  | .null => "null".toList
  | .flag b => if b then "true".toList else "false".toList
  | .integer n => Decimal.integer n
  | .real x => x.write numberSpelling
  | .text s => writeText s
  | .list [] => ['[', ']']
  | .list (v :: rest) =>
    '[' :: layout.lineBreak (depth + 1) ++ write layout (depth + 1) v ++
      writeItems layout (depth + 1) rest ++ layout.lineBreak depth ++ [']']
  | .map [] => ['\x7b', '\x7d']
  | .map ((key, v) :: rest) =>
    '\x7b' :: layout.lineBreak (depth + 1) ++ writeText key ++ [':', ' '] ++
      write layout (depth + 1) v ++ writeEntries layout (depth + 1) rest ++
      layout.lineBreak depth ++ ['\x7d']
  | .live | .moment _ | .record _ _ => "null".toList

def writeItems (layout : Layout) (depth : Nat) : List Value → List Char
  | [] => []
  | v :: rest => layout.comma depth ++ write layout depth v ++ writeItems layout depth rest

def writeEntries (layout : Layout) (depth : Nat) : List (String × Value) → List Char
  | [] => []
  | (key, v) :: rest =>
    layout.comma depth ++ writeText key ++ [':', ' '] ++ write layout depth v ++
      writeEntries layout depth rest

end

def print (layout : Layout) (v : Value) : String := String.ofList (write layout 0 v)

end Lifecycle.Json
