import Lifecycle.Decimal.Written
import Lifecycle.Value.Basic
/-!
Reading JSON text. The reader works on the characters left and reports a fault with the number of
characters left where it stands; `SyntaxFault` turns that into a line and a column. Of a key that
comes twice the last value counts and the first place. Whole numbers with too many digits and lists
and maps nested too deeply are refused where they stand, whatever comes after them. -/

namespace Lifecycle

/-- What a text should have held, or should not. -/
inductive Misreading where
  | value | propertyName | colon | comma | extra | unterminated | control | escape | unicodeEscape
  | byteOrderMark
  deriving DecidableEq, Repr

def Misreading.message : Misreading → String
  | .value => "Expecting value"
  | .propertyName => "Expecting property name enclosed in double quotes"
  | .colon => "Expecting ':' delimiter"
  | .comma => "Expecting ',' delimiter"
  | .extra => "Extra data"
  | .unterminated => "Unterminated string starting at"
  | .control => "Invalid control character at"
  | .escape => "Invalid \\escape"
  | .unicodeEscape => "Invalid \\uXXXX escape"
  | .byteOrderMark => "Unexpected UTF-8 BOM (decode using utf-8-sig)"

structure SyntaxFault where
  what : Misreading
  line : Nat
  column : Nat
  position : Nat
  deriving DecidableEq, Repr

def SyntaxFault.locate (what : Misreading) (text : List Char) (position : Nat) : SyntaxFault :=
  let before := text.take position
  { what, position
    line := before.count '\n' + 1
    column := (before.reverse.takeWhile (· != '\n')).length + 1 }

def SyntaxFault.message (f : SyntaxFault) : String :=
  s!"{f.what.message}: line {f.line} column {f.column} (char {f.position})"

namespace Json

/-- A bound on what is read at all. -/
inductive Excess where
  /-- A whole number of that many digits. -/
  | digits (count : Nat)
  | nestedList
  | nestedMap
  deriving DecidableEq, Repr

def Excess.message : Excess → String
  | .digits count =>
    s!"Exceeds the limit ({Decimal.digitLimit} digits) for integer string conversion: value has " ++
      s!"{count} digits; use sys.set_int_max_str_digits() to increase the limit"
  | .nestedList => nesting ++ "array from a unicode string"
  | .nestedMap => nesting ++ "object from a unicode string"
where
  nesting : String := "maximum recursion depth exceeded while decoding a JSON "

/-- How deep lists and maps may nest. -/
def depthLimit : Nat := 987

/-- Why a text could not be read. -/
inductive Failure where
  | syntactic (fault : SyntaxFault)
  | excess (which : Excess)
  deriving DecidableEq, Repr

/-- A fault and how many characters are left where it was found, or a bound. -/
inductive Stop where
  | fault (what : Misreading) (left : Nat)
  | excess (which : Excess)

abbrev Scan (α : Type) := Except Stop (α × List Char)

def stopAt {α : Type} (what : Misreading) (text : List Char) : Except Stop α :=
  .error (.fault what text.length)

def isBlank (c : Char) : Bool := c = ' ' || c = '\t' || c = '\n' || c = '\r'

def skipBlanks (text : List Char) : List Char := text.dropWhile isBlank

def simpleEscape? : Char → Option Char
  | '"' => some '"'
  | '\\' => some '\\'
  | '/' => some '/'
  | 'b' => some '\x08'
  | 'f' => some '\x0c'
  | 'n' => some '\n'
  | 'r' => some '\r'
  | 't' => some '\t'
  | _ => none

/-- The character of a UTF-16 unit; a surrogate on its own stands for nothing. -/
def ofUnit (code : Nat) : Char :=
  if 0xd800 ≤ code ∧ code < 0xe000 then '\ufffd' else Char.ofNat code

/-- Four digits that more text follows, as the unit they name. `text` starts at the `u`. -/
def readUnit (text : List Char) : Except Stop (Nat × List Char) :=
  match text with
  | 'u' :: a :: b :: c :: d :: e :: rest =>
    match Text.hexNumber? [a, b, c, d] with
    | some code => .ok (code, e :: rest)
    | none => stopAt .unicodeEscape text
  | _ => stopAt .unicodeEscape text

/-- The character after a backslash, and the text behind it. -/
def unescape (opened : Nat) (text : List Char) : Except Stop (Char × List Char) :=
  match text with
  | [] => .error (.fault .unterminated opened)
  | 'u' :: _ => do
    let (high, rest) ← readUnit text
    if 0xd800 ≤ high ∧ high < 0xdc00 ∧ rest.length > 6 ∧ rest.take 2 = ['\\', 'u'] then
      let (low, behind) ← readUnit (rest.drop 1)
      if 0xdc00 ≤ low ∧ low < 0xe000 then
        return (Char.ofNat (0x10000 + (high - 0xd800) * 0x400 + (low - 0xdc00)), behind)
      else return (ofUnit high, rest)
    else return (ofUnit high, rest)
  | c :: rest =>
    match simpleEscape? c with
    | some plain => .ok (plain, rest)
    | none => .error (.fault .escape (text.length + 1))

/-- The characters up to the closing quote, which is read too. `opened` is what was left at the
opening one. -/
def chars (opened : Nat) (text : List Char) : Scan (List Char) :=
  match text with
  | [] => .error (.fault .unterminated opened)
  | '"' :: rest => .ok ([], rest)
  | '\\' :: rest =>
    match unescape opened rest with
    | .error stop => .error stop
    | .ok (c, behind) =>
      match chars opened (rest.drop (rest.length - behind.length)) with
      | .error stop => .error stop
      | .ok (more, rest) => .ok (c :: more, rest)
  | c :: rest =>
    if c.toNat < 0x20 then stopAt .control text
    else
      match chars opened rest with
      | .error stop => .error stop
      | .ok (more, rest) => .ok (c :: more, rest)
termination_by text.length
decreasing_by all_goals simp only [List.length_cons, List.length_drop]; omega

def takeDigits (text : List Char) : List Char × List Char :=
  text.span fun c => Decimal.IsDigit c

/-- A fraction is read only with a digit behind the point. -/
def takeFraction (text : List Char) : Option (List Char) × List Char :=
  match text with
  | '.' :: rest =>
    match takeDigits rest with
    | ([], _) => (none, text)
    | (fraction, behind) => (some fraction, behind)
  | _ => (none, text)

/-- An exponent is read only with a digit in it. -/
def takeExponent (text : List Char) : Option Int × List Char :=
  match text with
  | e :: rest =>
    if e = 'e' ∨ e = 'E' then
      let (negative, body) := match rest with
        | '-' :: body => (true, body)
        | '+' :: body => (false, body)
        | body => (false, body)
      match takeDigits body with
      | ([], _) => (none, text)
      | (written, behind) =>
        let power : Int := Decimal.natural written
        (some (if negative then -power else power), behind)
    else (none, text)
  | [] => (none, text)

/-- The whole part: a lone zero, or digits that start with another. -/
def takeWhole (text : List Char) : Option (List Char × List Char) :=
  match text with
  | '0' :: rest => some (['0'], rest)
  | _ =>
    match takeDigits text with
    | ([], _) => none
    | found => some found

/-- A number at the start of a text, if there is one. -/
def number? (text : List Char) : Option (Scan Value) :=
  let (negative, body) := match text with
    | '-' :: body => (true, body)
    | body => (false, body)
  match takeWhole body with
  | none => none
  | some (whole, rest) =>
    let (fraction, rest) := takeFraction rest
    let (power, rest) := takeExponent rest
    match fraction, power with
    | none, none =>
      if Decimal.digitLimit < whole.length then some (.error (.excess (.digits whole.length)))
      else
        let magnitude : Int := Decimal.natural whole
        some (.ok (.integer (if negative then -magnitude else magnitude), rest))
    | _, _ =>
      let places := fraction.getD []
      let digits := Decimal.natural (whole ++ places)
      some (.ok (.real (.ofDecimal negative digits (power.getD 0 - places.length)), rest))

/-- The names that stand for values. -/
def words : List (List Char × Value) :=
  [("null".toList, .null), ("true".toList, .flag true), ("false".toList, .flag false),
   ("NaN".toList, .real .nan), ("Infinity".toList, .real (.infinity false)),
   ("-Infinity".toList, .real (.infinity true))]

def word? (text : List Char) : Option (Value × List Char) :=
  (words.find? fun entry => entry.1.isPrefixOf text).map fun entry =>
    (entry.2, text.drop entry.1.length)

mutual

/-- Reads one value at the start of the text. `room` is how many levels of lists and maps there may
still be; `fuel` bounds the calls. -/
def read (room : Nat) : Nat → List Char → Scan Value
  | 0, text => stopAt .value text
  | fuel + 1, text =>
    match text with
    | '"' :: rest =>
      match chars text.length rest with
      | .error stop => .error stop
      | .ok (s, rest) => .ok (.text (String.ofList s), rest)
    | '[' :: rest =>
      if room = 0 then .error (.excess .nestedList)
      else match skipBlanks rest with
        | ']' :: rest => .ok (.list [], rest)
        | rest =>
          match readItems (room - 1) fuel rest with
          | .error stop => .error stop
          | .ok (items, rest) => .ok (.list items, rest)
    | '\x7b' :: rest =>
      if room = 0 then .error (.excess .nestedMap)
      else match skipBlanks rest with
        | '\x7d' :: rest => .ok (.map [], rest)
        | rest =>
          match readEntries (room - 1) fuel rest with
          | .error stop => .error stop
          | .ok (entries, rest) => .ok (.map (Keyed.ofList entries), rest)
    | _ =>
      match word? text with
      | some found => .ok found
      | none =>
        match number? text with
        | some found => found
        | none => stopAt .value text

def readItems (room : Nat) : Nat → List Char → Scan (List Value)
  | 0, text => stopAt .value text
  | fuel + 1, text =>
    match read room fuel text with
    | .error stop => .error stop
    | .ok (v, rest) =>
      match skipBlanks rest with
      | ']' :: rest => .ok ([v], rest)
      | ',' :: rest =>
        match readItems room fuel (skipBlanks rest) with
        | .error stop => .error stop
        | .ok (more, rest) => .ok (v :: more, rest)
      | rest => stopAt .comma rest

def readEntries (room : Nat) : Nat → List Char → Scan (List (String × Value))
  | 0, text => stopAt .propertyName text
  | fuel + 1, text =>
    match text with
    | '"' :: rest =>
      match chars text.length rest with
      | .error stop => .error stop
      | .ok (key, rest) =>
        match skipBlanks rest with
        | ':' :: rest =>
          match read room fuel (skipBlanks rest) with
          | .error stop => .error stop
          | .ok (v, rest) =>
            match skipBlanks rest with
            | '\x7d' :: rest => .ok ([(String.ofList key, v)], rest)
            | ',' :: rest =>
              match readEntries room fuel (skipBlanks rest) with
              | .error stop => .error stop
              | .ok (more, rest) => .ok ((String.ofList key, v) :: more, rest)
            | rest => stopAt .comma rest
        | rest => stopAt .colon rest
    | _ => stopAt .propertyName text

end

/-- Every call consumes a character or descends from one that did. -/
def enough (text : List Char) : Nat := 2 * text.length + 2

def readAll (text : List Char) : Except Stop Value :=
  if text.head? = some '\ufeff' then stopAt .byteOrderMark text
  else
    match read depthLimit (enough text) (skipBlanks text) with
    | .error stop => .error stop
    | .ok (v, rest) =>
      match skipBlanks rest with
      | [] => .ok v
      | rest => stopAt .extra rest

def parse (text : String) : Except Failure Value :=
  match readAll text.toList with
  | .ok v => .ok v
  | .error (.fault what left) =>
    .error (.syntactic (.locate what text.toList (text.toList.length - left)))
  | .error (.excess which) => .error (.excess which)

end Json

end Lifecycle
