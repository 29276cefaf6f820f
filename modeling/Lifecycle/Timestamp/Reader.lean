import Lifecycle.Decimal.Binary64
import Lifecycle.Timestamp.Basic
/-!
Reading times. A text is a date, optionally with a time and an offset, or a number of seconds since
1970; large numbers count milliseconds. A text that is neither is blamed on its date. -/

namespace Lifecycle

inductive Misdating where
  | tooShort | yearDigit | monthDigit | dayDigit | separator | month | day | trailing
  | early | late | notANumber
  | yearZero
  deriving DecidableEq, Repr

def Misdating.message : Misdating → String
  | .tooShort => "input is too short"
  | .yearDigit => "invalid character in year"
  | .monthDigit => "invalid character in month"
  | .dayDigit => "invalid character in day"
  | .separator => "invalid date separator, expected `-`"
  | .month => "month value is outside expected range of 1-12"
  | .day => "day value is outside expected range"
  | .trailing => "unexpected extra characters at the end of the input"
  | .early => "dates before 0000 are not supported as unix timestamps"
  | .late => "dates after 9999 are not supported as unix timestamps"
  | .notANumber => "NaN values not permitted"
  | .yearZero => "year 0 is out of range"

namespace Timestamp

def leastSeconds : Int := -62167219200

def greatestSeconds : Int := 253402300799

/-- Numbers beyond this count milliseconds. -/
def watershed : Nat := 20000000000

/-- The time of a number of seconds and parts of one. -/
def ofClock (seconds : Int) (micro : Nat) : Except Misdating Timestamp :=
  if seconds < leastSeconds then .error .early
  else if seconds > greatestSeconds then .error .late
  else .ok (ofSeconds seconds micro (some 0))

/-- The time of a number of milliseconds and of parts of one. -/
def ofMillis (millis : Int) (micro : Nat) : Except Misdating Timestamp :=
  ofClock (millis.fdiv 1000) ((millis.fmod 1000).toNat * 1000 + micro)

def ofCount (count : Int) : Except Misdating Timestamp :=
  if count.natAbs ≤ watershed then ofClock count 0 else ofMillis count 0

/-- A number that need not be whole: its fraction counts to the nearest microsecond. -/
def ofReal (x : Decimal.Binary64) : Except Misdating Timestamp :=
  if x.isNaN then .error .notANumber
  else if !x.isFinite then .error (if x.negative then .early else .late)
  else
    let (whole, rest) := x.floor
    if x.exceeds watershed then ofMillis whole (rest.times 1000).nearest
    else ofClock whole (rest.times 1000000).nearest

/-- `count` digits at the start of a text. -/
def takeNumber (count : Nat) (fault : Misdating) (text : List Char) :
    Except Misdating (Nat × List Char) :=
  let written := text.take count
  if written.length = count ∧ written.all (fun c => Decimal.IsDigit c) then
    .ok (Decimal.natural written, text.drop count)
  else .error fault

def takeChar (c : Char) (fault : Misdating) (text : List Char) : Except Misdating (List Char) :=
  match text with
  | d :: rest => if c = d then .ok rest else .error fault
  | [] => .error fault

def takeDate (text : List Char) : Except Misdating ((Nat × Nat × Nat) × List Char) := do
  if (String.ofList text).utf8ByteSize < 10 then throw .tooShort
  let (year, text) ← takeNumber 4 .yearDigit text
  let text ← takeChar '-' .separator text
  let (month, text) ← takeNumber 2 .monthDigit text
  let text ← takeChar '-' .separator text
  let (day, text) ← takeNumber 2 .dayDigit text
  let longest := daysInMonth year month
  if longest = 0 then throw .month
  if day < 1 ∨ longest < day then throw .day
  return ((year, month, day), text)

def takeTwo (text : List Char) : Option (Nat × List Char) :=
  (takeNumber 2 .trailing text).toOption

/-- Digits behind a point or a comma; those past the sixth are cut off. -/
def takeMicro (text : List Char) : Option (Nat × List Char) :=
  match text with
  | [] => some (0, [])
  | c :: rest =>
    if c = '.' ∨ c = ',' then
      let written := rest.takeWhile fun d => Decimal.IsDigit d
      if written.isEmpty then none
      else
        let six := (written ++ List.replicate 6 '0').take 6
        some (Decimal.natural six, rest.drop written.length)
    else some (0, text)

def takeSeconds (text : List Char) : Option ((Nat × Nat) × List Char) :=
  match text with
  | ':' :: rest => do
    let (second, rest) ← takeTwo rest
    if second > 59 then none
    else
      let (micro, rest) ← takeMicro rest
      return ((second, micro), rest)
  | _ => some ((0, 0), text)

def takeOffset (text : List Char) : Option (Option Int) :=
  match text with
  | [] => some none
  | ['Z'] | ['z'] => some (some 0)
  | sign :: rest => do
    let direction : Int ← if sign = '+' then some 1
      else if sign = '-' ∨ sign = '\u2212' then some (-1)
      else none
    let (hours, rest) ← takeTwo rest
    let rest := match rest with
      | ':' :: rest => rest
      | rest => rest
    let (minutes, rest) ← takeTwo rest
    if minutes > 59 ∨ hours > 23 ∨ !rest.isEmpty then none
    else some (some (direction * (hours * 60 + minutes : Nat)))

/-- What follows a date: nothing, or a separator, a time and perhaps an offset. -/
def takeTime (date : Nat × Nat × Nat) (text : List Char) : Option Timestamp :=
  let (year, month, day) := date
  match text with
  | [] => some ⟨year, month, day, 0, 0, 0, 0, none⟩
  | mark :: rest => do
    if mark ≠ 'T' ∧ mark ≠ 't' ∧ mark ≠ ' ' ∧ mark ≠ '_' then none
    else
      let (hour, rest) ← takeTwo rest
      let rest ← (takeChar ':' .trailing rest).toOption
      let (minute, rest) ← takeTwo rest
      if hour > 23 ∨ minute > 59 then none
      else
        let ((second, micro), rest) ← takeSeconds rest
        let offset ← takeOffset rest
        return ⟨year, month, day, hour, minute, second, micro, offset⟩

def signed (text : List Char) : Bool × List Char :=
  match text with
  | '-' :: rest => (true, rest)
  | '+' :: rest => (false, rest)
  | rest => (false, rest)

def wholeCount? (text : List Char) : Option Int :=
  let (negative, body) := signed text
  if body.isEmpty ∨ !body.all (fun c => Decimal.IsDigit c) then none
  else
    let magnitude : Int := Decimal.natural body
    let count := if negative then -magnitude else magnitude
    if Decimal.isWord count then some count else none

/-- An exponent, if a text is one: the mark for it and digits that may have a sign. -/
def exponent? (text : List Char) : Option Int :=
  match text with
  | [] => some 0
  | mark :: rest =>
    let (negative, digits) := signed rest
    if (mark = 'e' ∨ mark = 'E') ∧ !digits.isEmpty ∧ digits.all (fun c => Decimal.IsDigit c) then
      let power : Int := Decimal.natural digits
      some (if negative then -power else power)
    else none

/-- A number with a point and digits on at least one side of it; only then may there be an
exponent. -/
def fractionalCount? (text : List Char) : Option Decimal.Binary64 :=
  let (negative, body) := signed text
  let whole := body.takeWhile fun c => Decimal.IsDigit c
  match body.drop whole.length with
  | '.' :: rest => do
    let places := rest.takeWhile fun c => Decimal.IsDigit c
    let power ← exponent? (rest.drop places.length)
    if whole.isEmpty ∧ places.isEmpty then none
    else some (.ofDecimal negative (Decimal.natural (whole ++ places)) (power - places.length))
  | _ => none

def count? (text : List Char) : Option (Except Misdating Timestamp) :=
  match wholeCount? text with
  | some count => some (ofCount count)
  | none => (fractionalCount? text).map ofReal

def read (text : List Char) : Except Misdating Timestamp :=
  match takeDate text with
  | .ok (date, rest) =>
    match takeTime date rest with
    | some time => .ok time
    | none => .error .trailing
  | .error fault =>
    match count? text with
    | some (.ok time) => .ok time
    | some (.error beyond) => if (wholeCount? text).isSome then .error beyond else .error fault
    | none => .error fault

end Timestamp

end Lifecycle
