import Lifecycle.Decimal.Digits
/-!
Points in time by calendar and clock, to the microsecond, with or without an offset from UTC, and
their written form. -/

namespace Lifecycle

structure Timestamp where
  year : Nat
  month : Nat
  day : Nat
  hour : Nat
  minute : Nat
  second : Nat
  micro : Nat
  /-- Minutes east of UTC; none for local time. -/
  offset : Option Int
  deriving DecidableEq, Repr, Inhabited

namespace Timestamp

def isLeap (year : Nat) : Bool := year % 4 = 0 && (year % 100 != 0 || year % 400 = 0)

/-- Zero for what is no month. -/
def daysInMonth (year month : Nat) : Nat :=
  match month with
  | 1 | 3 | 5 | 7 | 8 | 10 | 12 => 31
  | 4 | 6 | 9 | 11 => 30
  | 2 => if isLeap year then 29 else 28
  | _ => 0

/-- Year, month and day of the day that many days after 1970-01-01, by eras of 400 years that begin
on the first of March. -/
def ofDays (days : Int) : Nat × Nat × Nat :=
  let shifted := days + 719468
  let era := shifted.fdiv 146097
  let dayOfEra := (shifted - era * 146097).toNat
  let yearOfEra := (dayOfEra - dayOfEra / 1460 + dayOfEra / 36524 - dayOfEra / 146096) / 365
  let dayOfYear := dayOfEra - (365 * yearOfEra + yearOfEra / 4 - yearOfEra / 100)
  let fromMarch := (5 * dayOfYear + 2) / 153
  let day := dayOfYear - (153 * fromMarch + 2) / 5 + 1
  let month := if fromMarch < 10 then fromMarch + 3 else fromMarch - 9
  let year := era * 400 + yearOfEra + (if month ≤ 2 then 1 else 0)
  (year.toNat, month, day)

/-- How many days after 1970-01-01 a time lies. -/
def days (t : Timestamp) : Int :=
  let year : Int := if t.month ≤ 2 then t.year - 1 else t.year
  let era := year.fdiv 400
  let yearOfEra := year - era * 400
  let fromMarch : Int := if t.month ≤ 2 then t.month + 9 else t.month - 3
  let dayOfYear := (153 * fromMarch + 2) / 5 + t.day - 1
  era * 146097 + (yearOfEra * 365 + yearOfEra / 4 - yearOfEra / 100 + dayOfYear) - 719468

/-- How many minutes after 1970-01-01T00:00 a time lies: in UTC, or in local time. -/
def minutes (t : Timestamp) : Int :=
  t.days * 1440 + t.hour * 60 + t.minute - t.offset.getD 0

/-- Whether two times are the same point in time. Local time has no point in common with UTC. -/
def same (t u : Timestamp) : Bool :=
  t.offset.isSome = u.offset.isSome && t.minutes = u.minutes && t.second = u.second &&
    t.micro = u.micro

/-- The time that many seconds after 1970-01-01T00:00:00, with the given offset written on it. -/
def ofSeconds (seconds : Int) (micro : Nat) (offset : Option Int) : Timestamp :=
  let total := seconds + (micro / 1000000 : Nat)
  let days := total.fdiv 86400
  let rest := (total - days * 86400).toNat
  let (year, month, day) := ofDays days
  { year, month, day, offset
    hour := rest / 3600
    minute := rest / 60 % 60
    second := rest % 60
    micro := micro % 1000000 }

def writeOffset : Int → List Char
  | .ofNat 0 => ['Z']
  | offset =>
    (if offset < 0 then '-' else '+') :: Decimal.padded 2 (offset.natAbs / 60) ++
      ':' :: Decimal.padded 2 (offset.natAbs % 60)

/-- Fractions of a second are written with six digits, and only if there are any. -/
def write (t : Timestamp) : List Char :=
  Decimal.padded 4 t.year ++ '-' :: Decimal.padded 2 t.month ++ '-' :: Decimal.padded 2 t.day ++
    'T' :: Decimal.padded 2 t.hour ++ ':' :: Decimal.padded 2 t.minute ++
    ':' :: Decimal.padded 2 t.second ++
    (if t.micro = 0 then [] else '.' :: Decimal.padded 6 t.micro) ++
    (match t.offset with
      | none => []
      | some offset => writeOffset offset)

def print (t : Timestamp) : String := String.ofList t.write

/-- A time as it reads inside a list: by its parts, seconds and fractions only if there are any, an
offset in seconds. -/
def shown (t : Timestamp) : String :=
  let fine := if t.micro = 0 then if t.second = 0 then [] else [t.second] else [t.second, t.micro]
  let parts := ([t.year, t.month, t.day, t.hour, t.minute] ++ fine).map toString
  let zone := match t.offset with
    | none => []
    | some offset => [s!"tzinfo=TzInfo({offset * 60})"]
  "datetime.datetime(" ++ ", ".intercalate (parts ++ zone) ++ ")"

end Timestamp

end Lifecycle
