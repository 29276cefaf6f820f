import Lifecycle.Decimal.Binary64
import Lifecycle.Decimal.Digits
/-!
The fewest decimal digits that read back as a given binary number. The reals that round to it form
an interval; of the decimal grids, coarsest first, the first with a point in the interval gives the
digits, and of two points the nearer one. -/

namespace Lifecycle.Decimal

/-- A positive rational. -/
structure Ratio where
  num : Nat
  den : Nat

namespace Ratio

def le (a b : Ratio) : Bool := a.num * b.den ≤ b.num * a.den

def lt (a b : Ratio) : Bool := a.num * b.den < b.num * a.den

/-- `digits * 10 ^ power` -/
def ofDecimal (digits : Nat) (power : Int) : Ratio :=
  if power < 0 then ⟨digits, Nat.pow 10 power.natAbs⟩
  else ⟨digits * Nat.pow 10 power.natAbs, 1⟩

/-- `n * 2 ^ power` -/
def ofBinary (n : Nat) (power : Int) : Ratio :=
  if power < 0 then ⟨n, Nat.pow 2 power.natAbs⟩ else ⟨n * Nat.pow 2 power.natAbs, 1⟩

/-- The exponent of the leading decimal digit, found next to an estimate. -/
def leadingPower (a : Ratio) : Int :=
  let estimate := ((a.num.log2 : Int) - a.den.log2) * 30103 / 100000
  if le (ofDecimal 1 (estimate + 1)) a then estimate + 1
  else if le (ofDecimal 1 estimate) a then estimate
  else estimate - 1

end Ratio

/-- The reals that round to a number, its ends belonging to it or not. -/
structure Span where
  low : Ratio
  value : Ratio
  high : Ratio
  closed : Bool

def Span.has (s : Span) (a : Ratio) : Bool :=
  if s.closed then s.low.le a && a.le s.high else s.low.lt a && a.lt s.high

def Binary64.span (x : Binary64) : Span :=
  let m := x.significand
  let q := x.scale - 2
  let below := if x.fractionField = 0 ∧ x.exponentField > 1 then 4 * m - 1 else 4 * m - 2
  ⟨.ofBinary below q, .ofBinary (4 * m) q, .ofBinary (4 * m + 2) q, m % 2 = 0⟩

/-- The point to print on the grid of step `10 ^ power`: one of the two neighbours of the value. -/
def Span.pick? (s : Span) (power : Int) : Option Nat :=
  let unit := Ratio.ofDecimal 1 power
  let below := s.value.num * unit.den / (s.value.den * unit.num)
  let lower := s.has (.ofDecimal below power) && below != 0
  let upper := s.has (.ofDecimal (below + 1) power)
  if lower && upper then
    let middle : Ratio := ⟨(2 * below + 1) * unit.num, 2 * unit.den⟩
    if s.value.lt middle then some below
    else if middle.lt s.value then some (below + 1)
    else some (if below % 2 = 0 then below else below + 1)
  else if lower then some below
  else if upper then some (below + 1)
  else none

/-- Tries one digit, then two, and so on. -/
def Span.search (s : Span) (leading : Int) : Nat → Nat × Int
  | 0 => (0, leading)
  | tries + 1 =>
    let power := leading - (16 - tries : Nat)
    match s.pick? power with
    | some point => (point, power)
    | none => s.search leading tries

/-- Removes zeros at the end. -/
def dropTrailingZeros (point : Nat) (power : Int) : Nat × Int :=
  let written := (digits point).reverse
  let zeros := (written.takeWhile (· = '0')).length
  (point / Nat.pow 10 zeros, power + zeros)

/-- Digits and power of ten of a finite number other than zero; seventeen digits always suffice. -/
def Binary64.shortest (x : Binary64) : Nat × Int :=
  let s := x.span
  let found := s.search s.value.leadingPower 17
  dropTrailingZeros found.1 found.2

end Lifecycle.Decimal
