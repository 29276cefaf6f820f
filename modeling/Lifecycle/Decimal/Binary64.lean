/-!
Binary floating point numbers of 64 bits, by their encoding. A finite one is a sign and a whole
number of halves, quarters, … ; all arithmetic here is on naturals. -/

namespace Lifecycle.Decimal

structure Binary64 where
  bits : UInt64
  deriving DecidableEq, Repr

namespace Binary64

def negative (x : Binary64) : Bool := x.bits.toNat / Nat.pow 2 63 = 1

def exponentField (x : Binary64) : Nat := x.bits.toNat / Nat.pow 2 52 % Nat.pow 2 11

def fractionField (x : Binary64) : Nat := x.bits.toNat % Nat.pow 2 52

def isFinite (x : Binary64) : Bool := x.exponentField != 2047

def isNaN (x : Binary64) : Bool := !x.isFinite && x.fractionField != 0

/-- The magnitude of a finite number is `significand * 2 ^ scale`. -/
def significand (x : Binary64) : Nat :=
  if x.exponentField = 0 then x.fractionField else Nat.pow 2 52 + x.fractionField

def scale (x : Binary64) : Int :=
  if x.exponentField = 0 then -1074 else x.exponentField - 1075

def isZero (x : Binary64) : Bool := x.isFinite && x.significand = 0

def make (negative : Bool) (magnitude : Nat) : Binary64 :=
  ⟨UInt64.ofNat ((if negative then Nat.pow 2 63 else 0) + magnitude)⟩

def infinity (negative : Bool) : Binary64 := make negative (2047 * Nat.pow 2 52)

def nan : Binary64 := make false (2047 * Nat.pow 2 52 + Nat.pow 2 51)

/-- The quotient to the nearest whole number, a half to the even neighbour. -/
def roundQuotient (num den : Nat) : Nat :=
  let whole := num / den
  let twice := 2 * (num % den)
  if twice > den ∨ (twice = den ∧ whole % 2 = 1) then whole + 1 else whole

/-- A fraction multiplied by a power of two, as numerator and denominator. -/
def scaled (num den : Nat) (power : Int) : Nat × Nat :=
  if power < 0 then (num, den * Nat.pow 2 power.natAbs) else (num * Nat.pow 2 power.natAbs, den)

/-- The number nearest to `num / den`, for a positive denominator; too large ones are infinite. -/
def ofFraction (negative : Bool) (num den : Nat) : Binary64 :=
  if num = 0 then make negative 0
  else
    let low : Int := max ((num.log2 : Int) - den.log2 - 53) (-1074)
    let probe := scaled num den (-low)
    let power := if probe.1 / probe.2 < Nat.pow 2 53 then low else low + 1
    let final := scaled num den (-power)
    let whole := roundQuotient final.1 final.2
    if whole < Nat.pow 2 52 then make negative whole
    else
      let magnitude := (power + 1075).toNat * Nat.pow 2 52 + (whole - Nat.pow 2 52)
      if magnitude < 2047 * Nat.pow 2 52 then make negative magnitude else infinity negative

/-- The number nearest to `digits * 10 ^ power`, told apart early when far out of range. -/
def ofDecimal (negative : Bool) (digits : Nat) (power : Int) : Binary64 :=
  let width : Int := digits.log2 / 3
  if digits = 0 then make negative 0
  else if power > 400 then infinity negative
  else if power + width < -800 then make negative 0
  else if power < 0 then ofFraction negative digits (Nat.pow 10 power.natAbs)
  else ofFraction negative (digits * Nat.pow 10 power.natAbs) 1

/-- Whether a whole number is near enough to a finite one. -/
def reaches (n : Int) : Bool := (ofFraction false n.natAbs 1).isFinite

/-- The whole number that a finite value equals, if it is one. -/
def toInt? (x : Binary64) : Option Int :=
  if !x.isFinite then none
  else
    let value := scaled x.significand 1 x.scale
    if value.1 % value.2 = 0 then
      let whole : Int := value.1 / value.2
      some (if x.negative then -whole else whole)
    else none

/-- The magnitude of a finite number, as numerator and denominator. -/
def fraction (x : Binary64) : Nat × Nat := scaled x.significand 1 x.scale

/-- A finite number, as numerator and denominator. -/
def ratio (x : Binary64) : Int × Nat := (if x.negative then -x.fraction.1 else x.fraction.1, x.fraction.2)

/-- Whether one number is less than another; what is no number is neither less nor greater. -/
def less (x y : Binary64) : Bool :=
  if x.isNaN || y.isNaN then false
  else if !x.isFinite then x.negative && x != y
  else if !y.isFinite then !y.negative
  else x.ratio.1 * y.ratio.2 < y.ratio.1 * x.ratio.2

def below (x : Binary64) (n : Int) : Bool :=
  if x.isNaN then false
  else if !x.isFinite then x.negative
  else x.ratio.1 < n * x.ratio.2

def above (x : Binary64) (n : Int) : Bool :=
  if x.isNaN then false
  else if !x.isFinite then !x.negative
  else n * x.ratio.2 < x.ratio.1

/-- A number and a whole one together. -/
def plus (x : Binary64) (n : Int) : Binary64 :=
  if !x.isFinite then x
  else
    let sum := x.ratio.1 + n * x.ratio.2
    ofFraction (sum < 0) sum.natAbs x.ratio.2

/-- Whether a finite number is further from zero than a whole one. -/
def exceeds (x : Binary64) (bound : Nat) : Bool := bound * x.fraction.2 < x.fraction.1

/-- The greatest whole number not above a finite number, and what is left of it. -/
def floor (x : Binary64) : Int × Binary64 :=
  let (num, den) := x.ratio
  let whole := num.fdiv den
  (whole, ofFraction false (num - whole * den).toNat den)

/-- A finite number so many times. -/
def times (x : Binary64) (factor : Nat) : Binary64 :=
  ofFraction x.negative (x.fraction.1 * factor) x.fraction.2

/-- The whole number nearest to a finite magnitude, a half upwards. -/
def nearest (x : Binary64) : Nat := (2 * x.fraction.1 + x.fraction.2) / (2 * x.fraction.2)

end Binary64

end Lifecycle.Decimal
