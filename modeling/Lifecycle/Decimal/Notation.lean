import Lifecycle.Decimal.Shortest
/-!
The text of a floating point number: its shortest digits, positional while the leading digit stands
between `10 ^ -4` and `10 ^ 15`, with an exponent otherwise. -/

namespace Lifecycle.Decimal

/-- How numbers are spelled. -/
structure Spelling where
  /-- Exponents of the leading digit that are still written positionally. -/
  leastPower : Int
  greatestPower : Int
  exponentDigits : Nat
  nan : String
  infinity : String

def standardSpelling : Spelling := ⟨-4, 15, 2, "nan", "inf"⟩

def positional (written : List Char) (point : Int) : List Char :=
  if point ≤ 0 then '0' :: '.' :: List.replicate point.natAbs '0' ++ written
  else if (written.length : Int) ≤ point then
    written ++ List.replicate (point.toNat - written.length) '0' ++ ['.', '0']
  else written.take point.toNat ++ '.' :: written.drop point.toNat

def scientific (written : List Char) (power : Int) (width : Nat) : List Char :=
  let mantissa := match written with
    | [digit] => [digit]
    | digit :: rest => digit :: '.' :: rest
    | [] => []
  mantissa ++ 'e' :: (if power < 0 then '-' else '+') :: padded width power.natAbs

def Binary64.write (spelling : Spelling) (x : Binary64) : List Char :=
  if x.isNaN then spelling.nan.toList
  else
    let magnitude :=
      if !x.isFinite then spelling.infinity.toList
      else if x.isZero then ['0', '.', '0']
      else
        let found := x.shortest
        let written := digits found.1
        let point := written.length + found.2
        if spelling.leastPower ≤ point - 1 ∧ point - 1 ≤ spelling.greatestPower then
          positional written point
        else scientific written (point - 1) spelling.exponentDigits
    if x.negative then '-' :: magnitude else magnitude

def Binary64.text (x : Binary64) : String := String.ofList (x.write standardSpelling)

end Lifecycle.Decimal
