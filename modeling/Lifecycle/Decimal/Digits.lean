/-! Whole numbers in decimal digits. -/

namespace Lifecycle.Decimal

def digitChar (d : Nat) : Char := Char.ofNat ('0'.toNat + d)

def IsDigit (c : Char) : Prop := '0' ≤ c ∧ c ≤ '9'

instance (c : Char) : Decidable (IsDigit c) := by
  unfold IsDigit
  infer_instance

/-- Most significant digit first; zero is the one digit `0`. -/
def digits (n : Nat) : List Char :=
  if n < 10 then [digitChar n] else digits (n / 10) ++ [digitChar (n % 10)]

def natural (text : List Char) : Nat :=
  text.foldl (fun sum c => sum * 10 + (c.toNat - '0'.toNat)) 0

def integer : Int → List Char
  | .ofNat n => digits n
  | .negSucc n => '-' :: digits (n + 1)

/-- Whether a whole number is one of 64 bits with a sign. -/
def isWord (n : Int) : Bool := -9223372036854775808 ≤ n && n ≤ 9223372036854775807

/-- At least `width` digits, with zeros in front. -/
def padded (width n : Nat) : List Char :=
  let written := digits n
  List.replicate (width - written.length) '0' ++ written

end Lifecycle.Decimal
