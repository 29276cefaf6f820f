import Lifecycle.Decimal.Digits
/-!
Whole numbers as texts spell them: blanks around, a sign, zeros in front, single underscores between
digits, and a point with zeros behind it. -/

namespace Lifecycle.Decimal

/-- Characters that may stand around a number. -/
def isSpace (c : Char) : Bool :=
  let code := c.toNat
  (0x09 ≤ code && code ≤ 0x0d) || code = 0x20 || code = 0x85 || code = 0xa0 || code = 0x1680 ||
    (0x2000 ≤ code && code ≤ 0x200a) || code = 0x2028 || code = 0x2029 || code = 0x202f ||
    code = 0x205f || code = 0x3000

def trimSpace (text : List Char) : List Char :=
  ((text.dropWhile isSpace).reverse.dropWhile isSpace).reverse

/-- A plus in front says nothing, except that no minus may follow it. -/
def withoutPlus (text : List Char) : Option (List Char) :=
  match text with
  | '+' :: '-' :: _ => none
  | '+' :: rest => some rest
  | rest => some rest

/-- Passes over zeros and underscores up to where a number begins, or a sign that comes late; `last`
is what was passed over last, and stands for the number if nothing else does. -/
def skipZeros (last : Char) (text : List Char) : Option (List Char) :=
  match text with
  | [] => some [last]
  | c :: rest =>
    if c = '0' ∨ c = '_' then skipZeros c rest
    else if IsDigit c ∨ c = '-' then some (c :: rest)
    else if c = '.' then some (last :: c :: rest)
    else none

/-- Takes away the zeros in front of a number without a sign. -/
def unpadded (text : List Char) : Option (List Char) :=
  match text with
  | [] => none
  | c :: rest =>
    if c = '0' then skipZeros c rest
    else if IsDigit c then some text
    else none

def withoutZeros (text : List Char) : Option (List Char) :=
  match text with
  | '-' :: rest => (unpadded rest).map ('-' :: ·)
  | rest => unpadded rest

/-- Takes away a point and the zeros behind it, if there is at least one and nothing else. -/
def withoutPlaces (text : List Char) : List Char :=
  let whole := text.takeWhile (· ≠ '.')
  let places := text.drop (whole.length + 1)
  if !places.isEmpty && places.all (· = '0') then whole else text

def doubled : List Char → Bool
  | '_' :: '_' :: _ => true
  | _ :: rest => doubled rest
  | [] => false

/-- Takes away underscores if each stands on its own inside the text. -/
def withoutUnderscores (text : List Char) : List Char :=
  if text.head? = some '_' || text.getLast? = some '_' || doubled text then text
  else text.filter (· ≠ '_')

/-- The most digits that a written number may have. -/
def digitLimit : Nat := 4300

/-- Digits that are written as a number is: a zero does not stand in front of others. -/
def isPlain (digits : List Char) : Bool :=
  match digits with
  | [] => false
  | first :: rest => digits.all (fun c => IsDigit c) && (first ≠ '0' || rest.isEmpty)

/-- A sign and digits. -/
def signedDigits? (text : List Char) : Option (Bool × List Char) :=
  let (negative, digits) := match text with
    | '-' :: rest => (true, rest)
    | rest => (false, rest)
  if isPlain digits then some (negative, digits) else none

/-- What stands in a text once everything that does not count is taken away. -/
def bare? (text : List Char) : Option (List Char) := do
  let text ← withoutPlus (trimSpace text)
  return withoutUnderscores (withoutPlaces (← withoutZeros text))

/-- The number that a text spells, if it spells one within the limit. -/
def written? (text : List Char) : Option Int := do
  let (negative, digits) ← signedDigits? (← bare? text)
  if digitLimit < digits.length then none
  else
    let magnitude : Int := natural digits
    return if negative then -magnitude else magnitude

/-- Whether a text goes beyond the limit with the digits that it begins with. -/
def overlong (text : List Char) : Bool :=
  let body := match text with
    | '-' :: rest => rest
    | rest => rest
  let digits := body.takeWhile fun c => IsDigit c
  digits.head? ≠ some '0' && digitLimit < digits.length

end Lifecycle.Decimal
