/-!
Terminal control sequences: an escape character and a bracket, then parameters, intermediate
characters and a final one. They steer a terminal and are no part of what is said. -/

namespace Lifecycle.Text

def isBetween (low high : Nat) (c : Char) : Bool := low ≤ c.toNat && c.toNat ≤ high

/-- What follows a control sequence whose opening has been passed. -/
def afterControl? (text : List Char) : Option (List Char) :=
  match (text.dropWhile (isBetween 0x30 0x3f)).dropWhile (isBetween 0x20 0x2f) with
  | [] => none
  | final :: rest => if isBetween 0x40 0x7e final then some rest else none

private theorem length_dropWhile_le (test : Char → Bool) (text : List Char) :
    (text.dropWhile test).length ≤ text.length :=
  (List.dropWhile_suffix test).length_le

theorem length_afterControl? {text rest : List Char} (found : afterControl? text = some rest) :
    rest.length < text.length := by
  have first := length_dropWhile_le (isBetween 0x30 0x3f) text
  have second := length_dropWhile_le (isBetween 0x20 0x2f) (text.dropWhile (isBetween 0x30 0x3f))
  unfold afterControl? at found
  split at found
  · contradiction
  · next final tail shape =>
    split at found
    · cases found
      rw [shape] at second
      simp only [List.length_cons] at second
      omega
    · contradiction

/-- Takes control sequences out; one that is not finished stays. -/
def withoutControls : List Char → List Char
  | [] => []
  | '\x1b' :: '[' :: body =>
    match _found : afterControl? body with
    | some rest => withoutControls rest
    | none => '\x1b' :: withoutControls ('[' :: body)
  | c :: rest => c :: withoutControls rest
termination_by text => text.length
decreasing_by
  · have shorter := length_afterControl? _found
    simp only [List.length_cons]
    omega
  all_goals simp only [List.length_cons]; omega

end Lifecycle.Text
