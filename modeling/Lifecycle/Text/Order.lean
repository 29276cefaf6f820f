/-! Lists of names in order and without repeats. -/

namespace Lifecycle.Text

/-- By code points. -/
def sorted (texts : List String) : List String := texts.mergeSort fun a b => decide (a ≤ b)

/-- Of equal names the first stays. -/
def distinct (names : List String) : List String :=
  names.foldl (fun seen name => if name ∈ seen then seen else seen ++ [name]) []

end Lifecycle.Text
