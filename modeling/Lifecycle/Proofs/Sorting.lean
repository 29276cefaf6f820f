import Lifecycle.Sorting.Runs
/-!
How a sort fails: as one of its comparisons does, whatever the items and whichever of them it
compares. -/

namespace Lifecycle

variable {α β ε : Type} {kind : ε → Prop}

/-- Whether a failure is of one kind, if there is one. -/
def FailsAs (kind : ε → Prop) (e : Except ε α) : Prop := ∀ fault, e = .error fault → kind fault

namespace FailsAs

theorem ok (a : α) : FailsAs kind (.ok a) := nofun

theorem error {fault : ε} (is : kind fault) : FailsAs kind (.error fault : Except ε α) := by
  intro other same
  cases same
  exact is

theorem mono {e : Except ε α} (fails : FailsAs kind e) {wider : ε → Prop}
    (weaken : ∀ fault, kind fault → wider fault) : FailsAs wider e :=
  fun fault failed => weaken fault (fails fault failed)

theorem bind {e : Except ε α} (first : FailsAs kind e) {next : α → Except ε β}
    (later : ∀ a, FailsAs kind (next a)) : FailsAs kind (e >>= next) := by
  intro fault failed
  cases given : e with
  | error other =>
      rw [given] at failed
      obtain rfl := Except.error.inj failed
      exact first _ given
  | ok a =>
      rw [given] at failed
      exact later a fault failed

theorem map {e : Except ε α} (first : FailsAs kind e) (f : α → β) : FailsAs kind (e.map f) := by
  intro fault failed
  cases given : e with
  | error other =>
      rw [given] at failed
      obtain rfl := Except.error.inj failed
      exact first _ given
  | ok a =>
      rw [given] at failed
      cases failed

theorem ite {p : Prop} [Decidable p] {e other : Except ε α} (first : FailsAs kind e)
    (second : FailsAs kind other) : FailsAs kind (if p then e else other) := by
  split
  · exact first
  · exact second

theorem foldlM {f : β → α → Except ε β} (each : ∀ b a, FailsAs kind (f b a)) (list : List α) (b : β) :
    FailsAs kind (list.foldlM f b) := by
  induction list generalizing b with
  | nil => exact ok b
  | cons a rest ih =>
      rw [List.foldlM_cons]
      exact (each b a).bind ih

end FailsAs

namespace Sorting

section

variable {test : α → Except ε Bool} (each : ∀ a, FailsAs kind (test a))

include each

theorem passes_fails (items : Array α) (place : Nat) : FailsAs kind (passes test items place) := by
  rw [passes]
  split
  · next a _ => exact each a
  · exact .ok false

theorem not_fails (a : α) : FailsAs kind (do return !(← test a)) := (each a).bind fun _ => .ok _

end

theorem bisect_fails {test : Nat → Except ε Bool} (each : ∀ n, FailsAs kind (test n))
    (low high : Nat) : FailsAs kind (bisect test low high) := by
  induction low, high using bisect.induct with
  | case1 low high below middle upper lower =>
      rw [bisect, if_pos below]
      exact (each _).bind fun _ => FailsAs.ite upper lower
  | case2 low high past =>
      rw [bisect, if_neg past]
      exact .ok high

theorem stride_fails {test : Nat → Except ε Bool} (each : ∀ n, FailsAs kind (test n))
    (limit last next : Nat) : FailsAs kind (stride test limit last next) := by
  induction last, next using stride.induct limit with
  | case1 last next below further =>
      rw [stride, if_pos below]
      exact (each _).bind fun _ => FailsAs.ite further (.ok _)
  | case2 last next past =>
      rw [stride, if_neg past]
      exact .ok _

theorem gallop_fails {test : α → Except ε Bool} (each : ∀ a, FailsAs kind (test a))
    (items : Array α) (hint : Nat) : FailsAs kind (gallop test items hint) := by
  have places := passes_fails each items
  refine (places hint).bind fun _ => FailsAs.ite ?_ ?_
  · exact (stride_fails (fun n => places (hint + n)) _ _ _).bind fun _ => bisect_fails places _ _
  · exact (stride_fails (fun n => not_fails places (hint - n)) _ _ _).bind fun _ =>
      bisect_fails places _ _

variable {less : α → α → Except ε Bool} (compares : ∀ a b, FailsAs kind (less a b))

namespace Merging

theorem lead_fails {test : α → Except ε Bool} (each : ∀ a, FailsAs kind (test a)) (d : Direction)
    (items : List α) : FailsAs kind (lead test d items) := by
  cases d with
  | forward => exact gallop_fails each _ _
  | backward => exact (gallop_fails each _ _).bind fun _ => .ok _

include compares

theorem leftNext_fails (d : Direction) (m : Merging α) : FailsAs kind (m.leftNext less d) := by
  rw [leftNext]
  split
  · exact (compares _ _).map _
  · exact .ok false

theorem leftLead_fails (d : Direction) (m : Merging α) : FailsAs kind (m.leftLead less d) := by
  rw [leftLead]
  split
  · exact lead_fails (fun a => not_fails (compares _) a) d _
  · exact .ok 0

theorem rightLead_fails (d : Direction) (m : Merging α) : FailsAs kind (m.rightLead less d) := by
  rw [rightLead]
  split
  · exact lead_fails (fun a => compares a _) d _
  · exact .ok 0

theorem leap_fails (d : Direction) (m : Merging α) : FailsAs kind (m.leap less d) := by
  refine (leftLead_fails compares d m).bind fun _ => FailsAs.ite (.ok _) ?_
  refine FailsAs.ite (.ok _) ?_
  exact (rightLead_fails compares d _).bind fun _ => FailsAs.ite (.ok _) (.ok _)

theorem run_fails (d : Direction) (n : Nat) (pace : Pace) (patience : Nat) (m : Merging α) :
    FailsAs kind (m.run less d n pace patience) := by
  induction n generalizing pace patience m with
  | zero => exact .ok _
  | succ n ih =>
      refine FailsAs.ite (.ok _) ?_
      cases pace with
      | steps left right =>
          exact (leftNext_fails compares d m).bind fun _ => FailsAs.ite (ih _ _ _) (ih _ _ _)
      | leaps =>
          exact (leap_fails compares d m).bind fun _ =>
            FailsAs.ite (.ok _) (FailsAs.ite (ih _ _ _) (ih _ _ _))

end Merging

include compares

theorem mergeRest_fails (patience : Nat) (left right : List α) :
    FailsAs kind (mergeRest less patience left right) :=
  (Merging.run_fails compares _ _ _ _ _).bind fun _ => .ok _

theorem merge_fails (patience : Nat) (left right : List α) :
    FailsAs kind (merge less patience left right) := by
  cases right with
  | nil => exact .ok _
  | cons b rest =>
      refine (gallop_fails (fun a => not_fails (compares b) a) _ _).bind fun k => ?_
      split
      · exact .ok _
      · next a _ =>
        refine (gallop_fails (fun b => compares b a) _ _).bind fun n => FailsAs.ite (.ok _) ?_
        exact (mergeRest_fails compares _ _ _).bind fun _ => .ok _

theorem climb_fails (falling : Bool) (last : α) (list : List α) :
    FailsAs kind (climb less falling last list) := by
  induction list generalizing last with
  | nil => exact .ok _
  | cons a rest ih =>
      exact (compares a last).bind fun _ => FailsAs.ite ((ih a).bind fun _ => .ok _) (.ok _)

theorem insert_fails (items : List α) (a : α) : FailsAs kind (insert less items a) :=
  (bisect_fails (passes_fails (fun b => not_fails (compares a) b) _) _ _).bind fun _ => .ok _

theorem firstRun_fails (least : Nat) (list : List α) : FailsAs kind (firstRun less least list) := by
  rw [firstRun.eq_def]
  split
  · refine (compares _ _).bind fun falling => (climb_fails compares _ _ _).bind fun _ => ?_
    exact (FailsAs.foldlM (insert_fails compares) _ _).bind fun _ => .ok _
  · exact .ok _

namespace Pile

theorem mergeLast_fails (p : Pile α) : FailsAs kind (p.mergeLast less) := by
  rw [mergeLast]
  split
  · exact (merge_fails compares _ _ _).bind fun _ => .ok _
  · exact .ok p

theorem mergeInner_fails (p : Pile α) : FailsAs kind (p.mergeInner less) := by
  rw [mergeInner]
  split
  · exact (mergeLast_fails compares _).bind fun _ => .ok _
  · exact .ok p

theorem mergeDown_fails (level n : Nat) (p : Pile α) : FailsAs kind (p.mergeDown less level n) := by
  induction n generalizing p with
  | zero => exact .ok p
  | succ n ih =>
      rw [mergeDown]
      split
      · exact FailsAs.ite ((mergeLast_fails compares p).bind ih) (.ok p)
      · exact .ok p

theorem add_fails (size : Nat) (items : List α) (p : Pile α) :
    FailsAs kind (p.add less size items) := by
  rw [add]
  split
  · exact .ok _
  · refine (mergeDown_fails compares _ _ p).bind fun _ => ?_
    split
    · exact .ok _
    · exact .ok _

theorem collapse_fails (n : Nat) (p : Pile α) : FailsAs kind (p.collapse less n) := by
  induction n generalizing p with
  | zero => exact .ok p
  | succ n ih =>
      rw [collapse]
      split
      · exact FailsAs.ite ((mergeInner_fails compares p).bind ih) ((mergeLast_fails compares p).bind ih)
      · exact mergeLast_fails compares p

theorem fill_fails (size n : Nat) (items : List α) (p : Pile α) :
    FailsAs kind (p.fill less size n items) := by
  induction n generalizing items p with
  | zero => exact .ok p
  | succ n ih =>
      cases items with
      | nil => exact .ok p
      | cons a rest =>
          exact (firstRun_fails compares _ _).bind fun _ => (add_fails compares _ _ p).bind fun _ => ih _ _

end Pile

theorem sort_fails (items : List α) : FailsAs kind (sort less items) :=
  (Pile.fill_fails compares _ _ _ _).bind fun _ =>
    (Pile.collapse_fails compares _ _).bind fun _ => .ok _

end Sorting

end Lifecycle
