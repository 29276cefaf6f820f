import Lifecycle.Blueprint.Basic
/-!
Walks from state to state along transitions, breadth first. A state is left once; each round either comes
to states that were not seen before or leaves fewer to be left. -/

namespace Lifecycle

/-- The states seen so far, and those of them that are yet to be left, the next one first. -/
structure Walk where
  seen : List String
  waiting : List String

namespace Walk

def start (state : String) : Walk := ⟨[state], [state]⟩

/-- A state that has not been seen is to be left later. -/
def meet (state : String) (w : Walk) : Walk :=
  if state ∈ w.seen then w else ⟨w.seen ++ [state], w.waiting ++ [state]⟩

/-- Meets the targets of the transitions that leave a state. -/
def leave (ts : List Transition) (state : String) (w : Walk) : Walk :=
  ts.foldl (fun w t => if t.source = state then w.meet t.target else w) w

/-- What may be ahead: transitions to states that have not been seen, and states to be left. -/
def ahead (ts : List Transition) (w : Walk) : Nat :=
  ts.countP (fun t => t.target ∉ w.seen) + w.waiting.length

theorem countP_unseen_lt {ts : List Transition} {state : String} {seen : List String}
    (target : ∃ t ∈ ts, t.target = state) (new : state ∉ seen) :
    ts.countP (fun t => t.target ∉ seen ++ [state]) < ts.countP fun t => t.target ∉ seen := by
  induction ts with
  | nil => simp at target
  | cons t rest ih =>
      have most : rest.countP (fun t => t.target ∉ seen ++ [state]) ≤
          rest.countP fun t => t.target ∉ seen :=
        List.countP_mono_left fun t _ => by simp +contextual
      rw [List.countP_cons, List.countP_cons]
      by_cases here : t.target = state
      · have counted : t.target ∉ seen := here ▸ new
        have uncounted : ¬t.target ∉ seen ++ [state] := by simp [here]
        rw [decide_eq_true counted, decide_eq_false uncounted]
        exact Nat.lt_succ_of_le most
      · have later : ∃ u ∈ rest, u.target = state := by simpa [here] using target
        have same : decide (t.target ∉ seen ++ [state]) = decide (t.target ∉ seen) := by
          simp [here]
        rw [same]
        exact Nat.add_lt_add_right (ih later) _

theorem ahead_meet {ts : List Transition} {t : Transition} (member : t ∈ ts) (w : Walk) :
    (w.meet t.target).ahead ts ≤ w.ahead ts := by
  rw [meet]
  split
  · exact Nat.le_refl _
  · next new =>
    have fewer := countP_unseen_lt ⟨t, member, rfl⟩ new
    simp only [ahead, List.length_append, List.length_singleton]
    omega

theorem ahead_leave (ts : List Transition) (state : String) (w : Walk) :
    (w.leave ts state).ahead ts ≤ w.ahead ts := by
  -- The transitions gone through are among those that are counted, which stay the same.
  have along (part : List Transition) (inside : ∀ t ∈ part, t ∈ ts) (w : Walk) :
      (w.leave part state).ahead ts ≤ w.ahead ts := by
    induction part generalizing w with
    | nil => exact Nat.le_refl _
    | cons t rest ih =>
        rw [leave, List.foldl_cons]
        refine Nat.le_trans (ih (fun u member => inside u (.tail _ member)) _) ?_
        split
        · exact ahead_meet (inside t (.head _)) w
        · exact Nat.le_refl _
  exact along ts (fun _ member => member) w

/-- One round: leaves the state that has waited longest. -/
def step (ts : List Transition) : Walk → Walk
  | ⟨seen, []⟩ => ⟨seen, []⟩
  | ⟨seen, state :: waiting⟩ => leave ts state ⟨seen, waiting⟩

theorem ahead_step (ts : List Transition) {w : Walk} (goes : w.waiting ≠ []) :
    (w.step ts).ahead ts < w.ahead ts := by
  rcases w with ⟨seen, _ | ⟨state, waiting⟩⟩
  · exact absurd rfl goes
  · refine Nat.lt_of_le_of_lt (ahead_leave ts state ⟨seen, waiting⟩) ?_
    simp only [ahead, List.length_cons]
    omega

/-- Goes on until no state is left to be left. -/
def finish (ts : List Transition) (w : Walk) : List String :=
  if w.waiting = [] then w.seen else finish ts (w.step ts)
termination_by w.ahead ts
decreasing_by exact ahead_step ts ‹_›

end Walk

end Lifecycle
