import Lifecycle.Keyed
/-!
Searches through what depends on what, depth first. A search follows one dependency after the other until
nothing is left to follow, or until it is back on its own trail. What it is done with is not looked at
again; each round has less ahead of it. -/

namespace Lifecycle

/-- What each name depends on; a name without an entry depends on nothing. -/
abbrev Dependencies := Keyed String (List String)

def Dependencies.of (g : Dependencies) (name : String) : List String := (Keyed.find? g name).getD []

theorem Dependencies.of_cons (key : String) (after : List String) (rest : Dependencies)
    (name : String) : of ((key, after) :: rest) name = if key = name then after else of rest name := by
  by_cases here : key = name <;> simp [of, Keyed.find?, here]

structure Search where
  /-- The names that led to where the search is, the last one first, each with those of its
  dependencies that have not been looked at. -/
  trail : List (String × List String)
  /-- Names to begin with, the next one first. -/
  waiting : List String
  /-- Names that were left for good, in that order. -/
  done : List String
  /-- Whether a dependency led back onto the trail. -/
  circular : Bool
  deriving DecidableEq, Repr

namespace Search

def start (names : List String) : Search := ⟨[], names, [], false⟩

/-- The names on the trail. -/
def onTrail (s : Search) : List String := s.trail.map (·.1)

def isOver (s : Search) : Bool := s.circular || (s.trail.isEmpty && s.waiting.isEmpty)

/-- One round: begins with a name, leaves one, or looks at one dependency. -/
def step (g : Dependencies) : Search → Search
  | ⟨[], [], done, circular⟩ => ⟨[], [], done, circular⟩
  | ⟨[], name :: waiting, done, circular⟩ =>
    if name ∈ done then ⟨[], waiting, done, circular⟩
    else ⟨[(name, g.of name)], waiting, done, circular⟩
  | ⟨(name, []) :: rest, waiting, done, circular⟩ => ⟨rest, waiting, done ++ [name], circular⟩
  | ⟨(name, next :: later) :: rest, waiting, done, circular⟩ =>
    if next ∈ name :: rest.map (·.1) then ⟨(name, next :: later) :: rest, waiting, done, true⟩
    else if next ∈ done then ⟨(name, later) :: rest, waiting, done, circular⟩
    else ⟨(next, g.of next) :: (name, later) :: rest, waiting, done, circular⟩

/-- Whether a name is neither done with nor on the trail. -/
def unseen (done trail : List String) (name : String) : Bool := name ∉ done && name ∉ trail

/-- Twice the number of dependencies of those names that pass a test. -/
def load (test : String → Bool) : Dependencies → Nat
  | [] => 0
  | (name, after) :: rest => (if test name then 2 * after.length else 0) + load test rest

/-- What a trail has ahead: its names to leave, and the dependencies of each that are to be looked at. -/
def yetToLook : List (String × List String) → Nat
  | [] => 0
  | (_, later) :: rest => 1 + 2 * later.length + yetToLook rest

/-- What may be ahead: names to begin with and to leave, and dependencies to look at. -/
def ahead (g : Dependencies) (s : Search) : Nat :=
  (!s.circular).toNat + 2 * s.waiting.length + yetToLook s.trail +
    load (unseen s.done s.onTrail) g

theorem load_without (g : Dependencies) {test : String → Bool} {name : String} (passes : test name) :
    load (fun other => test other && other ≠ name) g + 2 * (g.of name).length ≤ load test g := by
  induction g with
  | nil => exact Nat.le_refl 0
  | cons entry rest ih =>
      obtain ⟨key, after⟩ := entry
      rw [load, load, Dependencies.of_cons]
      by_cases here : key = name
      · rw [here, if_pos passes, if_pos rfl, if_neg (by simp)]
        omega
      · have kept : (test key && key ≠ name) = test key := by simp [here]
        rw [if_neg here, kept]
        omega

/-- What a round of a search that is not over does. -/
inductive Round (g : Dependencies) : Search → Search → Prop where
  | skip {name : String} {waiting done : List String} (known : name ∈ done) :
      Round g ⟨[], name :: waiting, done, false⟩ ⟨[], waiting, done, false⟩
  | begin {name : String} {waiting done : List String} (new : name ∉ done) :
      Round g ⟨[], name :: waiting, done, false⟩ ⟨[(name, g.of name)], waiting, done, false⟩
  | leave {name : String} {waiting done : List String} {rest : List (String × List String)} :
      Round g ⟨(name, []) :: rest, waiting, done, false⟩ ⟨rest, waiting, done ++ [name], false⟩
  | close {name next : String} {waiting later done : List String}
      {rest : List (String × List String)} (back : next ∈ name :: rest.map (·.1)) :
      Round g ⟨(name, next :: later) :: rest, waiting, done, false⟩
        ⟨(name, next :: later) :: rest, waiting, done, true⟩
  | pass {name next : String} {waiting later done : List String}
      {rest : List (String × List String)} (known : next ∈ done) :
      Round g ⟨(name, next :: later) :: rest, waiting, done, false⟩
        ⟨(name, later) :: rest, waiting, done, false⟩
  | follow {name next : String} {waiting later done : List String}
      {rest : List (String × List String)} (off : next ∉ name :: rest.map (·.1))
      (new : next ∉ done) :
      Round g ⟨(name, next :: later) :: rest, waiting, done, false⟩
        ⟨(next, g.of next) :: (name, later) :: rest, waiting, done, false⟩

theorem step_round (g : Dependencies) {s : Search} (goes : s.isOver = false) :
    Round g s (s.step g) := by
  obtain ⟨trail, waiting, done, circular⟩ := s
  obtain ⟨rfl, some⟩ := Bool.or_eq_false_iff.mp goes
  rcases trail with _ | ⟨⟨name, _ | ⟨next, later⟩⟩, rest⟩
  · rcases waiting with _ | ⟨name, waiting⟩
    · cases some
    · rw [step]
      split
      · exact .skip ‹_›
      · exact .begin ‹_›
  · exact .leave
  · rw [step]
    split
    · exact .close ‹_›
    · split
      · exact .pass ‹_›
      · exact .follow ‹_› ‹_›

/-- A name that comes onto the trail takes its dependencies out of those ahead. -/
theorem load_enter (g : Dependencies) {name : String} {done trail : List String} (new : name ∉ done)
    (off : name ∉ trail) :
    load (unseen done (name :: trail)) g + 2 * (g.of name).length ≤ load (unseen done trail) g := by
  have fresh : unseen done trail name = true := by simp [unseen, new, off]
  refine Nat.le_trans (Nat.le_of_eq ?_) (load_without g fresh)
  congr 2
  funext other
  simp only [unseen, List.mem_cons, not_or, Bool.decide_and, ne_eq]
  ac_rfl

theorem unseen_leave (done trail : List String) (name : String) :
    unseen (done ++ [name]) trail = unseen done (name :: trail) := by
  funext other
  simp only [unseen, List.mem_append, List.mem_cons, List.not_mem_nil, or_false, not_or,
    Bool.decide_and]
  ac_rfl

theorem ahead_step (g : Dependencies) {s : Search} (goes : s.isOver = false) :
    (s.step g).ahead g < s.ahead g := by
  have round := step_round g goes
  generalize s.step g = after at round
  cases round with
  | skip =>
      simp only [ahead, onTrail, List.length_cons]
      omega
  | begin new =>
      have entered := load_enter g new List.not_mem_nil
      simp only [ahead, yetToLook, onTrail, List.map_cons, List.map_nil, List.length_cons]
      omega
  | leave =>
      simp only [ahead, yetToLook, onTrail, unseen_leave, List.map_cons, List.length_nil]
      omega
  | close =>
      simp only [ahead, onTrail, Bool.not_true, Bool.not_false, Bool.toNat_true, Bool.toNat_false]
      omega
  | pass =>
      simp only [ahead, yetToLook, onTrail, List.map_cons, List.length_cons]
      omega
  | follow off new =>
      have entered := load_enter g new off
      simp only [ahead, yetToLook, onTrail, List.map_cons, List.length_cons]
      omega

/-- Goes on until the search is over. -/
def finish (g : Dependencies) (s : Search) : Search :=
  if s.isOver then s else finish g (s.step g)
termination_by s.ahead g
decreasing_by exact ahead_step g (eq_false_of_ne_true ‹_›)

end Search

end Lifecycle
