import Lifecycle.Blueprint.Walk
import Mathlib.Logic.Function.Iterate
import Mathlib.Logic.Relation
/-!
Walks come to an end and see what can be reached. Between the rounds every state seen can be reached, and
whatever follows a state that is no longer waiting has been seen. -/

namespace Lifecycle

/-- Some transition leads from the one state to the other. -/
def LeadsTo (ts : List Transition) (state next : String) : Prop :=
  ∃ t ∈ ts, t.source = state ∧ t.target = next

theorem leadsTo_cons {t : Transition} {rest : List Transition} {state next : String} :
    LeadsTo (t :: rest) state next ↔
      t.source = state ∧ t.target = next ∨ LeadsTo rest state next := by
  simp only [LeadsTo, List.mem_cons, exists_eq_or_imp]

namespace Walk

theorem mem_seen_meet {w : Walk} {state other : String} :
    other ∈ (w.meet state).seen ↔ other ∈ w.seen ∨ other = state := by
  rw [meet]
  split
  · next known =>
    constructor
    · exact .inl
    · intro either
      cases either with
      | inl before => exact before
      | inr same => exact same ▸ known
  · simp only [List.mem_append, List.mem_singleton]

theorem mem_waiting_meet {w : Walk} {state other : String} :
    other ∈ (w.meet state).waiting ↔ other ∈ w.waiting ∨ other ∉ w.seen ∧ other = state := by
  rw [meet]
  split
  · next known =>
    constructor
    · exact .inl
    · intro either
      cases either with
      | inl before => exact before
      | inr met => exact absurd (met.2 ▸ known) met.1
  · next new =>
    simp only [List.mem_append, List.mem_singleton]
    apply or_congr_right
    constructor
    · intro same
      exact ⟨same ▸ new, same⟩
    · exact And.right

theorem mem_seen_leave (ts : List Transition) (state : String) {w : Walk} {other : String} :
    other ∈ (w.leave ts state).seen ↔ other ∈ w.seen ∨ LeadsTo ts state other := by
  induction ts generalizing w with
  | nil => simp [leave, LeadsTo]
  | cons t rest ih =>
      rw [leave, List.foldl_cons, ← leave, ih, leadsTo_cons]
      split
      · next here => rw [mem_seen_meet, or_assoc, eq_comm, and_iff_right here]
      · next elsewhere => simp only [elsewhere, false_and, false_or]

theorem mem_waiting_leave (ts : List Transition) (state : String) {w : Walk} {other : String} :
    other ∈ (w.leave ts state).waiting ↔
      other ∈ w.waiting ∨ other ∉ w.seen ∧ LeadsTo ts state other := by
  induction ts generalizing w with
  | nil => simp [leave, LeadsTo]
  | cons t rest ih =>
      rw [leave, List.foldl_cons, ← leave, ih, leadsTo_cons]
      split
      · next here =>
        rw [mem_waiting_meet, mem_seen_meet, eq_comm, and_iff_right here]
        grind
      · next elsewhere => simp only [elsewhere, false_and, false_or]

variable {ts : List Transition} {initial : String} {w : Walk}

/-- What holds between the rounds of a walk that began at a state. -/
structure Sound (ts : List Transition) (initial : String) (w : Walk) : Prop where
  begun : initial ∈ w.seen
  reached : ∀ state ∈ w.seen, Relation.ReflTransGen (LeadsTo ts) initial state
  waits : ∀ state ∈ w.waiting, state ∈ w.seen
  followed : ∀ state ∈ w.seen, state ∉ w.waiting → ∀ next, LeadsTo ts state next → next ∈ w.seen

theorem start_sound (ts : List Transition) (initial : String) : (start initial).Sound ts initial where
  begun := List.mem_singleton_self _
  reached _ seen := List.mem_singleton.mp seen ▸ .refl
  waits _ waiting := waiting
  followed _ seen left := absurd seen left

theorem Sound.step (sound : w.Sound ts initial) : (w.step ts).Sound ts initial := by
  cases w with | mk seen waiting =>
  cases waiting with
  | nil => exact sound
  | cons first rest =>
    have here : first ∈ seen := sound.waits first List.mem_cons_self
    constructor
    · exact (mem_seen_leave ts first).mpr (.inl sound.begun)
    · intro state met
      cases (mem_seen_leave ts first).mp met with
      | inl before => exact sound.reached state before
      | inr leads => exact (sound.reached first here).tail leads
    · intro state waits
      apply (mem_seen_leave ts first).mpr
      cases (mem_waiting_leave ts first).mp waits with
      | inl before => exact .inl (sound.waits state (List.mem_cons_of_mem _ before))
      | inr new => exact .inr new.2
    · intro state met left next leads
      rw [Walk.step, mem_waiting_leave, not_or, not_and', not_not] at left
      -- A state that is met in this round for the first time waits, so this one was known.
      have known : state ∈ seen := ((mem_seen_leave ts first).mp met).elim id left.2
      apply (mem_seen_leave ts first).mpr
      by_cases same : state = first
      · exact .inr (same ▸ leads)
      · have before : state ∉ first :: rest := List.not_mem_cons_of_ne_of_not_mem same left.1
        exact .inl (sound.followed state known before next leads)

/-- When nothing waits, what has been seen is what can be reached. -/
theorem Sound.mem_iff (sound : w.Sound ts initial) (done : w.waiting = []) {state : String} :
    state ∈ w.seen ↔ Relation.ReflTransGen (LeadsTo ts) initial state := by
  constructor
  · exact sound.reached state
  · intro path
    induction path with
    | refl => exact sound.begun
    | tail _ leads ih => exact sound.followed _ ih (by simp [done]) _ leads

theorem Sound.mem_finish_iff (sound : w.Sound ts initial) {state : String} :
    state ∈ w.finish ts ↔ Relation.ReflTransGen (LeadsTo ts) initial state := by
  induction w using finish.induct ts with
  | case1 w done =>
      rw [finish, if_pos done]
      exact sound.mem_iff done
  | case2 w goes ih =>
      rw [finish, if_neg goes]
      exact ih sound.step

/-- After finitely many rounds nothing waits, whatever the transitions are, and those rounds are what a
walk is. -/
theorem finish_ends (ts : List Transition) (w : Walk) :
    ∃ rounds ≤ w.ahead ts, ((step ts)^[rounds] w).waiting = [] ∧
      w.finish ts = ((step ts)^[rounds] w).seen := by
  induction w using finish.induct ts with
  | case1 w done =>
      rw [finish, if_pos done]
      exact ⟨0, Nat.zero_le _, done, rfl⟩
  | case2 w goes ih =>
      rw [finish, if_neg goes]
      have ⟨rounds, few, done, same⟩ := ih
      exact ⟨rounds + 1, Nat.lt_of_le_of_lt few (ahead_step ts goes), done, same⟩

end Walk

end Lifecycle
