import Lifecycle.Fault
/-!
What computations on a state come to, step by step: a failure ends them, and what they did to the
state until then stays. -/

namespace Lifecycle

theorem Except.bind_eq_ok {ε α β : Type} {e : Except ε α} {next : α → Except ε β} {b : β} :
    e >>= next = .ok b ↔ ∃ a, e = .ok a ∧ next a = .ok b := by
  cases e with
  | error fault =>
      constructor
      · nofun
      · rintro ⟨_, same, _⟩
        cases same
  | ok a =>
      constructor
      · exact fun later => ⟨a, rfl, later⟩
      · rintro ⟨_, same, later⟩
        cases same
        exact later

theorem ok_of_toOption {α : Type} {e : Except Fault α} {a : α} (same : e.toOption = some a) :
    e = .ok a := by
  cases e with
  | error fault => cases same
  | ok b => exact congrArg Except.ok (Option.some.inj same)

namespace Attempt

variable {s t α β : Type}

@[simp] theorem run_pure (a : α) (state : s) : (pure a : Attempt s α) state = (.ok a, state) := rfl

@[simp] theorem run_throw (fault : Fault) (state : s) :
    (throw fault : Attempt s α) state = (.error fault, state) := rfl

@[simp] theorem run_get (state : s) : (get : Attempt s s) state = (.ok state, state) := rfl

@[simp] theorem run_modify (change : s → s) (state : s) :
    (modify change : Attempt s PUnit) state = (.ok ⟨⟩, change state) := rfl

@[simp] theorem run_ofExcept (e : Except Fault α) (state : s) :
    (ofExcept e : Attempt s α) state = (e, state) := rfl

theorem run_bind (work : Attempt s α) (next : α → Attempt s β) (state : s) :
    (work >>= next) state =
      match work state with
      | (.ok a, after) => next a after
      | (.error fault, after) => (.error fault, after) := by
  show ExceptT.bindCont next (work state).1 (work state).2 = _
  rcases work state with ⟨result, after⟩
  cases result <;> rfl

theorem run_bind_ok {work : Attempt s α} {state after : s} {a : α}
    (done : work state = (.ok a, after)) (next : α → Attempt s β) :
    (work >>= next) state = next a after := by
  rw [run_bind, done]

theorem bind_eq_ok {work : Attempt s α} {next : α → Attempt s β} {state after : s} {b : β} :
    (work >>= next) state = (.ok b, after) ↔
      ∃ a middle, work state = (.ok a, middle) ∧ next a middle = (.ok b, after) := by
  rw [run_bind]
  rcases work state with ⟨fault | a, middle⟩
  · constructor
    · nofun
    · rintro ⟨_, _, same, _⟩
      cases same
  · constructor
    · exact fun later => ⟨a, middle, rfl, later⟩
    · rintro ⟨_, _, same, later⟩
      cases same
      exact later

theorem ok_of_bind {work : Attempt s α} {next : α → Attempt s β} {state : s} {b : β}
    (done : ((work >>= next) state).1 = .ok b) :
    ∃ a after, work state = (.ok a, after) ∧ (next a after).1 = .ok b := by
  rw [run_bind] at done
  rcases shape : work state with ⟨fault | a, after⟩
  · rw [shape] at done
    cases done
  · rw [shape] at done
    exact ⟨a, after, rfl, done⟩

/-- What fails first fails as a whole. -/
theorem bind_fails {work : Attempt s α} {state : s} {fault : Fault}
    (failed : (work state).1 = .error fault) (next : α → Attempt s β) :
    ((work >>= next) state).1 = .error fault := by
  rw [run_bind]
  rcases shape : work state with ⟨other | a, after⟩
  · rw [shape] at failed
    obtain rfl := Except.error.inj failed
    rfl
  · rw [shape] at failed
    cases failed

/-- A computation whose result is changed gives what is wanted if it gave what becomes of that. -/
theorem bind_pure_ok (work : Attempt s α) (f : α → β) (state : s) (b : β) :
    ((work >>= fun a => pure (f a)) state).1 = .ok b ↔ ∃ a, (work state).1 = .ok a ∧ f a = b := by
  rw [run_bind]
  rcases work state with ⟨fault | a, after⟩
  · constructor
    · nofun
    · rintro ⟨a, same, _⟩
      cases same
  · constructor
    · intro same
      exact ⟨a, rfl, Except.ok.inj same⟩
    · rintro ⟨_, same, rfl⟩
      obtain rfl := Except.ok.inj same
      rfl

theorem run_mapM_cons (f : α → Attempt s β) (a : α) (rest : List α) (state : s) :
    (a :: rest).mapM f state =
      match f a state with
      | (.ok b, after) => (rest.mapM f >>= fun bs => pure (b :: bs)) after
      | (.error fault, after) => (.error fault, after) := by
  rw [List.mapM_cons, run_bind]

/-- Lists are found to be empty one by one if each of them is, in whatever state. -/
theorem mapM_flatten_nil_iff {f : α → Attempt s (List β)} {good : α → Prop} {list : List α}
    (each : ∀ a ∈ list, ∀ state, (f a state).1 = .ok [] ↔ good a) (state : s) :
    (∃ found, (list.mapM f state).1 = .ok found ∧ found.flatten = []) ↔ ∀ a ∈ list, good a := by
  induction list generalizing state with
  | nil => exact ⟨fun _ => nofun, fun _ => ⟨[], rfl, rfl⟩⟩
  | cons a rest ih =>
      have here := each a List.mem_cons_self state
      have others := ih fun b member => each b (List.mem_cons_of_mem _ member)
      rw [List.forall_mem_cons, ← here, run_mapM_cons]
      rcases shape : f a state with ⟨fault | first, after⟩
      · constructor
        · rintro ⟨found, same, _⟩
          cases same
        · rintro ⟨same, _⟩
          cases same
      · rw [← others after]
        constructor
        · rintro ⟨found, same, empty⟩
          obtain ⟨more, done, rfl⟩ := (bind_pure_ok _ _ _ _).mp same
          obtain ⟨rfl, nothing⟩ := List.append_eq_nil_iff.mp empty
          exact ⟨rfl, more, done, nothing⟩
        · rintro ⟨same, more, done, nothing⟩
          obtain rfl : first = [] := Except.ok.inj same
          exact ⟨[] :: more, (bind_pure_ok _ _ _ _).mpr ⟨more, done, rfl⟩, nothing⟩

/-- What every computation keeps, without failing where it holds, all of them keep. -/
theorem forM_keeps {work : α → Attempt s PUnit} {list : List α} {good : s → Prop}
    (each : ∀ a ∈ list, ∀ state, good state → ∃ after, work a state = (.ok ⟨⟩, after) ∧ good after)
    {state : s} (start : good state) :
    ∃ after, list.forM work state = (.ok ⟨⟩, after) ∧ good after := by
  induction list generalizing state with
  | nil => exact ⟨state, rfl, start⟩
  | cons a rest ih =>
      obtain ⟨middle, done, kept⟩ := each a List.mem_cons_self state start
      show ∃ after, (work a >>= fun _ => rest.forM work) state = _ ∧ _
      rw [run_bind_ok done]
      exact ih (fun b member => each b (List.mem_cons_of_mem _ member)) kept

/-- If some of the computations fail, all in one way, and the others do not, the whole fails that
way. -/
theorem mapM_fails {f : α → Attempt s β} {list : List α} {bad : α → Prop} {fault : Fault}
    (fails : ∀ a ∈ list, bad a → ∀ state, (f a state).1 = .error fault)
    (succeeds : ∀ a ∈ list, ¬bad a → ∀ state, ∃ b, (f a state).1 = .ok b)
    (some : ∃ a ∈ list, bad a) (state : s) : (list.mapM f state).1 = .error fault := by
  induction list generalizing state with
  | nil =>
      obtain ⟨a, member, _⟩ := some
      cases member
  | cons a rest ih =>
      by_cases here : bad a
      · rw [List.mapM_cons]
        exact bind_fails (fails a List.mem_cons_self here state) _
      · obtain ⟨b, done⟩ := succeeds a List.mem_cons_self here state
        have later : ∃ a ∈ rest, bad a := by
          obtain ⟨c, member, isBad⟩ := some
          rcases List.mem_cons.mp member with rfl | member
          · exact absurd isBad here
          · exact ⟨c, member, isBad⟩
        rw [run_mapM_cons]
        rcases shape : f a state with ⟨other | first, after⟩
        · rw [shape] at done
          cases done
        · exact bind_fails (ih (fun b member => fails b (List.mem_cons_of_mem _ member))
            (fun b member => succeeds b (List.mem_cons_of_mem _ member)) later after) _

theorem ofExcept_bind (e : Except Fault α) (next : α → Attempt s β) (state : s) :
    (ofExcept e >>= next) state =
      match e with
      | .ok a => next a state
      | .error fault => (.error fault, state) := by
  rw [run_bind, run_ofExcept]
  cases e <;> rfl

theorem run_focus (get : s → t) (set : t → s → s) (work : Attempt t α) (state : s) :
    focus get set work state = ((work (get state)).1, set (work (get state)).2 state) := rfl

theorem run_rethrow (wrap : Fault → Fault) (work : Attempt s α) (state : s) :
    rethrow wrap work state = ((work state).1.mapError wrap, (work state).2) := by
  rw [rethrow]
  rcases work state with ⟨result, after⟩
  cases result <;> rfl

theorem run_tryCatch (work : Attempt s α) (handle : Fault → Attempt s α) (state : s) :
    (tryCatch work handle) state =
      match work state with
      | (.ok a, after) => (.ok a, after)
      | (.error fault, after) => handle fault after := by
  simp only [tryCatch, tryCatchThe, MonadExceptOf.tryCatch, ExceptT.tryCatch, ExceptT.mk, bind,
    StateT.bind]
  rcases work state with ⟨result, after⟩
  cases result <;> rfl

section

variable {kind : Fault → Prop}

/-- Whether all failures are of one kind. -/
def Fails (kind : Fault → Prop) (work : Attempt s α) : Prop :=
  ∀ state fault, (work state).1 = .error fault → kind fault

theorem fails_pure (a : α) : Fails kind (pure a : Attempt s α) := nofun

theorem fails_throw {fault : Fault} (is : kind fault) : Fails kind (throw fault : Attempt s α) := by
  intro state other failed
  cases failed
  exact is

theorem fails_get : Fails kind (get : Attempt s s) := nofun

theorem fails_modify (change : s → s) : Fails kind (modify change : Attempt s PUnit) := nofun

theorem fails_ofExcept {e : Except Fault α} (never : ∀ fault, e = .error fault → kind fault) :
    Fails kind (ofExcept e : Attempt s α) := fun _ => never

theorem fails_ite {p : Prop} [Decidable p] {work other : Attempt s α} (first : Fails kind work)
    (second : Fails kind other) : Fails kind (if p then work else other) := by
  split
  · exact first
  · exact second

theorem Fails.mono {work : Attempt s α} (fails : Fails kind work) {wider : Fault → Prop}
    (weaken : ∀ fault, kind fault → wider fault) : Fails wider work :=
  fun state fault failed => weaken fault (fails state fault failed)

theorem Fails.bind {work : Attempt s α} (first : Fails kind work) {next : α → Attempt s β}
    (later : ∀ a, Fails kind (next a)) : Fails kind (work >>= next) := by
  intro state fault failed
  rw [run_bind] at failed
  rcases shape : work state with ⟨other | a, after⟩
  · rw [shape] at failed
    obtain rfl := Except.error.inj failed
    exact first state other (by rw [shape])
  · rw [shape] at failed
    exact later a after fault failed

theorem Fails.forM {work : α → Attempt s PUnit} (each : ∀ a, Fails kind (work a)) (list : List α) :
    Fails kind (list.forM work) := by
  induction list with
  | nil => exact fails_pure _
  | cons a rest ih => exact (each a).bind fun _ => ih

theorem Fails.mapM {f : α → Attempt s β} (each : ∀ a, Fails kind (f a)) (list : List α) :
    Fails kind (list.mapM f) := by
  induction list with
  | nil => exact fails_pure _
  | cons a rest ih =>
      rw [List.mapM_cons]
      exact (each a).bind fun _ => ih.bind fun _ => fails_pure _

theorem Fails.rethrow {work : Attempt s α} (inner : Fails kind work) {outer : Fault → Prop}
    {wrap : Fault → Fault} (becomes : ∀ fault, kind fault → outer (wrap fault)) :
    Fails outer (rethrow wrap work) := by
  intro state fault failed
  rw [run_rethrow] at failed
  rcases shape : work state with ⟨other | a, after⟩
  · rw [shape] at failed
    obtain rfl := Except.error.inj failed
    exact becomes other (inner state other (by rw [shape]))
  · rw [shape] at failed
    cases failed

end

section

variable {κ : Type} {observe : s → κ}

/-- Whether what can be observed stays as it was, whatever the outcome. -/
def Leaves (observe : s → κ) (work : Attempt s α) : Prop :=
  ∀ state, observe (work state).2 = observe state

theorem leaves_pure (a : α) : Leaves observe (pure a : Attempt s α) := fun _ => rfl

theorem leaves_throw (fault : Fault) : Leaves observe (throw fault : Attempt s α) := fun _ => rfl

theorem leaves_get : Leaves observe (get : Attempt s s) := fun _ => rfl

theorem leaves_ofExcept (e : Except Fault α) : Leaves observe (ofExcept e : Attempt s α) :=
  fun _ => rfl

theorem leaves_ite {p : Prop} [Decidable p] {work other : Attempt s α} (first : Leaves observe work)
    (second : Leaves observe other) : Leaves observe (if p then work else other) := by
  split
  · exact first
  · exact second

theorem Leaves.bind {work : Attempt s α} (first : Leaves observe work) {next : α → Attempt s β}
    (later : ∀ a, Leaves observe (next a)) : Leaves observe (work >>= next) := by
  intro state
  have same := first state
  rw [run_bind]
  rcases shape : work state with ⟨fault | a, after⟩
  · rw [shape] at same
    exact same
  · rw [shape] at same
    exact (later a after).trans same

theorem Leaves.forM {work : α → Attempt s PUnit} (each : ∀ a, Leaves observe (work a))
    (list : List α) : Leaves observe (list.forM work) := by
  induction list with
  | nil => exact leaves_pure _
  | cons a rest ih => exact (each a).bind fun _ => ih

theorem Leaves.mapM {f : α → Attempt s β} (each : ∀ a, Leaves observe (f a)) (list : List α) :
    Leaves observe (list.mapM f) := by
  induction list with
  | nil => exact leaves_pure _
  | cons a rest ih =>
      rw [List.mapM_cons]
      exact (each a).bind fun _ => ih.bind fun _ => leaves_pure _

end

section

variable {κ : Type} {observe : s → κ} {good : α → s → Prop}

/-- What succeeds leaves a good state, and what fails leaves what can be observed as it was. -/
def Settles (observe : s → κ) (good : α → s → Prop) (work : Attempt s α) : Prop :=
  ∀ state,
    match work state with
    | (.ok a, after) => good a after
    | (.error _, after) => observe after = observe state

theorem Settles.ok {work : Attempt s α} (settles : Settles observe good work) {state after : s} {a : α}
    (done : work state = (.ok a, after)) : good a after := by
  have outcome := settles state
  rw [done] at outcome
  exact outcome

theorem Settles.error {work : Attempt s α} (settles : Settles observe good work) {state after : s}
    {fault : Fault} (failed : work state = (.error fault, after)) : observe after = observe state := by
  have outcome := settles state
  rw [failed] at outcome
  exact outcome

theorem Settles.mono {work : Attempt s α} (settles : Settles observe good work) {other : α → s → Prop}
    (implies : ∀ a after, good a after → other a after) : Settles observe other work := by
  intro state
  have outcome := settles state
  rcases shape : work state with ⟨fault | a, after⟩
  · rw [shape] at outcome
    exact outcome
  · rw [shape] at outcome
    exact implies a after outcome

/-- What leaves the observed alone may come before. -/
theorem Settles.after {work : Attempt s β} (quiet : ∀ state, observe (work state).2 = observe state)
    {next : β → Attempt s α} (later : ∀ b, Settles observe good (next b)) :
    Settles observe good (work >>= next) := by
  intro state
  have same := quiet state
  rw [run_bind]
  rcases shape : work state with ⟨fault | b, middle⟩
  · rw [shape] at same
    exact same
  · rw [shape] at same
    have outcome := later b middle
    simp only
    rcases last : next b middle with ⟨fault | a, after⟩
    · rw [last] at outcome
      exact outcome.trans same
    · rw [last] at outcome
      exact outcome

theorem Settles.map {work : Attempt s α} (settles : Settles observe good work) (f : α → β) :
    Settles observe (fun b after => ∃ a, f a = b ∧ good a after) (work >>= fun a => pure (f a)) := by
  intro state
  have outcome := settles state
  rw [run_bind]
  rcases shape : work state with ⟨fault | a, after⟩
  · rw [shape] at outcome
    exact outcome
  · rw [shape] at outcome
    exact ⟨a, rfl, outcome⟩

theorem Settles.rethrow {work : Attempt s α} (settles : Settles observe good work)
    (wrap : Fault → Fault) : Settles observe good (rethrow wrap work) := by
  intro state
  have outcome := settles state
  rw [run_rethrow]
  rcases shape : work state with ⟨fault | a, after⟩
  · rw [shape] at outcome
    exact outcome
  · rw [shape] at outcome
    exact outcome

end

end Attempt

end Lifecycle
