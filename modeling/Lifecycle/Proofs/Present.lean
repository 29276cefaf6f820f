import Lifecycle.Proofs.Newest
import Lifecycle.Proofs.Phases
import Mathlib.Logic.Function.Basic
/-!
Phases that are there, whatever else stands in their document. A change of one leaves the others as they
are, and what a transition brings up to date are the phases that end where it came from and those that
begin where it went. -/

namespace Lifecycle

theorem Keyed.modify_modify {κ α : Type} [DecidableEq κ] (table : Keyed κ α) (k : κ) (f g : α → α) :
    modify (modify table k f) k g = modify table k (g ∘ f) := by
  induction table with
  | nil => rfl
  | cons entry rest ih =>
      rw [modify, modify]
      by_cases same : entry.1 = k
      · rw [if_pos same, if_pos same, modify, if_pos same]
        rfl
      · rw [if_neg same, if_neg same, modify, if_neg same, ih]

theorem Keyed.find?_modify {κ α : Type} [DecidableEq κ] (table : Keyed κ α) (k l : κ) (f : α → α) :
    find? (modify table k f) l = if k = l then (find? table k).map f else find? table l := by
  induction table with
  | nil => simp [modify]
  | cons entry rest ih =>
      rw [modify]
      by_cases same : entry.1 = k
      · rw [if_pos same]
        by_cases here : k = l
        · simp [find?, same, here]
        · simp [find?, same, here]
      · rw [if_neg same]
        by_cases here : k = l
        · subst here
          rw [find?, if_neg same, ih, if_pos rfl, if_pos rfl, find?, if_neg same]
        · rw [find?, ih, if_neg here, if_neg here, find?]

namespace Document

variable {d : Document} {name : String} {p : Phase}

theorem phase_eq_ok : d.phase name = .ok p ↔
    ∃ entries, d.phases = .proper entries ∧ Keyed.find? entries name = some (.proper p) := by
  rw [phase_eq_ok_iff, phase?]
  rcases d.phases with entries | v
  · simp only [Slot.having, bind, Except.bind, Slot.proper.injEq, exists_eq_left']
    rcases Keyed.find? entries name with _ | q | v
    · constructor
      · intro same
        cases same
      · intro same
        cases same
    · constructor
      · intro same
        cases same
        rfl
      · intro same
        cases same
        rfl
    · constructor
      · intro same
        cases v <;> cases same
      · intro same
        cases same
  · constructor
    · intro same
      cases same
    · rintro ⟨_, same, _⟩
      cases same

theorem phase?_modifyPhase (d : Document) (name : String) (change : Phase → Phase) :
    (d.modifyPhase name change).phase? name = (d.phase? name).map (Option.map change) := by
  rw [phase?, phase?, modifyPhase]
  rcases d.phases with entries | v
  · simp only [Table.modify, Slot.map, Slot.having, bind, Except.bind, Keyed.find?_modify, if_true]
    rcases Keyed.find? entries name with _ | q | v
    · rfl
    · rfl
    · cases v <;> rfl
  · rfl

theorem phase_modifyPhase (there : d.phase name = .ok p) (change : Phase → Phase) :
    (d.modifyPhase name change).phase name = .ok (change p) := by
  rw [phase_eq_ok_iff, phase?_modifyPhase, phase_eq_ok_iff.mp there]
  rfl

theorem phase?_modifyPhase_ne {other : String} (differs : name ≠ other) (change : Phase → Phase) :
    (d.modifyPhase name change).phase? other = d.phase? other := by
  rw [phase?, phase?, modifyPhase]
  rcases d.phases with entries | v
  · simp only [Table.modify, Slot.map, Slot.having, bind, Except.bind, Keyed.find?_modify,
      if_neg differs]
  · rfl

theorem phase_modifyPhase_ne {other : String} (differs : name ≠ other) (change : Phase → Phase) :
    (d.modifyPhase name change).phase other = d.phase other := by
  rw [phase, phase, phase?_modifyPhase_ne differs]

theorem Typed.phase {condition : Condition} (typed : d.Typed condition) (there : d.phase name = .ok p) :
    p.Typed condition := by
  obtain ⟨entries, given, _, all⟩ := typed.phases.elim
  obtain ⟨_, same, found⟩ := phase_eq_ok.mp there
  obtain rfl := Slot.proper.inj (given.symm.trans same)
  rw [Keyed.find?_map] at found
  obtain ⟨q, listed, same⟩ := Option.map_eq_some_iff.mp found
  obtain rfl := Slot.proper.inj same
  exact all _ (Keyed.mem_of_find? listed)

theorem lists_of_phase (there : d.phase name = .ok p) : d.phases.lists name = .ok true := by
  obtain ⟨entries, given, found⟩ := phase_eq_ok.mp there
  rw [given, Table.lists, Keyed.has, found]
  rfl

/-- Of two changes of a phase to what does not depend on it the later one counts. -/
theorem modifyPhase_modifyPhase (d : Document) (name : String) (p q : Phase) :
    (d.modifyPhase name fun _ => p).modifyPhase name (fun _ => q) = d.modifyPhase name fun _ => q := by
  rw [modifyPhase, modifyPhase, modifyPhase]
  rcases d.phases with entries | v
  · simp only [Table.modify, Slot.map, Keyed.modify_modify]
    congr 3
    funext s
    rcases s with _ | _ <;> rfl
  · rfl

/-- The named phases are there, and they are these. -/
def Shows (d : Document) (names : List String) (phases : String → Phase) : Prop :=
  ∀ name ∈ names, d.phase name = .ok (phases name)

variable {names : List String} {phases : String → Phase}

/-- Only the table of phases matters. -/
theorem Shows.of_phases_eq {other : Document} (shows : d.Shows names phases)
    (same : other.phases = d.phases) : other.Shows names phases := by
  intro name member
  have there := shows name member
  rw [phase_eq_ok] at there ⊢
  rw [same]
  exact there

theorem Shows.modifyPhase (shows : d.Shows names phases) {name : String} (member : name ∈ names)
    (q : Phase) : (d.modifyPhase name fun _ => q).Shows names (Function.update phases name q) := by
  intro other listed
  by_cases same : other = name
  · subst same
    rw [Function.update_self]
    exact phase_modifyPhase (shows other member) _
  · rw [Function.update_of_ne same]
    exact (phase_modifyPhase_ne (Ne.symm same) _).trans (shows other listed)

end Document

namespace Phase

variable {p : Phase} {now : Timestamp}

@[simp] theorem start_inputs : (p.start now).inputs = p.inputs := by rw [start]; split <;> rfl

@[simp] theorem start_outputs : (p.start now).outputs = p.outputs := by rw [start]; split <;> rfl

@[simp] theorem start_iteration : (p.start now).iteration = p.iteration := by rw [start]; split <;> rfl

@[simp] theorem complete_inputs : (p.complete now).inputs = p.inputs := by rw [complete]; split <;> rfl

@[simp] theorem complete_outputs : (p.complete now).outputs = p.outputs := by
  rw [complete]; split <;> rfl

@[simp] theorem complete_iteration : (p.complete now).iteration = p.iteration := by
  rw [complete]; split <;> rfl

end Phase

namespace Edit

variable {d : Document} {names : List String} {phases : String → Phase} {name : String} {p q : Phase}

theorem run_phase (there : d.phase name = .ok p) : phase name d = (.ok p, d) := by
  rw [phase, there]

theorem run_changePhase (there : d.phase name = .ok p) {change : Phase → Except Fault Phase}
    (changed : change p = .ok q) :
    changePhase name change d = (.ok (), d.modifyPhase name fun _ => q) := by
  rw [changePhase, Attempt.run_bind_ok (run_phase there), changed]
  rfl

/-- A change that fails changes nothing. -/
theorem changePhase_error {change : Phase → Except Fault Phase} {edited : Document} {fault : Fault}
    (failed : changePhase name change d = (.error fault, edited)) : edited = d := by
  rcases there : d.phase name with other | p
  · rw [changePhase, Attempt.run_bind, phase, there] at failed
    cases failed
    rfl
  · rw [changePhase, Attempt.run_bind_ok (run_phase there), Attempt.ofExcept_bind] at failed
    rcases changed : change p with other | q
    · rw [changed] at failed
      cases failed
      rfl
    · rw [changed] at failed
      cases failed

theorem changePhase_eq_ok {change : Phase → Except Fault Phase} {edited : Document} :
    changePhase name change d = (.ok (), edited) ↔
      ∃ p q, d.phase name = .ok p ∧ change p = .ok q ∧ edited = d.modifyPhase name fun _ => q := by
  constructor
  · intro done
    rw [changePhase, Attempt.bind_eq_ok] at done
    obtain ⟨p, middle, asked, done⟩ := done
    obtain ⟨there, rfl⟩ := Prod.mk.inj asked
    rw [Attempt.ofExcept_bind] at done
    rcases changed : change p with fault | q
    · rw [changed] at done
      cases done
    · rw [changed] at done
      cases done
      exact ⟨p, q, there, changed, rfl⟩
  · rintro ⟨p, q, there, changed, rfl⟩
    exact run_changePhase there changed

theorem iteratePhase_eq_ok {iteration : Slot Int} {edited : Document} :
    iteratePhase name d = (.ok iteration, edited) ↔
      ∃ p q, d.phase name = .ok p ∧ p.iterate = .ok q ∧ iteration = q.iteration ∧
        edited = d.modifyPhase name fun _ => q := by
  rw [iteratePhase, Attempt.bind_eq_ok]
  constructor
  · rintro ⟨⟨⟩, middle, changed, counted⟩
    obtain ⟨p, q, there, iterated, rfl⟩ := changePhase_eq_ok.mp changed
    rw [Attempt.run_bind_ok (run_phase (Document.phase_modifyPhase there fun _ => q))] at counted
    cases counted
    exact ⟨p, q, there, iterated, rfl, rfl⟩
  · rintro ⟨p, q, there, iterated, rfl, rfl⟩
    refine ⟨(), _, run_changePhase there iterated, ?_⟩
    rw [Attempt.run_bind_ok (run_phase (Document.phase_modifyPhase there fun _ => q))]
    rfl

theorem copyOutput_eq_ok {source target type : String} {test : Artifact → Except Fault Bool}
    {a : Artifact} {edited : Document} :
    copyOutput source target type test d = (.ok a, edited) ↔
      ∃ origin p inputs, d.phase source = .ok origin ∧ d.phase target = .ok p ∧
        origin.newestOutput? type test = .ok (some a) ∧ a.toValue.checkCopy = .ok () ∧
        p.inputs.add a = .ok inputs ∧ edited = d.modifyPhase target fun _ => { p with inputs } := by
  constructor
  · intro done
    rw [copyOutput, Attempt.bind_eq_ok] at done
    obtain ⟨origin, _, asked, done⟩ := done
    obtain ⟨beside, rfl⟩ := Prod.mk.inj asked
    rw [Attempt.bind_eq_ok] at done
    obtain ⟨p, _, asked, done⟩ := done
    obtain ⟨there, rfl⟩ := Prod.mk.inj asked
    rw [Attempt.ofExcept_bind] at done
    rcases found : origin.newestOutput? type test with fault | _ | b
    · rw [found] at done
      cases done
    · rw [found] at done
      cases done
    · rw [found] at done
      simp only at done
      rw [Attempt.ofExcept_bind] at done
      rcases copied : b.toValue.checkCopy with fault | ⟨⟩
      · rw [copied] at done
        cases done
      · rw [copied] at done
        simp only at done
        rw [Attempt.bind_eq_ok] at done
        obtain ⟨⟨⟩, middle, changed, done⟩ := done
        cases done
        obtain ⟨p', q, again, added, rfl⟩ := changePhase_eq_ok.mp changed
        obtain rfl := Except.ok.inj (there.symm.trans again)
        rcases grown : p.inputs.add a with fault | inputs
        · rw [grown] at added
          cases added
        · rw [grown] at added
          cases added
          exact ⟨origin, p, inputs, beside, there, found, copied, grown, rfl⟩
  · rintro ⟨origin, p, inputs, beside, there, found, copied, grown, rfl⟩
    rw [copyOutput, Attempt.run_bind_ok (run_phase beside), Attempt.run_bind_ok (run_phase there),
      Attempt.ofExcept_bind, found]
    simp only
    rw [Attempt.ofExcept_bind, copied]
    simp only
    rw [Attempt.run_bind_ok (run_changePhase there (by rw [grown]; rfl))]
    rfl

section

variable (there : d.phase name = .ok p) {edited : Document}

include there

/-- What is done to a phase that was changed already is done to what it was changed to. -/
theorem changePhase_again_eq_ok {change : Phase → Except Fault Phase} :
    changePhase name change (d.modifyPhase name fun _ => q) = (.ok (), edited) ↔
      ∃ r, change q = .ok r ∧ edited = d.modifyPhase name fun _ => r := by
  rw [changePhase_eq_ok]
  simp only [Document.phase_modifyPhase there, Document.modifyPhase_modifyPhase, Except.ok.injEq,
    exists_and_left, exists_eq_left']

theorem iteratePhase_again_eq_ok {iteration : Slot Int} :
    iteratePhase name (d.modifyPhase name fun _ => q) = (.ok iteration, edited) ↔
      ∃ r, q.iterate = .ok r ∧ iteration = r.iteration ∧ edited = d.modifyPhase name fun _ => r := by
  rw [iteratePhase_eq_ok]
  simp only [Document.phase_modifyPhase there, Document.modifyPhase_modifyPhase, Except.ok.injEq,
    exists_and_left, exists_eq_left']

theorem copyOutput_again_eq_ok {source type : String} (apart : name ≠ source)
    {test : Artifact → Except Fault Bool} {a : Artifact} :
    copyOutput source name type test (d.modifyPhase name fun _ => q) = (.ok a, edited) ↔
      ∃ origin inputs, d.phase source = .ok origin ∧ origin.newestOutput? type test = .ok (some a) ∧
        a.toValue.checkCopy = .ok () ∧ q.inputs.add a = .ok inputs ∧
        edited = d.modifyPhase name fun _ => { q with inputs } := by
  rw [copyOutput_eq_ok]
  simp only [Document.phase_modifyPhase there, Document.phase_modifyPhase_ne apart,
    Document.modifyPhase_modifyPhase, Except.ok.injEq, exists_and_left, exists_eq_left']

end

theorem changePhase_shows (shows : d.Shows names phases) (member : name ∈ names)
    {change : Phase → Except Fault Phase} (changed : change (phases name) = .ok q) :
    ∃ edited, changePhase name change d = (.ok (), edited) ∧
      edited.Shows names (Function.update phases name q) :=
  ⟨_, run_changePhase (shows name member) changed, shows.modifyPhase member q⟩

/-- The phases after a change of each of those listed. -/
def changeAll (change : String → Phase → Phase) (list : List String) (phases : String → Phase) :
    String → Phase :=
  list.foldl (fun phases name => Function.update phases name (change name (phases name))) phases

theorem whereThere_shows (edit : String → Edit Unit) (change : String → Phase → Phase)
    (each : ∀ name d phases, name ∈ names → Document.Shows d names phases →
      ∃ edited, edit name d = (.ok (), edited) ∧
        edited.Shows names (Function.update phases name (change name (phases name))))
    {list : List String} (inside : ∀ name ∈ list, name ∈ names) (shows : d.Shows names phases) :
    ∃ edited, whereThere edit list d = (.ok (), edited) ∧
      edited.Shows names (changeAll change list phases) := by
  induction list generalizing d phases with
  | nil => exact ⟨d, rfl, shows⟩
  | cons name rest ih =>
      have member := inside name List.mem_cons_self
      obtain ⟨middle, done, middleShows⟩ := each name d phases member shows
      obtain ⟨edited, later, editedShows⟩ :=
        ih (fun other listed => inside other (List.mem_cons_of_mem _ listed)) middleShows
      refine ⟨edited, ?_, editedShows⟩
      have here : (do if ← Attempt.ofExcept ((← get).phases.lists name) then edit name : Edit Unit) d =
          (.ok (), middle) := by
        rw [Attempt.run_bind_ok (Attempt.run_get d), Attempt.ofExcept_bind,
          Document.lists_of_phase (shows name member)]
        simp only [if_true, done]
      exact (Attempt.run_bind_ok here fun _ => whereThere edit rest).trans later

/-- A phase that ends with a transition. -/
def finished (now : Timestamp) (failing : Option String) (name : String) (p : Phase) : Phase :=
  if failing = some name then p.fail now else p.complete now

/-- The phases after a transition of a type from a state, brought up to date. -/
def broughtUp (now : Timestamp) (b : Blueprint) (source : String) (t : Transition)
    (phases : String → Phase) : String → Phase :=
  if source = t.target then phases
  else changeAll (fun _ => Phase.start now) (b.phasesStartingAt t.target)
    (changeAll (finished now t.failedPhase) (b.phasesEndingAt source) phases)

theorem afterTransition_shows (now : Timestamp) (b : Blueprint) (source : String) (t : Transition)
    (ending : ∀ name ∈ b.phasesEndingAt source, name ∈ names)
    (starting : ∀ name ∈ b.phasesStartingAt t.target, name ∈ names)
    (shows : d.Shows names phases) :
    ∃ edited, afterTransition now b source t d = (.ok (), edited) ∧
      edited.Shows names (broughtUp now b source t phases) := by
  rw [afterTransition, broughtUp]
  by_cases same : source = t.target
  · rw [if_pos same, if_neg (not_not_intro same)]
    exact ⟨d, rfl, shows⟩
  · rw [if_neg same, if_pos same]
    obtain ⟨middle, done, middleShows⟩ := whereThere_shows (finishPhase now t.failedPhase)
      (finished now t.failedPhase) (fun name d phases member shows => by
        rw [finishPhase, finished]
        split
        · exact changePhase_shows shows member rfl
        · exact changePhase_shows shows member rfl) ending shows
    obtain ⟨edited, later, editedShows⟩ := whereThere_shows (startPhase now)
      (fun _ => Phase.start now) (fun name d phases member shows =>
        changePhase_shows shows member rfl) starting middleShows
    refine ⟨edited, ?_, editedShows⟩
    rw [Attempt.run_bind_ok done]
    exact later

end Edit

end Lifecycle
