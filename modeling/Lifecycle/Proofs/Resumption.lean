import Lifecycle.Proofs.Creation
import Lifecycle.Proofs.Discreet
/-!
Putting a project down and picking it up again. A live project differs from the one that is loaded only in
what its actions left in the journal, and no step sees that, so a walk with pauses is one without. -/

namespace Lifecycle

theorem Registry.get_only {name asked : String} {b c : Blueprint}
    (found : Registry.get [(name, b)] asked = .ok c) : asked = name := by
  by_contra other
  rw [get, get?, Keyed.find?, if_neg fun same => other same.symm] at found
  cases found

/-- A step of whoever works on a project: the document is edited, and then an event is fired, or the one
that the state asks for. -/
structure Stride where
  now : Timestamp
  edit : Document → Document
  event : Option String

/-- When a project is picked up again that was put down, and what was checked by then. -/
structure Pause where
  now : Timestamp
  checkers : Checkers

namespace Desk

variable {σ : Type} [Backend σ]

def take (s : Stride) : Attempt (Desk σ) Move := do
  modify fun desk => desk.withDocument (s.edit desk.project.document)
  proceed s.now s.event

/-- Picks the stored project up and lets go of the live one. -/
def resume (registry : Registry) (pause : Pause) : Attempt (Desk σ) Unit := fun desk =>
  match Project.load registry pause.now ⟨desk.archive.store, pause.checkers⟩ with
  | (.ok p, archive) => (.ok (), ⟨p, archive⟩)
  | (.error fault, archive) => (.error fault, { desk with archive })

/-- Takes steps one after another, with pauses after some of them. -/
def walk (registry : Registry) : List (Stride × Option Pause) → Attempt (Desk σ) (List Move)
  | [] => return []
  | (s, pause) :: rest => do
    let m ← take s
    pause.forM (resume registry)
    return m :: (← walk registry rest)

theorem run_take (s : Stride) (desk : Desk σ) :
    take s desk = proceed s.now s.event (desk.withDocument (s.edit desk.project.document)) := by
  rw [take, Attempt.run_bind_ok (Attempt.run_modify _ _)]

variable {φ : Type} [FileSystem φ] {registry : Registry} {desk other after : Desk (FileStore φ)}

/-- A project that is what is stored is picked up as it is. -/
theorem resume_alike (recalls : FileSystem.Recall φ) (rests : desk.Rests registry)
    (alike : desk.Alike other) (pause : Pause) :
    ∃ last, resume registry pause other = (.ok (), last) ∧ desk.Alike last := by
  obtain ⟨checkers, loaded⟩ := rests.sound.load recalls rests.holds pause.now pause.checkers
  rw [resume, ← alike.store, loaded]
  exact ⟨_, rfl, ⟨rfl, rfl⟩, rfl⟩

theorem take_alike (recalls : FileSystem.Recall φ) {s : Stride} {m : Move} (alike : desk.Alike other)
    (bound : desk.project.Bound registry) (discreet : desk.project.blueprint.Discreet)
    (proper : s.now.Proper) (edits : ∀ d : Document, d.Typed .exact → d.Remains (s.edit d))
    (done : take s desk = (.ok m, after)) :
    (∃ last, take s other = (.ok m, last) ∧ after.Alike last) ∧ after.project.Bound registry ∧
      after.project.blueprint = desk.project.blueprint ∧ (m.target ≠ noProject → after.Rests registry) := by
  let edited := desk.withDocument (s.edit desk.project.document)
  have editing : edited.project.Bound registry :=
    bound.moves (edits _ bound.typed) (rfl : _ = desk.project.machine.moved desk.project.state)
  rw [run_take] at done ⊢
  rw [← alike.project.document]
  have ended := proceed_rests recalls editing discreet proper done
  exact ⟨proceed_alike (alike.withDocument _) editing discreet proper done, ended⟩

/-- A walk with pauses comes to the same as one without, if no pause is made after the end. -/
theorem walk_alike (recalls : FileSystem.Recall φ) {steps : List (Stride × Option Pause)}
    (clocks : ∀ step ∈ steps, step.1.now.Proper)
    (edits : ∀ step ∈ steps, ∀ d : Document, d.Typed .exact → d.Remains (step.1.edit d))
    {moves : List Move}
    (lasting : ∀ pair ∈ moves.zip (steps.map Prod.snd), pair.2.isSome → pair.1.target ≠ noProject)
    (alike : desk.Alike other) (bound : desk.project.Bound registry)
    (discreet : desk.project.blueprint.Discreet)
    (done : (steps.map Prod.fst).mapM take desk = (.ok moves, after)) :
    ∃ last, walk registry steps other = (.ok moves, last) ∧ after.Alike last := by
  induction steps generalizing desk other moves with
  | nil =>
      cases done
      exact ⟨other, rfl, alike⟩
  | cons step rest ih =>
      obtain ⟨s, pause⟩ := step
      obtain ⟨clock, clocks⟩ := List.forall_mem_cons.mp clocks
      obtain ⟨edit, edits⟩ := List.forall_mem_cons.mp edits
      rw [List.map_cons, List.mapM_cons] at done
      obtain ⟨m, middle, taken, done⟩ := Attempt.bind_eq_ok.mp done
      obtain ⟨others, final, run, done⟩ := Attempt.bind_eq_ok.mp done
      cases done
      obtain ⟨⟨there, otherTaken, same⟩, stillBound, blueprints, rests⟩ :=
        take_alike recalls alike bound discreet clock edit taken
      obtain ⟨goes, lasting⟩ := List.forall_mem_cons.mp lasting
      have stillDiscreet : middle.project.blueprint.Discreet := blueprints ▸ discreet
      -- The pause takes the other desk back to the project as it is stored, which is the live one.
      obtain ⟨back, resumed, again⟩ : ∃ back,
          pause.forM (resume registry) there = (.ok ⟨⟩, back) ∧ middle.Alike back := by
        cases pause with
        | none => exact ⟨there, rfl, same⟩
        | some pause => exact resume_alike recalls (rests (goes rfl)) same pause
      obtain ⟨last, walked, final⟩ := ih clocks edits lasting again stillBound stillDiscreet run
      refine ⟨last, ?_, final⟩
      rw [walk, Attempt.run_bind_ok otherTaken, Attempt.run_bind_ok resumed, Attempt.run_bind_ok walked]
      rfl

/-- Goes on with a project as one of another type. -/
def rebind (b : Blueprint) : Attempt (Desk σ) Unit :=
  modify fun desk => desk.withProject (.start b desk.project.document desk.project.state)

/-- A project that is what is stored is picked up as one of the type that its document names. -/
theorem resume_rebound (recalls : FileSystem.Recall φ) {others : Registry} {b : Blueprint}
    (rests : desk.Rests others) (registered : registry.get desk.project.document.type.display = .ok b)
    (plans : b.phases = desk.project.blueprint.phases) (pause : Pause) :
    ∃ last, resume registry pause desk = (.ok (), last) ∧ (rebind b desk).2.project.Bound registry ∧
      (rebind b desk).2.Alike last := by
  let rebound : Project := .start b desk.project.document desk.project.state
  have fits : ∀ checkers, (b.phasesFindings desk.project.document checkers).1 = .ok [] :=
    Blueprint.phasesFindings_of_plans plans rests.sound.typed (rests.sound.fits [])
  have sound : rebound.Sound registry :=
    { typed := rests.sound.typed, registered, machine := rfl, rules := rests.sound.rules,
      noted := rests.sound.noted, fits }
  obtain ⟨checkers, loaded⟩ := sound.load recalls rests.holds pause.now pause.checkers
  rw [resume, loaded]
  exact ⟨_, rfl, sound.toBound, ⟨rfl, rfl⟩, rfl⟩

/-- If the document names another type when the project is put down, its next step is one of that type. -/
theorem walk_rebound (recalls : FileSystem.Recall φ) {first second : Stride} {b : Blueprint}
    {m n : Move} {middle last : Desk (FileStore φ)}
    (machine : desk.project.machine = .start desk.project.blueprint desk.project.state)
    (discreet : desk.project.blueprint.Discreet) (typed : (first.edit desk.project.document).Typed .exact)
    (clock : first.now.Proper) (taken : take first desk = (.ok m, middle)) (goes : m.target ≠ noProject)
    (named : registry.get (first.edit desk.project.document).type.display = .ok b)
    (plans : b.phases = desk.project.blueprint.phases) (others : b.Discreet)
    (edits : ∀ d : Document, d.Typed .exact → d.Remains (second.edit d)) (later : second.now.Proper)
    (again : take second (rebind b middle).2 = (.ok n, last)) (pause : Pause) :
    ∃ after, walk registry [(first, some pause), (second, none)] desk = (.ok [m, n], after) := by
  let edited := desk.withDocument (first.edit desk.project.document)
  -- The live project is bound to its own type under the name that the document now gives, if nothing else
  -- is registered; what is stored does not depend on the registry.
  have bound : edited.project.Bound [(edited.project.document.type.display, desk.project.blueprint)] :=
    ⟨typed, by rw [Registry.get, Registry.get?, Keyed.find?, if_pos rfl]; rfl, machine⟩
  have moved := taken
  rw [run_take] at moved
  obtain ⟨_, blueprint, rests⟩ := proceed_rests recalls bound discreet clock moved
  have rests := rests goes
  have type := Registry.get_only rests.sound.registered
  have named : registry.get middle.project.document.type.display = .ok b := by
    rw [type]
    exact named
  obtain ⟨back, resumed, rebound, alike⟩ :=
    resume_rebound recalls rests named (plans.trans (congrArg Blueprint.phases blueprint.symm)) pause
  obtain ⟨after, final, _⟩ := (take_alike recalls alike rebound others later edits again).1
  refine ⟨after, ?_⟩
  have paused : (some pause).forM (resume registry) middle = (.ok ⟨⟩, back) := resumed
  rw [walk, Attempt.run_bind_ok taken, Attempt.run_bind_ok paused, walk, walk, bind_assoc,
    Attempt.run_bind_ok final]
  rfl

end Desk

namespace Blueprint

theorem initialized_remains {b : Blueprint} (fillsIn : b.FillsIn) {now : Timestamp} (proper : now.Proper)
    {inputs : Value} {d filled : Document} (typed : d.Typed .exact)
    (done : b.initialized now inputs d = .ok filled) : d.Remains filled := by
  rw [initialized] at done
  cases given : b.initializer with
  | none =>
      rw [given] at done
      cases done
      exact ⟨typed, rfl⟩
  | some i =>
      rw [given] at done
      simp only at done
      rcases filling : i now inputs d with ⟨fault | ⟨⟩, last⟩
      · rw [filling] at done
        cases done
      · rw [filling] at done
        cases done
        exact fillsIn i given now inputs d _ proper typed filling

end Blueprint

namespace Project

variable {registry : Registry} {r : Request} {now : Timestamp} {p : Project}

/-- What a new project is: its type has filled a document in, and the project keeps the type that it then
had. -/
def Begun (registry : Registry) (r : Request) (now : Timestamp) (p : Project) : Prop :=
  ∃ d filled, d.Typed .exact ∧ d.type = .proper r.typeName ∧
    registry.get r.typeName = .ok p.blueprint ∧ p.machine = .start p.blueprint p.state ∧
    p.blueprint.initialized now r.inputs d = .ok filled ∧ (filled.Typed .exact → filled.Remains p.document)

theorem new_begun (proper : now.Proper) (made : Project.new registry now r = .ok p) :
    p.Begun registry r now := by
  obtain ⟨b, _, d, filled, started, known, drafted, initialized, begun, rfl⟩ := new_ok made
  obtain ⟨_, type, typed⟩ := Request.draftDocument_ok drafted
  refine ⟨d, filled, typed .exact proper, type, known, rfl, initialized, fun filledTyped => ?_⟩
  obtain ⟨edited, done, startedTyped, _⟩ :=
    Edit.startPhases_keeps filledTyped proper (b.phasesStartingAt b.initial)
  have startedType := Edit.startPhases_type now (b.phasesStartingAt b.initial) filled
  rw [Edit.result, done] at begun
  rw [done] at startedType
  obtain rfl := Except.ok.inj begun
  exact ⟨startedTyped, startedType⟩

theorem create_begun {σ : Type} [Backend σ] {archive made : Archive σ} (proper : now.Proper)
    (created : create registry now r archive = (.ok p, made)) : p.Begun registry r now := by
  rw [run_create] at created
  cases fresh : Project.new registry now r with
  | error fault =>
      rw [fresh] at created
      cases created
  | ok first =>
      obtain ⟨d, filled, typed, type, known, machine, initialized, remains⟩ := new_begun proper fresh
      have stays := Desk.save_machine now ⟨first, archive⟩
      rw [fresh] at created
      simp only at created
      rcases saved : Desk.save now ⟨first, archive⟩ with ⟨fault | ⟨⟩, desk⟩
      · rw [saved] at created
        cases created
      · rw [saved] at created stays
        cases created
        have same : desk.project.machine = first.machine := stays
        rw [Begun, blueprint, state, same]
        refine ⟨d, filled, typed, type, known, machine, initialized, fun filledTyped => ?_⟩
        obtain ⟨firstTyped, firstType⟩ := remains filledTyped
        obtain ⟨lastTyped, lastType⟩ := Desk.save_remains firstTyped proper saved
        exact ⟨lastTyped, lastType.trans firstType⟩

/-- A new project is bound to the type that was asked for. -/
theorem Begun.bound (begun : p.Begun registry r now) (proper : now.Proper)
    (fillsIn : p.blueprint.FillsIn) : p.Bound registry := by
  obtain ⟨d, filled, typed, type, known, machine, initialized, remains⟩ := begun
  obtain ⟨filledTyped, filledType⟩ := Blueprint.initialized_remains fillsIn proper typed initialized
  obtain ⟨projectTyped, projectType⟩ := remains filledTyped
  refine ⟨projectTyped, ?_, machine⟩
  rw [projectType, filledType, type]
  exact known

variable {φ : Type} [FileSystem φ] {archive made : Archive (FileStore φ)}

/-- Where neither actions nor edits change the type of a project or bring reals into it, putting it down
and picking it up again after any of its steps is not seen: the moves are the same, and so is what is
stored in the end. -/
theorem pauses_unseen (recalls : FileSystem.Recall φ)
    (discreet : ∀ b, registry.get r.typeName = .ok b → b.Discreet ∧ b.FillsIn) (proper : now.Proper)
    (created : create registry now r archive = (.ok p, made))
    {steps : List (Stride × Option Pause)} (clocks : ∀ step ∈ steps, step.1.now.Proper)
    (edits : ∀ step ∈ steps, ∀ d : Document, d.Typed .exact → d.Remains (step.1.edit d))
    {moves : List Move} {after : Desk (FileStore φ)}
    (done : (steps.map Prod.fst).mapM Desk.take ⟨p, made⟩ = (.ok moves, after))
    (lasting : ∀ pair ∈ moves.zip (steps.map Prod.snd), pair.2.isSome → pair.1.target ≠ noProject) :
    ∃ last, Desk.walk registry steps ⟨p, made⟩ = (.ok moves, last) ∧
      last.archive.store = after.archive.store ∧ last.project.document = after.project.document ∧
        last.project.machine = after.project.machine := by
  have begun := create_begun proper created
  obtain ⟨discreet, fillsIn⟩ : p.blueprint.Discreet ∧ p.blueprint.FillsIn := by
    obtain ⟨_, _, _, _, known, _⟩ := begun
    exact discreet _ known
  have alike : Desk.Alike (⟨p, made⟩ : Desk (FileStore φ)) ⟨p, made⟩ := ⟨⟨rfl, rfl⟩, rfl⟩
  obtain ⟨last, walked, same⟩ :=
    Desk.walk_alike recalls clocks edits lasting alike (begun.bound proper fillsIn) discreet done
  exact ⟨last, walked, same.store.symm, same.project.document.symm, same.project.machine.symm⟩

end Project

/-- Says in the description how far a project has come. -/
def Action.describing (text : String) : Action :=
  .ofEdit fun _ => modify fun d => { d with description := .proper text }

theorem Action.describing_discreet (text : String) : (describing text).Discreet where
  blind _ _ _ _ := ⟨rfl, rfl⟩
  remains _ _ _ _ _ typed done := by
    cases done
    exact ⟨{ typed with description := True.intro }, rfl⟩

/-- Types that differ in where they lead in the end. -/
def Draft.relay (name last : String) : Draft :=
  ((((Draft.empty name).startAt "Start").transition "Start" "Middle" "go"
    [.onEntry (.describing "Under way")]).transition "Middle" last "go"
    [.guardOn "under way" fun d => .ok (d.description.holds "Under way")]).alwaysAdvance "Middle" "go"

theorem Draft.relay_discreet (name last : String) : ((relay name last).blueprint "Start").Discreet := by
  refine List.forall_mem_cons.mpr ⟨fun a given => ?_, List.forall_mem_singleton.mpr fun a given => ?_⟩
  · obtain given | given := given
    · cases given
    · cases given
      exact Action.describing_discreet _
  · obtain given | given := given <;> cases given

def Document.turned (d : Document) : Document := { d with type := .proper "two" }

theorem Document.turned_typed {d : Document} (typed : d.Typed .exact) : d.turned.Typed .exact :=
  { typed with type := True.intro }

def Document.aside (d : Document) : Document := { d with branch := .proper "aside" }

theorem Document.aside_remains {d : Document} (typed : d.Typed .exact) : d.Remains d.aside :=
  ⟨{ typed with branch := True.intro }, rfl⟩

/-- Three such types, and one that makes new documents into those of another. -/
def Registry.relays : Registry :=
  [("one", (Draft.relay "one" "Left").blueprint "Start"),
    ("two", (Draft.relay "two" "Right").blueprint "Start"),
    ("over", (Draft.relay "over" noProject).blueprint "Start"),
    ("turning", ((Draft.relay "turning" "Left").initializeWith
      fun _ _ => modify Document.turned).blueprint "Start")]

def Request.relay (type : String) : Request :=
  { description := "Demo", type := some type, name := some "demo" }

namespace Project

/-- Where work on a new project leads it. -/
def trip (type : String) (work : Attempt (Desk (FileStore MemoryFiles)) (List Move)) :
    Option (List String) :=
  match create .relays newYear (.relay type) ⟨FileStore.blank, []⟩ with
  | (.ok p, made) => (work ⟨p, made⟩).1.toOption.map (List.map Move.target)
  | (.error _, _) => none

theorem trip_eq_some {type : String} {work : Attempt (Desk (FileStore MemoryFiles)) (List Move)}
    {targets : List String} (leads : trip type work = some targets) :
    ∃ p made moves after, create .relays newYear (.relay type) ⟨FileStore.blank, []⟩ = (.ok p, made) ∧
      work ⟨p, made⟩ = (.ok moves, after) ∧ moves.map Move.target = targets := by
  rw [trip] at leads
  split at leads
  · next p made created =>
      rcases worked : work ⟨p, made⟩ with ⟨fault | moves, after⟩
      · rw [worked] at leads
        cases leads
      · rw [worked] at leads
        exact ⟨p, made, moves, after, created, worked, Option.some.inj leads⟩
  · cases leads

theorem pauses_unseen_relay :
    ∃ p made moves after last,
      create .relays newYear (.relay "one") ⟨FileStore.blank, []⟩ = (.ok p, made) ∧
      [⟨newYear, id, some "go"⟩, ⟨newYear, Document.aside, none⟩].mapM Desk.take ⟨p, made⟩ =
        (.ok moves, after) ∧
      moves.map Move.target = ["Middle", "Left"] ∧
      Desk.walk .relays [(⟨newYear, id, some "go"⟩, some ⟨newYear, []⟩),
        (⟨newYear, Document.aside, none⟩, none)] ⟨p, made⟩ = (.ok moves, last) ∧
      last.archive.store = after.archive.store := by
  have leads : trip "one" ([⟨newYear, id, some "go"⟩, ⟨newYear, Document.aside, none⟩].mapM Desk.take) =
      some ["Middle", "Left"] := by decide +kernel
  obtain ⟨p, made, moves, after, created, taken, targets⟩ := trip_eq_some leads
  have goes : ∀ m ∈ moves, m.target ≠ noProject := by
    have all : ∀ target ∈ moves.map Move.target, target ≠ noProject := by
      rw [targets]
      decide
    exact fun m member => all _ (List.mem_map_of_mem member)
  have discreet : ∀ b, Registry.relays.get (Request.relay "one").typeName = .ok b →
      b.Discreet ∧ b.FillsIn := by
    intro b known
    cases known
    exact ⟨Draft.relay_discreet "one" "Left", nofun⟩
  let steps : List (Stride × Option Pause) := [(⟨newYear, id, some "go"⟩, some ⟨newYear, []⟩),
    (⟨newYear, Document.aside, none⟩, none)]
  have clocks : ∀ step ∈ steps, step.1.now.Proper :=
    List.forall_mem_cons.mpr ⟨newYear_proper, List.forall_mem_singleton.mpr newYear_proper⟩
  have edits : ∀ step ∈ steps, ∀ d : Document, d.Typed .exact → d.Remains (step.1.edit d) :=
    List.forall_mem_cons.mpr ⟨fun _ typed => ⟨typed, rfl⟩,
      List.forall_mem_singleton.mpr fun _ => Document.aside_remains⟩
  obtain ⟨last, walked, store, _⟩ := pauses_unseen MemoryFiles.recalls discreet newYear_proper created
    clocks edits taken fun pair member _ => goes pair.1 (List.of_mem_zip member).1
  exact ⟨p, made, moves, after, last, created, taken, targets, walked, store⟩

/-- That a pause after the first of two steps makes the second lead elsewhere, though the edit before the
first brings no reals into a document and leaves it typed. -/
def PauseSeen (type : String) (edit : Document → Document) : Prop :=
  (∀ d : Document, d.Typed .exact → (edit d).Typed .exact) ∧
    ∃ p made moves after others last,
      create .relays newYear (.relay type) ⟨FileStore.blank, []⟩ = (.ok p, made) ∧
      [⟨newYear, edit, some "go"⟩, ⟨newYear, id, none⟩].mapM Desk.take ⟨p, made⟩ = (.ok moves, after) ∧
      moves.map Move.target = ["Middle", "Left"] ∧
      Desk.walk .relays [(⟨newYear, edit, some "go"⟩, some ⟨newYear, []⟩), (⟨newYear, id, none⟩, none)]
        ⟨p, made⟩ = (.ok others, last) ∧
      others.map Move.target = ["Middle", "Right"]

theorem pauseSeen_of_trips {type : String} {fill edit : Document → Document} {b two : Blueprint}
    (known : Registry.relays.get (Request.relay type).typeName = .ok b) (discreet : b.Discreet)
    (fills : ∀ now inputs d, b.initialized now inputs d = .ok (fill d))
    (filled : ∀ d : Document, d.Typed .exact → (fill d).Typed .exact)
    (edits : ∀ d : Document, d.Typed .exact → (edit d).Typed .exact)
    (turns : ∀ d e : Document, e.type = (fill d).type → (edit e).type = .proper "two")
    (other : Registry.relays.get "two" = .ok two) (others : two.Discreet)
    (plans : two.phases = b.phases)
    (live : trip type ([⟨newYear, edit, some "go"⟩, ⟨newYear, id, none⟩].mapM Desk.take) =
      some ["Middle", "Left"])
    (rebound : trip type (do
      let m ← Desk.take ⟨newYear, edit, some "go"⟩
      Desk.rebind two
      return [m, ← Desk.take ⟨newYear, id, none⟩]) = some ["Middle", "Right"]) :
    PauseSeen type edit := by
  refine ⟨edits, ?_⟩
  obtain ⟨p, made, moves, after, created, taken, targets⟩ := trip_eq_some live
  obtain ⟨_, _, _, _, again, led, ends⟩ := trip_eq_some rebound
  rw [created] at again
  cases again
  obtain ⟨m, middle, first, moved⟩ := Attempt.bind_eq_ok.mp led
  obtain ⟨⟨⟩, _, rebinds, next⟩ := Attempt.bind_eq_ok.mp moved
  obtain ⟨n, last, second, returned⟩ := Attempt.bind_eq_ok.mp next
  cases rebinds
  cases returned
  obtain ⟨d, _, typed, _, asked, machine, initialized, remains⟩ := create_begun newYear_proper created
  rw [known] at asked
  cases asked
  rw [fills] at initialized
  cases initialized
  obtain ⟨projectTyped, projectType⟩ := remains (filled d typed)
  have named : Registry.relays.get (edit p.document).type.display = .ok two := by
    rw [turns d p.document projectType]
    exact other
  have goes : m.target ≠ noProject := by
    rw [(List.cons.inj ends).1]
    decide
  obtain ⟨last, walked⟩ := Desk.walk_rebound MemoryFiles.recalls machine discreet
    (edits _ projectTyped) newYear_proper first goes named plans others
    (fun _ typed => ⟨typed, rfl⟩) newYear_proper second ⟨newYear, []⟩
  exact ⟨p, made, moves, after, [m, n], last, created, taken, targets, walked, ends⟩

/-- A pause is seen after an edit that names another type, in a project whose type did that when the project
was made, and after the end, when nothing is stored. -/
theorem pauses_seen :
    PauseSeen "one" Document.turned ∧ PauseSeen "turning" id ∧
      trip "over" ([⟨newYear, id, some "go"⟩, ⟨newYear, id, none⟩].mapM Desk.take) =
        some ["Middle", noProject] ∧
      trip "over" (Desk.walk .relays [(⟨newYear, id, some "go"⟩, none),
        (⟨newYear, id, none⟩, some ⟨newYear, []⟩)]) = none := by
  refine ⟨?_, ?_, ?_, ?_⟩
  · exact pauseSeen_of_trips rfl (Draft.relay_discreet "one" "Left") (fun _ _ _ => rfl)
      (fun _ typed => typed) (fun _ => Document.turned_typed) (fun _ _ _ => rfl) rfl
      (Draft.relay_discreet "two" "Right") rfl (by decide +kernel) (by decide +kernel)
  · exact pauseSeen_of_trips rfl (Draft.relay_discreet "turning" "Left") (fun _ _ _ => rfl)
      (fun _ => Document.turned_typed) (fun _ typed => typed) (fun _ _ named => named) rfl
      (Draft.relay_discreet "two" "Right") rfl (by decide +kernel) (by decide +kernel)
  · decide +kernel
  · decide +kernel

end Project

end Lifecycle
