import Lifecycle.Proofs.Disk
import Lifecycle.Proofs.Loading
import Lifecycle.Proofs.Owned
/-!
What a disk fails with beside the refusals that any system has: paths that lead out of the root or that
nothing can be named by, and folders too deep to be made. Only these pass storage without an account of
what was tried. -/

namespace Lifecycle

open Attempt (failsAs_bind failsAs_ofExcept_bind)

namespace Disk

variable {path text : String} {d : Disk} {place : List String} {fault : Fault}

/-- The way that a path leads along, if it leads anywhere. -/
def reach (path : String) (d : Disk) : Except Fault (List String) := do
  let place ← d.resolve path
  named place
  return place

/-- A refusal of the system, or a path that leads nowhere. -/
def Unreached (path : String) (d : Disk) (fault : Fault) : Prop :=
  fault.isRefusal = true ∨ d.reach path = .error fault

/-- Whether nothing can be written to a path for a reason that systems do not give. -/
def Unwritable (path : String) (d : Disk) (fault : Fault) : Prop :=
  d.reach path = .error fault ∨
    fault = .tooManySteps ∧ ∃ place, d.resolve path = .ok place ∧ chainLimit < d.unmade place.dropLast

theorem refuse_fails {α : Type} (why : Refusal) :
    FailsAs (Unreached path d) (d.refuse place why : Except Fault α) := .error (.inl rfl)

theorem resolve_fails : FailsAs (Unreached path d) (d.resolve path) := by
  intro fault failed
  right
  rw [reach, failed]
  rfl

theorem named_fails (resolved : d.resolve path = .ok place) :
    FailsAs (Unreached path d) (named place) := by
  intro fault failed
  right
  rw [reach, resolved]
  simp only [bind, Except.bind, failed]

theorem missing_fails {α : Type} (name : String) :
    FailsAs (Unreached path d) (.error (.missingFile name) : Except Fault α) := .error (.inl rfl)

theorem read_fails : FailsAs (Unreached path d) (read path d).1 := by
  rw [read, Attempt.run_bind_ok (Attempt.run_get _)]
  refine failsAs_ofExcept_bind resolve_fails fun place resolved => ?_
  refine failsAs_ofExcept_bind (named_fails resolved) fun _ _ => ?_
  cases d.find place with
  | file text => exact .ok _
  | missing => exact missing_fails path
  | folder => exact refuse_fails _
  | barred why => exact refuse_fails _

theorem remove_fails : FailsAs (Unreached path d) (remove path d).1 := by
  rw [remove, Attempt.run_bind_ok (Attempt.run_get _)]
  refine failsAs_ofExcept_bind resolve_fails fun place resolved => ?_
  refine failsAs_ofExcept_bind (named_fails resolved) fun _ _ => ?_
  cases d.find place with
  | file text => exact .ok _
  | missing => exact missing_fails path
  | folder => exact refuse_fails _
  | barred why => exact refuse_fails _

theorem holds_fails : FailsAs (Unreached path d) (holds path d).1 := by
  rw [holds, Attempt.run_bind_ok (Attempt.run_get _)]
  refine failsAs_ofExcept_bind resolve_fails fun place resolved => ?_
  split
  · exact .ok _
  · cases d.find place with
    | barred why =>
        cases why with
        | tooLong => exact refuse_fails _
        | _ => exact .ok _
    | _ => exact .ok _

/-- A step fails as systems do, or as the change that it makes. -/
theorem step_fails (kind : WriteStep) (place : List String) (part : Nat → Disk → Disk)
    (change : Disk → Except Fault Disk) (d : Disk) :
    FailsAs (fun fault => fault.isRefusal = true ∨ change d = .error fault)
      (step kind place part change d).1 := by
  cases refused : Keyed.find? d.refused kind with
  | some done =>
      rw [step_refused refused]
      exact .error (.inl rfl)
  | none =>
      rw [step_free refused]
      cases done : change d with
      | ok changed => exact .ok _
      | error other => exact .error (.inr rfl)

theorem replace_fails (source target : List String) (d : Disk) :
    FailsAs (·.isRefusal = true) (replace source target d) := by
  intro fault failed
  rw [replace] at failed
  split at failed <;> cases failed <;> rfl

/-- Putting a second file in the place of the first fails as systems do, or for want of a name. -/
theorem swap_fails (place : List String) (text : String) (d : Disk) :
    FailsAs (fun fault => fault.isRefusal = true ∨ named place = .error fault)
      (swap place text d).1 := by
  have fills (kind : WriteStep) (temporary : List String) (part : Nat → Disk → Disk) (text : String)
      (d : Disk) : FailsAs (fun fault => fault.isRefusal = true ∨ named place = .error fault)
        (step kind temporary part (fun d => .ok (putFile temporary text d)) d).1 :=
    (step_fails kind temporary part _ d).mono fun _ => Or.imp_right nofun
  rw [swap, Attempt.run_bind_ok (Attempt.run_get _)]
  refine failsAs_bind (fills _ _ _ _ _) fun _ made _ => ?_
  rw [run_orDrop]
  split
  · exact .ok _
  · next other after shape =>
      refine FailsAs.error ?_
      refine failsAs_bind (fills _ _ _ _ _) ?_ other (congrArg Prod.fst shape)
      intro _ filled _
      refine failsAs_ofExcept_bind (fun _ => .inr) fun _ _ => ?_
      exact (step_fails _ _ _ _ _).mono fun fault either =>
        .inl (either.elim id (replace_fails _ _ _ fault))

/-- Folders are refused as systems do, but for those too deep to be made at a time. -/
theorem makeFolders_fails (place : List String) (d : Disk) :
    FailsAs (fun fault => fault.isRefusal = true ∨
      fault = .tooManySteps ∧ chainLimit < d.unmade place) (makeFolders place d).1 := by
  rw [makeFolders, Attempt.run_bind_ok (Attempt.run_get _)]
  cases d.find place with
  | folder => exact .ok _
  | file text => exact .error (.inl rfl)
  | barred why => exact .error (.inl rfl)
  | missing =>
      simp only
      split
      · next deep => exact .error (.inr ⟨rfl, deep⟩)
      · refine failsAs_bind ((step_fails _ _ _ _ _).mono fun _ => Or.imp_right ?_) ?_
        · intro same
          cases same
        intro _ made _
        split
        · exact .error (.inl rfl)
        · exact .ok _

theorem roomBeside_fails (place : List String) (d : Disk) :
    FailsAs (·.isRefusal = true) (roomBeside place d) := by
  rw [roomBeside]
  split
  · exact .error rfl
  · exact .ok _

/-- Writing fails as systems do, but for what makes a path unwritable. -/
theorem write_fails (path text : String) (d : Disk) :
    FailsAs (fun fault => fault.isRefusal = true ∨ Unwritable path d fault) (write path text d).1 := by
  rw [run_write]
  cases resolved : d.resolve path with
  | error fault => exact .error ((resolve_fails fault resolved).imp_right .inl)
  | ok place =>
      simp only
      cases proper : named place.dropLast with
      | error fault =>
          have whole := named_fails resolved fault (named_dropLast proper)
          exact .error (whole.imp_right .inl)
      | ok _ =>
          have made := makeFolders_fails place.dropLast d
          simp only
          rcases shape : makeFolders place.dropLast d with ⟨fault | ⟨⟩, after⟩
          · rw [shape] at made
            refine .error ((made fault rfl).imp_right ?_)
            exact fun ⟨same, deep⟩ => .inr ⟨same, place, resolved, deep⟩
          · simp only
            cases room : roomBeside place after with
            | error fault => exact .error (.inl (roomBeside_fails place after fault room))
            | ok _ =>
              exact (swap_fails place text after).mono fun fault =>
                fun either => either.elim .inl fun unnamed =>
                  (named_fails resolved fault unnamed).imp_right .inl

end Disk

namespace FileStore

section

variable {α : Type} {kind : Fault → Prop} {e : Except Fault α} (path verb : String)

theorem account_failsAs (fails : FailsAs (fun fault => fault.isRefusal = true ∨ kind fault) e) :
    FailsAs (fun fault => fault.Owned ∨ kind fault) (e.mapError (account path verb)) := by
  refine fails.mapError fun cause either => ?_
  rcases either with refusal | is
  · exact .inl (Fault.owned_of_expected (account_refusal path verb refusal))
  · cases cause <;> first | exact .inl rfl | exact .inr is

theorem accountAll_failsAs (fails : FailsAs (fun fault => fault.isRefusal = true ∨ kind fault) e) :
    FailsAs (fun fault => fault.Owned ∨ kind fault) (e.mapError (accountAll path verb)) := by
  refine fails.mapError fun cause either => ?_
  rcases either with refusal | is
  · exact .inl (Fault.owned_of_expected (accountAll_refusal path verb refusal))
  · cases cause <;> first | exact .inl rfl | exact .inr is

end

variable (path : String) (d : Disk)

theorem save_failsAs (document : Document) :
    FailsAs (fun fault => fault.Owned ∨ d.Unwritable path fault)
      (FileStore.save document (⟨d, path⟩ : FileStore Disk)).1 := by
  rw [save, Attempt.run_bind_ok (Attempt.run_get _)]
  cases document.print? with
  | none => exact .error (.inl rfl)
  | some text =>
      simp only [Attempt.run_rethrow]
      exact accountAll_failsAs _ _ (Disk.write_fails path text d)

theorem holds_failsAs :
    FailsAs (fun fault => fault.Owned ∨ d.reach path = .error fault)
      (FileStore.holds (⟨d, path⟩ : FileStore Disk)).1 := by
  rw [holds, Attempt.run_bind_ok (Attempt.run_get _), Attempt.run_rethrow]
  exact accountAll_failsAs _ _ Disk.holds_fails

theorem delete_failsAs :
    FailsAs (fun fault => fault.Owned ∨ d.reach path = .error fault)
      (FileStore.delete (⟨d, path⟩ : FileStore Disk)).1 := by
  rw [delete, Attempt.run_bind_ok (Attempt.run_get _), Attempt.run_rethrow]
  exact account_failsAs _ _ Disk.remove_fails

end FileStore

/-- No condition on metadata but that there are maps of it. -/
def Condition.any : Condition := fun _ _ => True

namespace Desk

variable {path : String} {d : Disk} {p : Project} {checkers : Checkers} {now : Timestamp}

theorem clear_failsAs :
    FailsAs (fun fault => fault.Owned ∨ d.reach path = .error fault)
      (clear ⟨p, ⟨(⟨d, path⟩ : FileStore Disk), checkers⟩⟩).1 := by
  let store : FileStore Disk := ⟨d, path⟩
  have holds : FailsAs _ (Backend.holds store).1 := FileStore.holds_failsAs path d
  have stays : (Backend.holds store).2 = store := FileStore.holds_stays d path
  rw [run_clear]
  rcases shape : Backend.holds store with ⟨fault | _ | _, after⟩
  · rw [shape] at holds
    exact .error (holds fault rfl)
  · exact .ok _
  · rw [shape] at stays
    obtain rfl : after = store := stays
    exact FileStore.delete_failsAs path d

/-- A move of a typed document over a disk fails otherwise than this library does only where nothing can
be written; before a transition has fired it never does. -/
theorem proceed_disk {event : Option String} {fault : Fault} (proper : now.Proper)
    (failed : (proceed now event ⟨p, ⟨(⟨d, path⟩ : FileStore Disk), checkers⟩⟩).1 = .error fault)
    (disowned : ¬fault.Owned) :
    ∃ t moved, p.Fires now event t moved ∧
      (moved.document.Typed .any → d.Unwritable path fault) := by
  obtain ⟨t, moved, fires, failed⟩ := proceed_settles failed (disowned ∘ Fault.owned_of_inMoving)
  refine ⟨t, moved, fires, fun typed => ?_⟩
  let desk : Desk (FileStore Disk) := ⟨moved, ⟨⟨d, path⟩, checkers⟩⟩
  let kind (fault : Fault) : Prop := fault.Owned ∨ d.Unwritable path fault
  have own (fault : Fault) (owned : fault.Owned) : kind fault := .inl owned
  have settled : FailsAs kind (settle now p.state t desk).1 := by
    refine settle_failsAs typed proper own _ _ fun document editedTyped => ?_
    refine keep_failsAs editedTyped proper own (FileStore.save_failsAs path d) ?_
    exact clear_failsAs.mono fun _ => Or.imp_right .inl
  exact (settled fault failed).resolve_left disowned

end Desk

theorem FileStore.decode_failsAs (path : String) (now : Timestamp) (text : String) :
    FailsAs (fun fault => fault.Owned ∨
        ∃ which, Json.parse text = .error (.excess which) ∧ fault = .ofExcess which)
      (decode path now text) := by
  rw [decode]
  split
  · exact .error (.inl rfl)
  · next which beyond => exact .error (.inr ⟨which, beyond, rfl⟩)
  · next v parsed =>
      intro fault failed
      split at failed
      · cases failed
        exact .inl rfl
      · next outcome other =>
          obtain ⟨problems, rfl⟩ := Reading.result_failsAs _ fault failed
          exact absurd failed (other problems)

theorem Registry.get_owned (registry : Registry) (name : String) :
    FailsAs Fault.Owned (registry.get name) := by
  rw [get]
  split
  · exact .ok _
  · exact .error rfl

theorem Blueprint.checkPhases_owned {condition : Condition} {b : Blueprint} {d : Document}
    (typed : d.Typed condition) (checkers : Checkers) :
    FailsAs Fault.Owned (b.checkPhases d checkers).1 := by
  refine (b.checkPhases_failsAs typed checkers).mono ?_
  rintro fault (rfl | ⟨found, rfl⟩)
  · rfl
  · rfl

/-- A typed document is accepted unless this library itself has something against it. -/
theorem Project.accept_owned {condition : Condition} (registry : Registry) {d : Document}
    (typed : d.Typed condition) (checkers : Checkers) :
    FailsAs Fault.Owned (accept registry d checkers).1 := by
  obtain ⟨state, noted⟩ := typed.noted
  rw [run_accept]
  refine FailsAs.bind ?_ fun _ => ?_
  · rw [Document.checkStructure]
    split
    · exact .ok _
    · exact .error rfl
  · refine (registry.get_owned _).bind fun b => ?_
    rw [noted]
    exact (FailsAs.ok _).bind fun _ => (Blueprint.checkPhases_owned typed checkers).bind fun _ => .ok _

namespace Disk

/-- Whether nothing can be loaded from a path for a reason that storage gives no account of: the path
leads nowhere, or the text there is beyond what can be read. -/
def Unloadable (path : String) (d : Disk) (fault : Fault) : Prop :=
  d.reach path = .error fault ∨
    ∃ text which, (read path d).1 = .ok text ∧ Json.parse text = .error (.excess which) ∧
      fault = .ofExcess which

end Disk

/-- A file is loaded in three steps: it is read, decoded and accepted. -/
theorem Project.load_disk (registry : Registry) (now : Timestamp) (d : Disk) (path : String)
    (checkers : Checkers) :
    (load registry now ⟨(⟨d, path⟩ : FileStore Disk), checkers⟩).1 =
      ((Disk.read path d).1.mapError (FileStore.account path "read") >>=
        FileStore.decode path now) >>= fun document => (accept registry document checkers).1 := by
  have read := FileStore.run_load now (⟨d, path⟩ : FileStore Disk)
  have read : Backend.load now (⟨d, path⟩ : FileStore Disk) =
      ((Disk.read path d).1.mapError (FileStore.account path "read") >>= FileStore.decode path now,
        ⟨(Disk.read path d).2, path⟩) := read
  rw [load_eq, read]
  cases ((Disk.read path d).1.mapError (FileStore.account path "read") >>=
    FileStore.decode path now) <;> rfl

theorem Fault.ofExcess_disowned (which : Json.Excess) : ¬(ofExcess which).Owned := by
  cases which <;> nofun

theorem Disk.reach_fails {path : String} {d : Disk} {fault : Fault}
    (failed : d.reach path = .error fault) :
    (∃ text, fault = .badValue text) ∧ (read path d).1 = .error fault := by
  rw [reach] at failed
  rw [read, Attempt.run_bind_ok (Attempt.run_get _), Attempt.ofExcept_bind]
  rcases resolved : d.resolve path with cause | place
  · rw [resolved] at failed
    cases failed
    rw [resolve] at resolved
    split at resolved
    · cases resolved
      exact ⟨⟨_, rfl⟩, rfl⟩
    · cases resolved
  · rw [resolved] at failed
    rcases unnamed : named place with cause | ⟨⟩
    · simp only [bind, Except.bind, unnamed] at failed
      cases failed
      simp only [Attempt.ofExcept_bind, unnamed]
      rw [named] at unnamed
      split at unnamed
      · cases unnamed
        exact ⟨⟨_, rfl⟩, trivial⟩
      · cases unnamed
    · simp only [bind, Except.bind, unnamed] at failed
      cases failed

/-- Loading from a disk fails otherwise than this library does just where nothing can be loaded. -/
theorem Project.load_disowned (registry : Registry) {now : Timestamp} (proper : now.Proper) (d : Disk)
    (path : String) (checkers : Checkers) (fault : Fault) :
    (load registry now ⟨(⟨d, path⟩ : FileStore Disk), checkers⟩).1 = .error fault ∧ ¬fault.Owned ↔
      d.Unloadable path fault := by
  rw [load_disk]
  constructor
  · rintro ⟨failed, disowned⟩
    cases given : (Disk.read path d).1 with
    | error cause =>
        have refusing : FailsAs (Disk.Unreached path d) (Disk.read path d).1 := Disk.read_fails
        have account := FileStore.account_failsAs path "read" refusing
        rw [given] at failed account
        simp only [Except.mapError, bind, Except.bind] at failed
        cases failed
        exact .inl ((account _ rfl).resolve_left disowned)
    | ok text =>
        rw [given] at failed
        have decoding := FileStore.decode_failsAs path now text
        cases decoded : FileStore.decode path now text with
        | error cause =>
            simp only [Except.mapError, bind, Except.bind, decoded] at failed
            cases failed
            obtain ⟨which, beyond, same⟩ := (decoding fault decoded).resolve_left disowned
            exact .inr ⟨text, which, given, beyond, same⟩
        | ok document =>
            simp only [Except.mapError, bind, Except.bind, decoded] at failed
            -- What is decoded is typed, and then only this library itself can refuse it.
            have typed := FileStore.decode_typed proper decoded
            exact absurd (accept_owned registry typed checkers fault failed) disowned
  · rintro (nowhere | ⟨text, which, given, beyond, rfl⟩)
    · obtain ⟨⟨text, rfl⟩, unread⟩ := Disk.reach_fails nowhere
      refine ⟨?_, nofun⟩
      rw [unread]
      rfl
    · refine ⟨?_, Fault.ofExcess_disowned which⟩
      rw [given]
      simp only [Except.mapError, bind, Except.bind, FileStore.decode, beyond]

namespace Request

theorem projectName_owned (r : Request) : FailsAs Fault.Owned r.projectName := by
  rw [projectName]
  split
  · exact .ok _
  · exact FailsAs.ite (.error rfl) (.ok _)

/-- A draft is refused for the rules that it breaks. -/
theorem draftDocument_fails (r : Request) (now : Timestamp) (name initial : String) :
    FailsAs (fun fault => ∃ problems, fault = .malformed problems)
      (r.draftDocument now name initial) := by
  rw [draftDocument]
  split
  · exact .ok _
  · exact .error ⟨_, rfl⟩

end Request

theorem Blueprint.initialized_owned (b : Blueprint) (now : Timestamp) (inputs : Value) (d : Document) :
    FailsAs Fault.Owned (b.initialized now inputs d) := by
  rw [initialized]
  split
  · exact .ok _
  · split
    · exact .ok _
    · refine .error ?_
      split
      · next own => exact own
      · rfl

namespace Project

section

variable (registry : Registry) (now : Timestamp) (r : Request)

/-- Whether a new project breaks the rules for documents before its type has filled it in. -/
def Undrafted (fault : Fault) : Prop :=
  ∃ b name, registry.get r.typeName = .ok b ∧ r.projectName = .ok name ∧
    r.draftDocument now name b.initial = .error fault

/-- Whether its type leaves in a new project what does not belong in its place. -/
def Spoiled : Prop :=
  ∃ b name draft filled, registry.get r.typeName = .ok b ∧ r.projectName = .ok name ∧
    r.draftDocument now name b.initial = .ok draft ∧ b.initialized now r.inputs draft = .ok filled ∧
    ¬filled.Typed .any

end

variable {registry : Registry} {now : Timestamp} {r : Request}

theorem new_of_undrafted {fault : Fault} (undrafted : Undrafted registry now r fault) :
    Project.new registry now r = .error fault := by
  obtain ⟨b, name, known, named, refused⟩ := undrafted
  rw [Project.new, known]
  simp only [bind, Except.bind, named, refused]

/-- A new project is made unless this library itself has something against it or it breaks the rules;
everything in it is what belongs in its place. -/
theorem new_unspoiled (proper : now.Proper) (unspoiled : ¬Spoiled registry now r) :
    match Project.new registry now r with
    | .error fault => fault.Owned ∨ Undrafted registry now r fault
    | .ok p => p.document.Typed .any := by
  rw [Project.new]
  cases known : registry.get r.typeName with
  | error fault => exact .inl (registry.get_owned _ fault known)
  | ok b =>
      cases named : r.projectName with
      | error fault => exact .inl (r.projectName_owned fault named)
      | ok name =>
          simp only [bind, Except.bind]
          cases drafted : r.draftDocument now name b.initial with
          | error fault => exact .inr ⟨b, name, known, named, drafted⟩
          | ok draft =>
              simp only
              cases initialized : b.initialized now r.inputs draft with
              | error fault => exact .inl (b.initialized_owned _ _ _ fault initialized)
              | ok filled =>
                  have typed : filled.Typed .any := by
                    by_contra spoiled
                    exact unspoiled ⟨b, name, draft, filled, known, named, drafted, initialized, spoiled⟩
                  obtain ⟨started, done, startedTyped, _⟩ :=
                    Edit.startPhases_keeps typed proper (b.phasesStartingAt b.initial)
                  simp only [Edit.result, done]
                  exact startedTyped

/-- What fails otherwise than this library does when a project is made: it breaks the rules, its type
spoils it, or nothing can be written. -/
theorem create_disowned (proper : now.Proper) {d : Disk} {path : String} {checkers : Checkers}
    {fault : Fault}
    (failed : (create registry now r ⟨(⟨d, path⟩ : FileStore Disk), checkers⟩).1 = .error fault)
    (disowned : ¬fault.Owned) :
    Undrafted registry now r fault ∨ Spoiled registry now r ∨ d.Unwritable path fault := by
  by_cases spoiled : Spoiled registry now r
  · exact .inr (.inl spoiled)
  · have made := new_unspoiled proper spoiled
    rw [run_create] at failed
    cases given : Project.new registry now r with
    | error other =>
        rw [given] at failed made
        cases failed
        exact .inl (made.resolve_left disowned)
    | ok p =>
        rw [given] at failed made
        let desk : Desk (FileStore Disk) := ⟨p, ⟨⟨d, path⟩, checkers⟩⟩
        let kind (fault : Fault) : Prop := fault.Owned ∨ d.Unwritable path fault
        have saving : FailsAs kind (Desk.save now desk).1 :=
          Desk.save_failsAs made proper (fun _ => .inl) (FileStore.save_failsAs path d)
        simp only at failed
        rcases saved : Desk.save now desk with ⟨other | ⟨⟩, after⟩
        · rw [saved] at failed saving
          cases failed
          exact .inr (.inr ((saving fault rfl).resolve_left disowned))
        · rw [saved] at failed
          cases failed

end Project

end Lifecycle
