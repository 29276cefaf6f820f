import Lifecycle.Proofs.Contract
import Lifecycle.Proofs.Firing
/-!
Storage tracks the machine over whole runs. Calls that store a project and return leave its document in
storage, with the machine's state noted, or nothing after the end of the lifecycle; all other calls, and
all calls that fail, leave storage alone. -/

namespace Lifecycle

open Attempt (Settles)

/-- A document that was synced notes the machine's state, whatever else stands in it. -/
theorem Document.current_of_sync {d synced : Document} {now : Timestamp} {state : String}
    (done : d.sync now state = .ok synced) : synced.current = .ok (.proper state) := by
  rw [sync] at done
  cases noted : d.current with
  | error fault =>
      rw [noted] at done
      cases done
  | ok current =>
      rw [noted] at done
      simp only [bind, Except.bind] at done
      by_cases same : current.holds state = true
      · rw [if_pos same] at done
        obtain rfl := Except.ok.inj done
        rw [noted, (Slot.holds_iff current state).mp same]
      · rw [if_neg same] at done
        obtain rfl := Except.ok.inj done
        rfl

variable {σ κ : Type} [Backend σ]

namespace Backend.Contract

/-- What storage is to show of a project that was stored: nothing after the end of its lifecycle, else
its document with the machine's state noted. -/
def Mirrors (contract : Contract σ κ) (p : Project) (shown : Option κ) : Prop :=
  if p.state = noProject then shown = none
  else p.document.current = .ok (.proper p.state) ∧
    ∃ kept, contract.encode p.document = some kept ∧ shown = some kept

def shown (contract : Contract σ κ) (desk : Desk σ) : Option κ := contract.content desk.archive.store

/-- A call that leaves what storage is to show, or fails and leaves storage as it was. -/
abbrev Tracks {α : Type} (contract : Contract σ κ) (work : Attempt (Desk σ) α) : Prop :=
  Settles contract.shown (fun _ after => contract.Mirrors after.project (contract.shown after)) work

end Backend.Contract

namespace Desk

variable (contract : Backend.Contract σ κ)

theorem clear_settles :
    Settles contract.shown (fun _ after => contract.shown after = none)
      (clear : Attempt (Desk σ) Unit) := by
  intro desk
  have same := contract.quiet desk.archive.store
  rw [run_clear]
  rcases looked : Backend.holds desk.archive.store with ⟨fault | _ | _, store⟩
  · rw [looked] at same
    exact same
  · have nothing := contract.holds.ok looked
    exact Option.isSome_eq_false_iff.mp nothing.symm |> Option.isNone_iff_eq_none.mp
  · rw [looked] at same
    have outcome := contract.delete store
    simp only
    rcases removed : Backend.delete store with ⟨fault | ⟨⟩, last⟩
    · rw [removed] at outcome
      exact outcome.trans same
    · rw [removed] at outcome
      exact outcome

theorem deposit_settles (d : Document) :
    Settles contract.shown
      (fun _ after => ∃ kept, contract.encode d = some kept ∧ contract.shown after = some kept)
      (deposit d) := by
  intro desk
  rw [deposit]
  rcases desk.project.blueprint.check d desk.archive.checkers with ⟨fault | ⟨⟩, checkers⟩
  · rfl
  · have outcome := contract.save d desk.archive.store
    simp only
    rcases saved : Backend.save d desk.archive.store with ⟨fault | ⟨⟩, store⟩
    · rw [saved] at outcome
      exact outcome
    · rw [saved] at outcome
      exact outcome

theorem save_error {now : Timestamp} {desk after : Desk σ} {fault : Fault}
    (failed : save now desk = (.error fault, after)) : contract.shown after = contract.shown desk := by
  rw [run_save] at failed
  cases synced : desk.project.document.sync now desk.project.state with
  | error other =>
      rw [synced] at failed
      cases failed
      rfl
  | ok d =>
      simp only [synced] at failed
      have same := (deposit_settles contract _).error failed
      exact same

theorem save_mirrors {now : Timestamp} {desk after : Desk σ}
    (goes : desk.project.state ≠ noProject) (saved : save now desk = (.ok (), after)) :
    contract.Mirrors after.project (contract.shown after) := by
  obtain ⟨d, synced, _, written, same⟩ := save_ok saved
  have there : after.project.state = desk.project.state := by
    rw [same]
    rfl
  have noted := Document.current_of_sync synced
  rw [Backend.Contract.Mirrors, there, if_neg goes, same]
  exact ⟨noted, (contract.save _).ok written⟩

theorem keep_tracks (now : Timestamp) : contract.Tracks (keep now) := by
  intro desk
  rw [run_keep]
  by_cases ended : desk.project.state = noProject
  · rw [if_pos ended]
    have outcome := clear_settles contract desk
    have stays := clear_project desk
    rcases cleared : clear desk with ⟨fault | ⟨⟩, after⟩
    · rw [cleared] at outcome
      exact outcome
    · rw [cleared] at outcome stays
      have there : after.project.state = noProject := stays ▸ ended
      show contract.Mirrors after.project (contract.shown after)
      rw [Backend.Contract.Mirrors, if_pos there]
      exact outcome
  · rw [if_neg ended]
    rcases saved : save now desk with ⟨fault | ⟨⟩, after⟩
    · exact save_error contract saved
    · exact save_mirrors contract ended saved

theorem quiet_onProject {α : Type} (work : Attempt Project α) (desk : Desk σ) :
    contract.shown (onProject work desk).2 = contract.shown desk := rfl

theorem fire_tracks (now : Timestamp) (event : String) : contract.Tracks (fire now event) := by
  rw [fire]
  apply Settles.after (fun _ => rfl)
  intro before
  apply Settles.after (quiet_onProject contract _)
  intro t
  apply Settles.after (fun _ => rfl)
  intro moved
  apply Settles.after (quiet_onProject contract _)
  intro _
  apply Settles.mono (Settles.map (Settles.rethrow (keep_tracks contract now) _) _)
  rintro m after ⟨_, _, mirrors⟩
  exact mirrors

theorem advance_tracks (now : Timestamp) : contract.Tracks (advance now) := by
  rw [advance]
  apply Settles.after (fun _ => rfl)
  intro before
  apply Settles.after (fun _ => rfl)
  exact fire_tracks contract now

end Desk

/-- What a caller may do with a project at hand: ask an engine for something, or edit the project in
memory in any way whatever. -/
inductive Call where
  | fire (now : Timestamp) (event : String)
  | advance (now : Timestamp)
  | save (now : Timestamp)
  | discover
  | dryRun (event : String)
  | edit (change : Project → Project)

namespace Call

/-- Whether a call stores the project if it returns. -/
def stores : Call → Bool
  | fire _ _ | advance _ | save _ => true
  | discover | dryRun _ | edit _ => false

/-- What a call does; its result is dropped. -/
def perform : Call → Attempt (Desk σ) Unit
  | fire now event => do let _ ← Desk.fire now event
  | advance now => do let _ ← Desk.advance now
  | save now => Desk.keep now
  | discover => do let _ ← Attempt.ofExcept (← get).project.discover
  | dryRun event => do let _ ← Attempt.ofExcept ((← get).project.dryRun event)
  | edit change => modify fun desk => { desk with project := change desk.project }

variable (contract : Backend.Contract σ κ)

theorem perform_tracks {call : Call} (stores : call.stores = true) : contract.Tracks call.perform := by
  cases call with
  | fire now event =>
      apply ((Desk.fire_tracks contract now event).map fun _ => ()).mono
      rintro _ after ⟨_, _, mirrors⟩
      exact mirrors
  | advance now =>
      apply ((Desk.advance_tracks contract now).map fun _ => ()).mono
      rintro _ after ⟨_, _, mirrors⟩
      exact mirrors
  | save now => exact Desk.keep_tracks contract now
  | discover => cases stores
  | dryRun event => cases stores
  | edit change => cases stores

theorem perform_quiet {call : Call} (not : call.stores = false) (desk : Desk σ) :
    contract.shown (call.perform desk).2 = contract.shown desk := by
  cases call with
  | fire now event => cases not
  | advance now => cases not
  | save now => cases not
  | edit change => rfl
  | discover =>
      rw [perform, Attempt.run_bind_ok (Attempt.run_get _), Attempt.ofExcept_bind]
      cases desk.project.discover <;> rfl
  | dryRun event =>
      rw [perform, Attempt.run_bind_ok (Attempt.run_get _), Attempt.ofExcept_bind]
      cases desk.project.dryRun event <;> rfl

theorem perform_error {call : Call} {desk after : Desk σ} {fault : Fault}
    (failed : call.perform desk = (.error fault, after)) :
    contract.shown after = contract.shown desk := by
  cases stores : call.stores with
  | true => exact (perform_tracks contract stores).error failed
  | false =>
      have quiet := perform_quiet contract stores desk
      rw [failed] at quiet
      exact quiet

end Call

namespace Desk

/-- The desk after a sequence of calls, some of which may have failed. -/
def afterAll (calls : List Call) (desk : Desk σ) : Desk σ :=
  calls.foldl (fun desk call => (call.perform desk).2) desk

/-- The project at the return of the last of the calls that store it and returned normally. -/
def lastStored : List Call → Desk σ → Option Project
  | [], _ => none
  | call :: rest, desk =>
    let after := (call.perform desk).2
    (lastStored rest after).or
      (if call.stores && (call.perform desk).1.isOk then some after.project else none)

theorem afterAll_cons (call : Call) (rest : List Call) (desk : Desk σ) :
    desk.afterAll (call :: rest) = (call.perform desk).2.afterAll rest := rfl

/-- What one call does to what storage shows. -/
theorem perform_shown (contract : Backend.Contract σ κ) (call : Call) (desk : Desk σ) :
    if call.stores && (call.perform desk).1.isOk then
      contract.Mirrors (call.perform desk).2.project (contract.shown (call.perform desk).2)
    else contract.shown (call.perform desk).2 = contract.shown desk := by
  cases stores : call.stores with
  | false =>
      rw [Bool.false_and, if_neg Bool.false_ne_true]
      exact call.perform_quiet contract stores desk
  | true =>
      rcases done : call.perform desk with ⟨fault | ⟨⟩, after⟩
      · exact call.perform_error contract done
      · exact (call.perform_tracks contract stores).ok done

/-- After any sequence of calls storage shows the project as it was stored last, or is as it was if none
of the calls stored it; and no call that fails changes what storage shows. -/
theorem afterAll_tracks (contract : Backend.Contract σ κ) (calls : List Call) (desk : Desk σ) :
    (match lastStored calls desk with
      | some p => contract.Mirrors p (contract.shown (desk.afterAll calls))
      | none => contract.shown (desk.afterAll calls) = contract.shown desk) ∧
    ∀ (call : Call) (before after : Desk σ) (fault : Fault),
      call.perform before = (.error fault, after) → contract.shown after = contract.shown before := by
  refine ⟨?_, fun call before after fault failed => call.perform_error contract failed⟩
  induction calls generalizing desk with
  | nil => rfl
  | cons call rest ih =>
      have first := perform_shown contract call desk
      have later := ih (call.perform desk).2
      rw [lastStored, afterAll_cons]
      cases last : lastStored rest (call.perform desk).2 with
      | some p =>
          rw [last] at later
          simp only [Option.some_or]
          exact later
      | none =>
          rw [last] at later
          simp only at later
          simp only [Option.none_or, later]
          by_cases stored : (call.stores && (call.perform desk).1.isOk) = true
          · rw [if_pos stored] at first ⊢
            exact first
          · rw [if_neg stored] at first ⊢
            exact first

end Desk

/-- A project over files that cannot be written the first time. -/
def Desk.interrupted : Desk (Unsteady (FileStore MemoryFiles)) :=
  ⟨(Desk.sample (.shape .anything) []).project, ⟨⟨.blank, [(.store, [true])]⟩, []⟩⟩

/-- A move that was not stored at first, and stored when that was tried again. -/
theorem Desk.afterAll_tracks_retry :
    ∃ p text, Desk.interrupted.lastStored [.fire newYear "finish", .save newYear] = some p ∧
      p.document.current = .ok (.proper "Done") ∧ p.document.print? = some text ∧
      (FileStore.contract MemoryFiles.contract).content (Desk.interrupted.afterAll
        [.fire newYear "finish", .save newYear]).archive.store.inner = some text := by
  have tracks := (Desk.afterAll_tracks (Unsteady.contract (FileStore.contract MemoryFiles.contract))
    [.fire newYear "finish", .save newYear] .interrupted).1
  have state : (Desk.interrupted.lastStored [.fire newYear "finish", .save newYear]).map
      Project.state = some "Done" := by decide +kernel
  cases last : Desk.interrupted.lastStored [.fire newYear "finish", .save newYear] with
  | none =>
      rw [last] at state
      cases state
  | some p =>
      rw [last] at tracks state
      have there : p.state = "Done" := Option.some.inj state
      simp only [Backend.Contract.Mirrors, there] at tracks
      obtain ⟨current, text, printed, shown⟩ := tracks
      exact ⟨p, text, rfl, current, printed, shown⟩

end Lifecycle
