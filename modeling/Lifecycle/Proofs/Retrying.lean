import Lifecycle.Proofs.Tracking
/-!
Saving again after a move that was not stored. Whatever was tried before, what is stored in the end is the
document that would have been stored at once, but for the time of the last attempt. -/

namespace Lifecycle

theorem Document.sync_of_current {d : Document} {state : String}
    (current : d.current = .ok (.proper state)) (now : Timestamp) : d.sync now state = .ok d := by
  have same : (Slot.proper state).holds state = true := (Slot.holds_iff _ _).mpr rfl
  rw [sync, current]
  exact if_pos same

variable {σ κ : Type} [Backend σ]

namespace Desk

theorem save_project {now : Timestamp} {desk : Desk σ} {d : Document}
    (synced : desk.project.document.sync now desk.project.state = .ok d) :
    (save now desk).2.project = (desk.withDocument { d with updatedAt := .proper now }).project := by
  rw [run_save, synced]
  exact deposit_project _ _

/-- Keeping a project brings its document up to date, whether storing it fails or not. -/
theorem keep_project {now : Timestamp} {desk : Desk σ} {d : Document}
    (goes : desk.project.state ≠ noProject)
    (synced : desk.project.document.sync now desk.project.state = .ok d) :
    (keep now desk).2.project = (desk.withDocument { d with updatedAt := .proper now }).project := by
  rw [run_keep, if_neg goes]
  exact save_project synced

theorem keep_project_ended {desk : Desk σ} (ended : desk.project.state = noProject)
    (now : Timestamp) : (keep now desk).2.project = desk.project := by
  rw [run_keep, if_pos ended]
  exact clear_project desk

/-- Attempts to store a project as it is: a number of them fail, then one succeeds. -/
inductive Retries : Nat → Timestamp → Desk σ → Desk σ → Prop where
  | succeed {now : Timestamp} {desk after : Desk σ} (kept : keep now desk = (.ok (), after)) :
      Retries 0 now desk after
  | fail {n : Nat} {now last : Timestamp} {desk middle after : Desk σ} {fault : Fault}
      (failed : keep now desk = (.error fault, middle)) (later : Retries n last middle after) :
      Retries (n + 1) last desk after

/-- A project at hand, but for the time of the last attempt to store it. -/
def Stamped (p : Project) (desk : Desk σ) : Prop :=
  ∃ updated, desk.project = { p with document := { p.document with updatedAt := updated } }

/-- Keeping a project again whose document notes its state changes nothing but the time. -/
theorem Stamped.keep {p : Project} {desk : Desk σ} (stamped : Stamped p desk)
    (noted : p.document.current = .ok (.proper p.state)) (goes : p.state ≠ noProject)
    (now : Timestamp) :
    (keep now desk).2.project =
      { p with document := { p.document with updatedAt := .proper now } } := by
  have ⟨updated, same⟩ := stamped
  have there : desk.project.state = p.state := by
    rw [same]
    rfl
  have current : desk.project.document.current = .ok (.proper desk.project.state) := by
    rw [there, same]
    exact noted
  have going : desk.project.state ≠ noProject := there ▸ goes
  rw [keep_project going (Document.sync_of_current current now), withDocument, same]

theorem Retries.stamped {n : Nat} {last : Timestamp} {desk after : Desk σ}
    (retries : Retries n last desk after) {p : Project} (stamped : Stamped p desk)
    (noted : p.document.current = .ok (.proper p.state)) (goes : p.state ≠ noProject) :
    after.project = { p with document := { p.document with updatedAt := .proper last } } := by
  induction retries with
  | @succeed now desk after kept =>
      have done := stamped.keep noted goes now
      rw [kept] at done
      exact done
  | @fail n now last desk middle after fault failed _ ih =>
      have done := stamped.keep noted goes now
      rw [failed] at done
      exact ih ⟨_, done⟩

theorem Retries.ended {n : Nat} {last : Timestamp} {desk after : Desk σ}
    (retries : Retries n last desk after) (ended : desk.project.state = noProject) :
    after.project = desk.project := by
  induction retries with
  | @succeed now desk after kept =>
      have same := keep_project_ended ended now
      rw [kept] at same
      exact same
  | @fail n now last desk middle after fault failed _ ih =>
      have same := keep_project_ended ended now
      rw [failed] at same
      rw [ih (same ▸ ended), same]

/-- What the last attempt leaves in storage. -/
theorem Retries.mirrors (contract : Backend.Contract σ κ) {n : Nat} {last : Timestamp}
    {desk after : Desk σ} (retries : Retries n last desk after) :
    contract.Mirrors after.project (contract.shown after) := by
  induction retries with
  | succeed kept => exact (keep_tracks contract _).ok kept
  | fail _ _ ih => exact ih

theorem unsaved_of_afterMove {m told : Move} {fault cause : Fault}
    (reported : fault.afterMove m = .unsaved told cause) :
    told = m ∧ cause = fault ∧ fault.isExpected = true := by
  rw [Fault.afterMove] at reported
  split at reported
  · next expected =>
    cases reported
    exact ⟨rfl, rfl, expected⟩
  · next unexpected =>
    rw [reported] at unexpected
    exact absurd rfl unexpected

/-- A transition that fires is stored once, after its actions and the phases have been seen to. -/
theorem run_fire_fired {now : Timestamp} {event : String} {desk : Desk σ} {t : Transition}
    {moved : Project} {edited : Document} (fired : desk.project.fire now event = (.ok t, moved))
    (updated : Edit.afterTransition now moved.blueprint desk.project.state t moved.document =
      (.ok (), edited)) :
    fire now event desk =
      match keep now (desk.withProject { moved with document := edited }) with
      | (.error fault, after) => (.error (fault.afterMove (t.move desk.project.state)), after)
      | (.ok _, after) => (.ok (t.move desk.project.state), after) := by
  rw [run_fire, fired]
  simp only [settle, withProject, updated]
  rfl

theorem fire_moves {now : Timestamp} {event : String} {desk stored : Desk σ} {m : Move}
    (done : fire now event desk = (.ok m, stored)) :
    ∃ t moved edited, desk.project.fire now event = (.ok t, moved) ∧
      Edit.afterTransition now moved.blueprint desk.project.state t moved.document =
        (.ok (), edited) ∧
      m = t.move desk.project.state ∧
      keep now (desk.withProject { moved with document := edited }) = (.ok (), stored) := by
  rcases fired : desk.project.fire now event with ⟨fault | t, moved⟩
  · rw [run_fire, fired] at done
    cases done
  · rcases updated : Edit.afterTransition now moved.blueprint desk.project.state t moved.document with
      ⟨fault | ⟨⟩, edited⟩
    · rw [run_fire, fired] at done
      simp only [settle, withProject, updated] at done
      cases done
    · rw [run_fire_fired fired updated] at done
      rcases kept : keep now (desk.withProject { moved with document := edited }) with
        ⟨fault | ⟨⟩, after⟩
      · rw [kept] at done
        cases done
      · rw [kept] at done
        cases done
        exact ⟨t, moved, edited, rfl, updated, rfl, kept⟩

/-- A project was stored at a time: its document was, and holds that time, or nothing is stored after the
end of its lifecycle. -/
def StoredAs (contract : Backend.Contract σ κ) (p : Project) (updated : Timestamp)
    (desk : Desk σ) : Prop :=
  if p.state = noProject then desk.project = p ∧ contract.shown desk = none
  else
    let d := { p.document with updatedAt := .proper updated }
    desk.project = { p with document := d } ∧
      ∃ content, contract.encode d = some content ∧ contract.shown desk = some content

theorem storedAs_of_mirrors {contract : Backend.Contract σ κ} {p : Project} {updated : Timestamp}
    {desk : Desk σ} (mirrors : contract.Mirrors desk.project (contract.shown desk))
    (same : desk.project = if p.state = noProject then p
      else { p with document := { p.document with updatedAt := .proper updated } }) :
    StoredAs contract p updated desk := by
  rw [StoredAs]
  split
  · next ended =>
    rw [if_pos ended] at same
    rw [Backend.Contract.Mirrors, same, if_pos ended] at mirrors
    exact ⟨same, mirrors⟩
  · next goes =>
    rw [if_neg goes] at same
    have going : desk.project.state ≠ noProject := by
      rw [same]
      exact goes
    rw [Backend.Contract.Mirrors, if_neg going, same] at mirrors
    exact ⟨same, mirrors.2⟩

/-- What becomes of a document by being brought up to date. At the end of the lifecycle that is left
undone. -/
def UpToDate (now : Timestamp) (p : Project) (d : Document) : Prop :=
  if p.state = noProject then d = p.document else p.document.sync now p.state = .ok d

theorem keep_storedAs (contract : Backend.Contract σ κ) {now : Timestamp} {desk after : Desk σ}
    (kept : keep now desk = (.ok (), after)) :
    ∃ d, UpToDate now desk.project d ∧
      StoredAs contract { desk.project with document := d } now after := by
  have mirrors := (keep_tracks contract now).ok kept
  by_cases ended : desk.project.state = noProject
  · have same := keep_project_ended ended now
    rw [kept] at same
    exact ⟨_, (if_pos ended).mpr rfl, storedAs_of_mirrors mirrors (same.trans (if_pos ended).symm)⟩
  · have saved := kept
    rw [run_keep, if_neg ended] at saved
    have ⟨d, synced, _, _, same⟩ := save_ok saved
    exact ⟨d, (if_neg ended).mpr synced, storedAs_of_mirrors mirrors (same.trans (if_neg ended).symm)⟩

theorem Retries.storedAs (contract : Backend.Contract σ κ) {n : Nat} {now last : Timestamp}
    {desk middle after : Desk σ} {fault : Fault} (failed : keep now desk = (.error fault, middle))
    (retries : Retries n last middle after) {d : Document} (current : UpToDate now desk.project d) :
    StoredAs contract { desk.project with document := d } last after := by
  apply storedAs_of_mirrors (retries.mirrors contract)
  rw [UpToDate] at current
  split at current
  · next ended =>
    have same := keep_project_ended ended now
    rw [failed] at same
    rw [retries.ended (same ▸ ended), same, current]
    exact (if_pos ended).symm
  · next goes =>
    have same := keep_project goes current
    rw [failed] at same
    have noted := Document.current_of_sync current
    rw [retries.stamped (p := { desk.project with document := d }) ⟨_, same⟩ noted goes]
    exact (if_neg goes).symm

/-- Storing a move again after failures comes to the same as storing it at once: its actions run once, the
phases are brought up to date once, and what is stored differs in nothing but the time of storing. -/
theorem retried_as_at_once (contract : Backend.Contract σ κ) {now last : Timestamp} {event : String}
    {n : Nat} {m told : Move} {cause : Fault} {desk other stored unsaved kept : Desk σ}
    (same : other.project = desk.project) (atOnce : fire now event desk = (.ok m, stored))
    (failed : fire now event other = (.error (.unsaved told cause), unsaved))
    (retries : Retries n last unsaved kept) :
    told = m ∧ ∃ t moved edited d, desk.project.fire now event = (.ok t, moved) ∧
      Edit.afterTransition now moved.blueprint desk.project.state t moved.document =
        (.ok (), edited) ∧
      moved.state = m.target ∧ UpToDate now { moved with document := edited } d ∧
      StoredAs contract { moved with document := d } now stored ∧
      StoredAs contract { moved with document := d } last kept := by
  have ⟨t, moved, edited, fired, updated, moves, first⟩ := fire_moves atOnce
  have there : moved.state = m.target := by
    rw [moves]
    exact congrArg Machine.state (Project.fire_ok fired).2.2
  have ⟨d, current, storedFirst⟩ := keep_storedAs contract first
  -- The other run did the same until it came to storing.
  rw [← same] at fired updated moves
  rw [run_fire_fired fired updated] at failed
  rcases second : keep now (other.withProject { moved with document := edited }) with
    ⟨fault | ⟨⟩, after⟩
  · rw [second] at failed
    obtain ⟨reported, rfl⟩ := Prod.mk.inj failed
    have report : told = m := (unsaved_of_afterMove (Except.error.inj reported)).1.trans moves.symm
    rw [same] at fired updated
    exact ⟨report, t, moved, edited, d, fired, updated, there, current, storedFirst,
      retries.storedAs contract second current⟩
  · rw [second] at failed
    cases failed

end Desk

/-- The project of that sample over files that cannot be written a number of times. -/
def Desk.refusing (times : Nat) : Desk (Unsteady (FileStore MemoryFiles)) :=
  ⟨(Desk.sample (.shape .anything) []).project,
    ⟨⟨.blank, [(.store, List.replicate times true)]⟩, []⟩⟩

/-- Whether a project was moved and not stored. -/
def Desk.isUnsaved {σ : Type} : Except Fault Move × Desk σ → Bool
  | (.error (.unsaved _ _), _) => true
  | _ => false

def oneOClock : Timestamp := ⟨2024, 1, 1, 1, 0, 0, 0, none⟩

/-- A move that was stored an hour later, at the second attempt after it. -/
theorem Desk.retried_hour_later :
    ∃ m cause stored unsaved kept, fire newYear "finish" (.refusing 0) = (.ok m, stored) ∧
      fire newYear "finish" (.refusing 2) = (.error (.unsaved m cause), unsaved) ∧
      Retries 1 oneOClock unsaved kept ∧
      ∃ p, StoredAs (Unsteady.contract (FileStore.contract MemoryFiles.contract)) p newYear stored ∧
        StoredAs (Unsteady.contract (FileStore.contract MemoryFiles.contract)) p oneOClock kept := by
  have goes : (fire newYear "finish" (.refusing 0)).1.isOk = true := by decide +kernel
  have fails : isUnsaved (fire newYear "finish" (.refusing 2)) = true := by decide +kernel
  have again : (keep newYear (fire newYear "finish" (.refusing 2)).2).1.isOk = false := by
    decide +kernel
  have last : (keep oneOClock (keep newYear (fire newYear "finish" (.refusing 2)).2).2).1.isOk =
      true := by decide +kernel
  rcases atOnce : fire newYear "finish" (.refusing 0) with ⟨fault | m, stored⟩
  · rw [atOnce] at goes
    cases goes
  unfold isUnsaved at fails
  split at fails
  · next told cause unsaved failed =>
    rw [failed] at again last
    rcases first : keep newYear unsaved with ⟨fault | ⟨⟩, middle⟩
    · rw [first] at last
      rcases second : keep oneOClock middle with ⟨fault | ⟨⟩, kept⟩
      · rw [second] at last
        cases last
      · have retries : Retries 1 oneOClock unsaved kept :=
          .fail first (.succeed second)
        have same : (refusing 2).project = (refusing 0).project := rfl
        obtain ⟨rfl, t, moved, edited, d, _, _, _, _, here, later⟩ :=
          retried_as_at_once (Unsteady.contract (FileStore.contract MemoryFiles.contract)) same
            atOnce failed retries
        exact ⟨told, cause, stored, unsaved, kept, rfl, failed, retries, _, here, later⟩
    · rw [first] at again
      cases again
  · cases fails

end Lifecycle
