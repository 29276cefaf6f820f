import Lifecycle.Proofs.Codec
import Lifecycle.Storage.Outage
/-!
What storage promises about what it keeps: that is replaced, found and removed as a whole, and a call
that fails leaves it as it was. Storage whose calls fail by a schedule promises no less. -/

namespace Lifecycle

open Attempt (Settles)

structure Backend.Contract (σ κ : Type) [Backend σ] where
  content : σ → Option κ
  /-- What is kept of a document, if anything can be. -/
  encode : Document → Option κ
  save : ∀ d : Document, Settles content
    (fun _ after => ∃ kept, encode d = some kept ∧ content after = some kept) (Backend.save d)
  quiet : ∀ store : σ, content (Backend.holds store).2 = content store
  holds : Settles content (fun there after => there = (content after).isSome)
    (Backend.holds : Attempt σ Bool)
  delete : Settles content (fun _ after => content after = none) (Backend.delete : Attempt σ Unit)

/-- The same of a file system, for what is under one path. -/
structure FileSystem.Contract (φ : Type) [FileSystem φ] where
  textAt : String → φ → Option String
  write : ∀ path text, Settles (textAt path) (fun _ after => textAt path after = some text)
    (FileSystem.write path text)
  quiet : ∀ path (files : φ), textAt path (FileSystem.holds path files).2 = textAt path files
  holds : ∀ path, Settles (textAt path) (fun there after => there = (textAt path after).isSome)
    (FileSystem.holds path : Attempt φ Bool)
  remove : ∀ path, Settles (textAt path) (fun _ after => textAt path after = none)
    (FileSystem.remove path : Attempt φ Unit)

namespace MemoryStore

theorem save_settles (d : Document) : Settles held (fun _ after => after.held = some d) (save d) := by
  rw [save]
  apply Settles.after
  · exact fun _ => rfl
  · exact fun _ _ => rfl

theorem delete_settles : Settles held (fun _ after => after.held = none) delete := by
  rw [delete]
  apply Settles.after
  · exact fun _ => rfl
  · intro store
    split
    · exact fun _ => rfl
    · exact fun _ => rfl

/-- Memory keeps documents as they are. -/
def contract : Backend.Contract MemoryStore Document where
  content := held
  encode := some
  save d := (save_settles d).mono fun _ _ kept => ⟨d, rfl, kept⟩
  quiet _ := rfl
  holds _ := rfl
  delete := delete_settles

end MemoryStore

namespace MemoryFiles

theorem write_settles (path text : String) :
    Settles (fun m => Keyed.find? m.files path)
      (fun _ after => Keyed.find? after.files path = some text) (write path text) := by
  intro m
  show Keyed.find? (Keyed.put m.files path text) path = some text
  rw [Keyed.find?_put, if_pos rfl]

theorem remove_settles (path : String) :
    Settles (fun m => Keyed.find? m.files path) (fun _ after => Keyed.find? after.files path = none)
      (remove path) := by
  rw [remove]
  apply Settles.after
  · exact fun _ => rfl
  · intro m
    split
    · intro now
      exact Keyed.find?_erase now.files path
    · exact fun _ => rfl

def contract : FileSystem.Contract MemoryFiles where
  textAt path m := Keyed.find? m.files path
  write := write_settles
  quiet _ _ := rfl
  holds _ _ := rfl
  remove := remove_settles

end MemoryFiles

namespace FileStore

variable {φ : Type} [FileSystem φ]

/-- What a store keeps that leaves its path alone. -/
def textIn (system : FileSystem.Contract φ) (store : FileStore φ) : Option String :=
  system.textAt store.path store.files

theorem settles_onFiles (system : FileSystem.Contract φ) {α : Type} (good : α → Option String → Prop)
    {work : String → Attempt φ α}
    (inner : ∀ path, Settles (system.textAt path) (fun a after => good a (system.textAt path after))
      (work path)) :
    Settles (textIn system) (fun a after => good a (textIn system after)) (onFiles work) := by
  intro store
  have outcome := inner store.path store.files
  rw [onFiles, Attempt.run_focus]
  rcases shape : work store.path store.files with ⟨fault | a, after⟩
  · rw [shape] at outcome
    exact outcome
  · rw [shape] at outcome
    exact outcome

theorem save_settles (system : FileSystem.Contract φ) (d : Document) :
    Settles (textIn system)
      (fun _ after => ∃ text, d.print? = some text ∧ textIn system after = some text) (save d) := by
  rw [save]
  apply Settles.after
  · exact fun _ => rfl
  · intro store
    cases printed : d.print? with
    | none => exact fun _ => rfl
    | some text =>
        have written := settles_onFiles system (fun (_ : Unit) shown => shown = some text)
          fun path => system.write path text
        exact (written.rethrow _).mono fun _ _ shown => ⟨text, rfl, shown⟩

theorem holds_quiet (system : FileSystem.Contract φ) (store : FileStore φ) :
    textIn system (holds store).2 = textIn system store := by
  rw [holds, Attempt.run_bind_ok (Attempt.run_get store), Attempt.run_rethrow]
  exact system.quiet store.path store.files

theorem holds_settles (system : FileSystem.Contract φ) :
    Settles (textIn system) (fun there after => there = (textIn system after).isSome)
      (holds : Attempt (FileStore φ) Bool) := by
  rw [holds]
  apply Settles.after
  · exact fun _ => rfl
  · exact fun _ => (settles_onFiles system (fun there shown => there = shown.isSome)
      system.holds).rethrow _

theorem delete_settles (system : FileSystem.Contract φ) :
    Settles (textIn system) (fun _ after => textIn system after = none)
      (delete : Attempt (FileStore φ) Unit) := by
  rw [delete]
  apply Settles.after
  · exact fun _ => rfl
  · exact fun _ => (settles_onFiles system (fun (_ : Unit) shown => shown = none)
      system.remove).rethrow _

/-- A file keeps the text of a document. -/
def contract (system : FileSystem.Contract φ) : Backend.Contract (FileStore φ) String where
  content := textIn system
  encode := Document.print?
  save := save_settles system
  quiet := holds_quiet system
  holds := holds_settles system
  delete := delete_settles system

end FileStore

namespace Unsteady

variable {σ : Type}

theorem run_guarded {α : Type} (kind : Operation) (failure : Fault) (work : Attempt σ α)
    (u : Unsteady σ) :
    guarded kind failure work u =
      if (turn kind u.outages).1 then (.error failure, ⟨u.inner, (turn kind u.outages).2⟩)
      else ((work u.inner).1, ⟨(work u.inner).2, (turn kind u.outages).2⟩) := rfl

theorem quiet_guarded {α κ : Type} {observe : σ → κ} {work : Attempt σ α}
    (quiet : ∀ state, observe (work state).2 = observe state) (kind : Operation) (failure : Fault)
    (u : Unsteady σ) : observe (guarded kind failure work u).2.inner = observe u.inner := by
  rw [run_guarded]
  split
  · rfl
  · exact quiet u.inner

/-- A call that fails by the schedule leaves the storage as it was. -/
theorem settles_guarded {α κ : Type} {observe : σ → κ} {good : α → σ → Prop} {work : Attempt σ α}
    (inner : Settles observe good work) (kind : Operation) (failure : Fault) :
    Settles (fun u => observe u.inner) (fun a after => good a after.inner)
      (guarded kind failure work) := by
  intro u
  rw [run_guarded]
  by_cases fails : (turn kind u.outages).1 = true
  · rw [if_pos fails]
  · rw [if_neg fails]
    have outcome := inner u.inner
    rcases shape : work u.inner with ⟨fault | a, after⟩
    · rw [shape] at outcome
      exact outcome
    · rw [shape] at outcome
      exact outcome

def contract [Backend σ] {κ : Type} (inner : Backend.Contract σ κ) :
    Backend.Contract (Unsteady σ) κ where
  content u := inner.content u.inner
  encode := inner.encode
  save d := settles_guarded (inner.save d) _ _
  quiet := quiet_guarded inner.quiet _ _
  holds := settles_guarded inner.holds _ _
  delete := settles_guarded inner.delete _ _

def systemContract [FileSystem σ] (inner : FileSystem.Contract σ) :
    FileSystem.Contract (Unsteady σ) where
  textAt path u := inner.textAt path u.inner
  write path text := settles_guarded (inner.write path text) _ _
  quiet path := quiet_guarded (inner.quiet path) _ _
  holds path := settles_guarded (inner.holds path) _ _
  remove path := settles_guarded (inner.remove path) _ _

end Unsteady

end Lifecycle
