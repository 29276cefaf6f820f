import Lifecycle.Proofs.Ascii
import Lifecycle.Proofs.Cycles
import Lifecycle.Proofs.Disk
/-!
Documents on a disk. What is written of them holds no carriage return, so it is read as it was written; and
where a file can be replaced once it can be replaced again. -/

namespace Lifecycle

theorem Document.print?_text {d : Document} {text : String} (printed : d.print? = some text) :
    text = Json.print (.indented 2) d.toValue.bare.finite ++ "\n" := by
  rw [print?] at printed
  split at printed
  · exact (Option.some.inj printed).symm
  · cases printed

theorem Document.print?_plain {d : Document} {text : String} (printed : d.print? = some text) :
    '\r' ∉ text.toList := by
  rw [print?_text printed, String.toList_append, Json.print, String.toList_ofList]
  intro member
  have ascii : Json.Ascii '\r' := by
    rcases List.mem_append.mp member with inside | last
    · exact Json.ascii_write _ _ _ _ inside
    · exact absurd last (by decide)
  revert ascii
  decide

namespace Disk

variable {path text : String} {d : Disk} {place : List String}

theorem find_eq_folder :
    d.find place = .folder ↔ Keyed.find? d.files place = none ∧ d.isFolder place = true := by
  rw [find]
  cases Keyed.find? d.files place with
  | some text => simp
  | none =>
      simp only [true_and]
      split
      · next folder => exact iff_of_true rfl folder
      · next other =>
          refine iff_of_false ?_ other
          split
          · intro same
            cases same
          · split <;> intro same <;> cases same

/-- A disk gives back the documents that were written to it. -/
theorem recalls : FileSystem.Recall Disk where
  quiet := read_quiet
  write document path text d after printed written := by
    obtain ⟨place, folders, resolved, proper, rfl⟩ := write_ok written
    have stored : Keyed.find? (Keyed.put d.files place text) place = some text := by
      rw [Keyed.find?_put, if_pos rfl]
    have found : (read path { d with folders, files := Keyed.put d.files place text }).1 = _ :=
      read_of_text resolved proper stored
    rw [Text.unifyNewlines_eq (document.print?_plain printed), String.ofList_toList] at found
    exact found

/-- Whether the file that a path names is there and can be replaced: no step is refused, and there is room
for a second file beside it. -/
structure Replaces (path : String) (place : List String) (d : Disk) : Prop where
  resolved : d.resolve path = .ok place
  proper : named place = .ok ()
  folderProper : named place.dropLast = .ok ()
  there : ∃ text, Keyed.find? d.files place = some text
  folder : d.find place.dropLast = .folder
  room : roomBeside place d = .ok ()
  unrefused : d.refused = []

theorem Replaces.swaps (ready : d.Replaces path place) : d.Swaps place := by
  have free (kind : WriteStep) : Keyed.find? d.refused kind = none := by rw [ready.unrefused]; rfl
  obtain ⟨old, there⟩ := ready.there
  exact ⟨⟨free _, ready.proper, free _, .inr ⟨old, find_eq_file.mpr there⟩⟩, free _⟩

theorem Replaces.write (ready : d.Replaces path place) (text : String) :
    Disk.write path text d = (.ok (), putFile place text d) := by
  have made : makeFolders place.dropLast d = (.ok (), d) := by
    rw [makeFolders, Attempt.run_bind_ok (Attempt.run_get _), ready.folder]
    rfl
  rw [run_write, ready.resolved]
  simp only [ready.folderProper, made, ready.room]
  rcases swap_outcome place text d with ⟨_, not⟩ | ⟨done, _⟩
  · exact absurd ready.swaps not
  · exact done

/-- A file that can be replaced can be replaced again. -/
theorem takes (path : String) (place : List String) : FileSystem.Takes path (Replaces path place) := by
  intro document text d printed ready
  refine ⟨_, ready.write text, ?_⟩
  obtain ⟨empty, folder⟩ := find_eq_folder.mp ready.folder
  have other : place ≠ place.dropLast := by
    intro same
    obtain ⟨old, there⟩ := ready.there
    rw [← same, there] at empty
    cases empty
  exact {
    resolved := ready.resolved
    proper := ready.proper
    folderProper := ready.folderProper
    there := ⟨text, by rw [find?_putFile, if_pos rfl]⟩
    folder := find_eq_folder.mpr ⟨by rw [find?_putFile, if_neg other, empty], folder⟩
    room := ready.room
    unrefused := ready.unrefused }

end Disk

/-- A text was put at a place: the file there holds just this, every other file is as it was, and of
the rest only the folders that were made are new. -/
structure Disk.Stored (before : Disk) (made : List (List String)) (place : List String) (text : String)
    (after : Disk) : Prop where
  found : after.find place = .file text
  others : ∀ other, other ≠ place → Keyed.find? after.files other = Keyed.find? before.files other
  rest : after = { before with folders := before.folders ++ made, files := after.files }

/-- Saving puts just the text of the document at the path if there is one that can be written there, and
else leaves every file as it was, wherever on the way it is broken off; all that may stay besides is
folders on the way. -/
theorem FileStore.save_whole (document : Document) (path : String) (d : Disk) :
    ∃ made, d.OnTheWay path made ∧
      ((∃ fault, save document ⟨d, path⟩ = (.error fault, ⟨{ d with folders := d.folders ++ made }, path⟩)) ∧
          ¬(document.print?.isSome ∧ ∃ place, d.Admits path place) ∨
        ∃ place after, save document ⟨d, path⟩ = (.ok (), ⟨after, path⟩) ∧
          document.print?.isSome ∧ d.Admits path place ∧
          d.Stored made place (Json.print (.indented 2) document.toValue.bare.finite ++ "\n") after) := by
  cases printed : document.print? with
  | none =>
      have unchanged : d = { d with folders := d.folders ++ [] } := by rw [List.append_nil]
      refine ⟨[], List.forall_mem_nil _, .inl ⟨⟨.unencodable path, ?_⟩, fun both => ?_⟩⟩
      · rw [save_of_no_text printed, ← unchanged]
      · cases both.1
  | some text =>
      obtain ⟨made, along, outcome⟩ := Disk.write_outcome path text d
      refine ⟨made, along, ?_⟩
      rw [save_of_print? printed, ← Document.print?_text printed]
      rcases outcome with ⟨⟨fault, failed⟩, not⟩ | ⟨place, admits, written⟩
      · have failed : FileSystem.write path text d = _ := failed
        rw [failed]
        exact .inl ⟨⟨_, rfl⟩, fun both => not both.2⟩
      · have written : FileSystem.write path text d = _ := written
        rw [written]
        refine .inr ⟨place, _, rfl, rfl, admits, ?_, fun other apart => ?_, rfl⟩
        · rw [Disk.find_eq_file, Disk.find?_putFile, if_pos rfl]
        · rw [Disk.find?_putFile, if_neg apart.symm]

end Lifecycle
