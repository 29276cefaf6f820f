import Lifecycle.Proofs.Contract
import Lifecycle.Proofs.Data
import Lifecycle.Proofs.Phases
import Lifecycle.Storage.Disk
/-!
Files on a disk. Looking changes nothing, and a file is replaced as a whole or not at all: what fails on
the way leaves every file as it was, since the second file has a name that no file has. -/

namespace Lifecycle

open Attempt (Settles)

namespace Keyed

variable {κ α : Type} [DecidableEq κ]

theorem put_put (table : Keyed κ α) (k : κ) (a b : α) : put (put table k a) k b = put table k b := by
  induction table with
  | nil => rw [put, put, put, if_pos rfl]
  | cons entry rest ih =>
      obtain ⟨key, old⟩ := entry
      by_cases same : key = k
      · rw [put, if_pos same, put, if_pos same, put, if_pos same]
      · rw [put, if_neg same, put, if_neg same, put, if_neg same, ih]

theorem erase_put {table : Keyed κ α} {k : κ} (new : k ∉ keys table) (a : α) :
    erase (put table k a) k = table := by
  induction table with
  | nil => rw [put, erase, if_pos rfl, erase]
  | cons entry rest ih =>
      obtain ⟨key, old⟩ := entry
      rw [keys_cons, List.mem_cons, not_or] at new
      rw [put, if_neg (Ne.symm new.1), erase, if_neg (Ne.symm new.1), ih new.2]

end Keyed

namespace Disk

section

variable {d after : Disk} {path text : String} {place : List String} {fault : Fault}

/-- What an operation gives that is nowhere below what it is given. -/
theorem le_foldl {op : Nat → Nat → Nat} (left : ∀ m n, m ≤ op m n) (right : ∀ m n, n ≤ op m n)
    {list : List Nat} {start n : Nat} (within : n ≤ start ∨ n ∈ list) : n ≤ list.foldl op start := by
  induction list generalizing start with
  | nil => exact within.resolve_right List.not_mem_nil
  | cons m rest ih =>
      rw [List.foldl_cons]
      apply ih
      rcases within with below | member
      · exact .inl (below.trans (left start m))
      · rcases List.mem_cons.mp member with rfl | later
        · exact .inl (right start n)
        · exact .inr later

/-- The name for second files is on no way to a file or folder, nor on the one asked for: it is longer than
all names there. -/
theorem fresh (d : Disk) {place way : List String}
    (used : way ∈ place :: (Keyed.keys d.files ++ d.folders)) : d.freshName place ∉ way := by
  intro member
  let total (way : List String) : Nat := (way.map String.length).foldl Nat.add 0
  let longest := ((place :: (Keyed.keys d.files ++ d.folders)).map total).foldl Nat.max 0
  have short : total way ≤ longest :=
    le_foldl Nat.le_max_left Nat.le_max_right (.inr (List.mem_map_of_mem used))
  -- If the name were there, it would be among those that it is longer than.
  have long : (d.freshName place).length ≤ total way :=
    le_foldl Nat.le_add_right (fun m n => Nat.le_add_left n m) (.inr (List.mem_map_of_mem member))
  have length : (d.freshName place).length = 5 + longest := by
    simp only [freshName, String.length_append, String.length_ofList, List.length_replicate]
    rfl
  omega

theorem fresh_file (d : Disk) (place folder : List String) :
    folder ++ [d.freshName place] ∉ Keyed.keys d.files := by
  intro member
  exact d.fresh (List.mem_cons_of_mem place (List.mem_append_left d.folders member))
    (List.mem_append_right folder List.mem_cons_self)

theorem find?_putFile (place other : List String) (text : String) (d : Disk) :
    Keyed.find? (putFile place text d).files other =
      if place = other then some text else Keyed.find? d.files other :=
  Keyed.find?_put d.files place other text

/-- A second file is not in the way of the first. -/
theorem find_beside (d : Disk) (place folder : List String) (text : String) :
    (putFile (folder ++ [d.freshName place]) text d).find place = d.find place := by
  have apart (n : Nat) : folder ++ [d.freshName place] ≠ place.take n := by
    intro same
    have member : d.freshName place ∈ place.take n :=
      same ▸ List.mem_append_right folder List.mem_cons_self
    exact d.fresh List.mem_cons_self (List.mem_of_mem_take member)
  have other (n : Nat) : Keyed.find? (putFile (folder ++ [d.freshName place]) text d).files (place.take n) =
      Keyed.find? d.files (place.take n) := by
    rw [find?_putFile, if_neg (apart n)]
  have here := other place.length
  rw [List.take_length] at here
  have obstacle : (putFile (folder ++ [d.freshName place]) text d).obstacleAt place = d.obstacleAt place := by
    funext n
    rw [obstacleAt, obstacleAt, Keyed.has, Keyed.has, other n]
    rfl
  rw [find, find, here, obstacle]
  rfl

section

variable {kind : WriteStep} {part : Nat → Disk → Disk} {change : Disk → Except Fault Disk}

/-- What is refused is left as far as it was done. -/
theorem step_refused {done : Nat} (refused : Keyed.find? d.refused kind = some done) :
    step kind place part change d =
      (.error (.system (Text.quoted ("/".intercalate place))), part done d) := by
  rw [step, refused]

theorem step_free (free : Keyed.find? d.refused kind = none) :
    step kind place part change d =
      match change d with
      | .ok changed => (.ok (), changed)
      | .error fault => (.error fault, d) := by
  unfold step
  split
  · next refused =>
    rw [free] at refused
    cases refused
  · rfl

end

/-- What is done with a second file once there is one. -/
def fill (temporary place : List String) (text : String) : Attempt Disk Unit := do
  step .content temporary (fun done => putFile temporary (beginning text done))
    fun d => .ok (putFile temporary text d)
  Attempt.ofExcept (named place)
  step .replacement place untouched (replace temporary place)

/-- What is left to do once there is a folder to put a second file into. -/
def swap (place : List String) (text : String) : Attempt Disk Unit := do
  let temporary := place.dropLast ++ [(← get).freshName place]
  step .temporary temporary untouched fun d => .ok (putFile temporary "" d)
  orDrop temporary (fill temporary place text)

theorem run_write (path text : String) (d : Disk) :
    write path text d =
      match d.resolve path with
      | .error fault => (.error fault, d)
      | .ok place =>
        match named place.dropLast with
        | .error fault => (.error fault, d)
        | .ok _ =>
          match makeFolders place.dropLast d with
          | (.error fault, made) => (.error fault, made)
          | (.ok _, made) =>
            match roomBeside place made with
            | .error fault => (.error fault, made)
            | .ok _ => swap place text made := by
  rw [write, Attempt.run_bind_ok (Attempt.run_get _), Attempt.ofExcept_bind]
  cases d.resolve path with
  | error fault => rfl
  | ok place =>
      simp only [Attempt.ofExcept_bind]
      cases named place.dropLast with
      | error fault => rfl
      | ok named =>
          simp only
          rw [Attempt.run_bind]
          rcases makeFolders place.dropLast d with ⟨fault | ⟨⟩, made⟩
          · rfl
          · simp only
            rw [Attempt.run_bind_ok (Attempt.run_get _), Attempt.ofExcept_bind]
            cases roomBeside place made with
            | error fault => rfl
            | ok room => rfl

/-- Making folders touches nothing else, and all that are made lie on the way. -/
theorem makeFolders_rest (place : List String) (d : Disk) :
    ∃ made, (makeFolders place d).2 = { d with folders := d.folders ++ made } ∧
      ∀ folder ∈ made, folder <+: place := by
  have unchanged : d = { d with folders := d.folders ++ [] } := by rw [List.append_nil]
  rw [makeFolders, Attempt.run_bind_ok (Attempt.run_get _)]
  cases d.find place with
  | folder => exact ⟨[], unchanged, List.forall_mem_nil _⟩
  | file text => exact ⟨[], unchanged, List.forall_mem_nil _⟩
  | barred why => exact ⟨[], unchanged, List.forall_mem_nil _⟩
  | missing =>
      simp only
      split
      · exact ⟨[], unchanged, List.forall_mem_nil _⟩
      · have along := List.takeWhile_prefix (fun part : String => part.utf8ByteSize ≤ nameLimit) (l := place)
        rw [Attempt.run_bind]
        cases refused : Keyed.find? d.refused WriteStep.folder with
        | some done =>
            rw [step_refused refused]
            exact ⟨[_], rfl, List.forall_mem_singleton.mpr ((List.take_prefix done _).trans along)⟩
        | none =>
            rw [step_free refused]
            refine ⟨[_], ?_, List.forall_mem_singleton.mpr along⟩
            simp only
            split <;> rfl

/-- What a file can be put in the place of: another, or nothing. -/
def Replaceable (place : List String) (d : Disk) : Prop :=
  d.find place = .missing ∨ ∃ old, d.find place = .file old

/-- A second file takes the place of the first unless that is barred or a folder. -/
theorem replace_beside (folder place : List String) (text : String) (d : Disk) :
    (∃ fault, replace (folder ++ [d.freshName place]) place
        (putFile (folder ++ [d.freshName place]) text d) = .error fault) ∧ ¬d.Replaceable place ∨
      replace (folder ++ [d.freshName place]) place (putFile (folder ++ [d.freshName place]) text d) =
        .ok (putFile place text d) ∧ d.Replaceable place := by
  have filled : Keyed.find? (putFile (folder ++ [d.freshName place]) text d).files
      (folder ++ [d.freshName place]) = some text := by
    rw [find?_putFile, if_pos rfl]
  have swapped : putFile place text (dropFile (folder ++ [d.freshName place])
      (putFile (folder ++ [d.freshName place]) text d)) = putFile place text d := by
    rw [dropFile, putFile, putFile, Keyed.erase_put (d.fresh_file place folder)]
    rfl
  rw [replace, find_beside, filled, Replaceable]
  cases d.find place with
  | folder => exact .inl ⟨⟨_, rfl⟩, by simp⟩
  | barred why => exact .inl ⟨⟨_, rfl⟩, by simp⟩
  | missing => exact .inr ⟨congrArg Except.ok swapped, .inl rfl⟩
  | file old => exact .inr ⟨congrArg Except.ok swapped, .inr ⟨old, rfl⟩⟩

theorem run_orDrop (temporary : List String) (work : Attempt Disk Unit) (d : Disk) :
    orDrop temporary work d =
      match work d with
      | (.ok _, after) => (.ok (), after)
      | (.error fault, after) => (.error fault, dropFile temporary after) := by
  rw [orDrop, Attempt.run_tryCatch]
  rcases work d with ⟨fault | ⟨⟩, after⟩ <;> rfl

theorem dropFile_putFile {temporary : List String} (new : temporary ∉ Keyed.keys d.files)
    (text : String) : dropFile temporary (putFile temporary text d) = d := by
  simp only [dropFile, putFile, Keyed.erase_put new]

theorem putFile_putFile (place : List String) (first second : String) (d : Disk) :
    putFile place second (putFile place first d) = putFile place second d := by
  simp only [putFile, Keyed.put_put]

theorem ne_none_of_some {table : Keyed WriteStep Nat} {kind : WriteStep} {done : Nat}
    (refused : Keyed.find? table kind = some done) : Keyed.find? table kind ≠ none := by
  rw [refused]
  exact Option.some_ne_none done

/-- Whether a second file can be filled and put at a place. -/
structure Fills (place : List String) (d : Disk) : Prop where
  content : Keyed.find? d.refused .content = none
  proper : named place = .ok ()
  replacement : Keyed.find? d.refused .replacement = none
  replaceable : d.Replaceable place

/-- A second file takes the place of the first, or it is still there with whatever it was filled with. -/
theorem fill_outcome (folder place : List String) (text : String) (d : Disk) :
    (∃ fault left, fill (folder ++ [d.freshName place]) place text
        (putFile (folder ++ [d.freshName place]) "" d) =
          (.error fault, putFile (folder ++ [d.freshName place]) left d)) ∧ ¬d.Fills place ∨
      fill (folder ++ [d.freshName place]) place text (putFile (folder ++ [d.freshName place]) "" d) =
        (.ok (), putFile place text d) ∧ d.Fills place := by
  rw [fill, Attempt.run_bind]
  cases content : Keyed.find? d.refused .content with
  | some done =>
      rw [step_refused (d := putFile _ _ d) content]
      simp only [putFile_putFile]
      exact .inl ⟨⟨_, _, rfl⟩, fun fills => ne_none_of_some content fills.content⟩
  | none =>
  rw [step_free (d := putFile _ _ d) content]
  simp only [putFile_putFile, Attempt.ofExcept_bind]
  cases proper : named place with
  | error fault =>
      refine .inl ⟨⟨_, _, rfl⟩, fun fills => ?_⟩
      cases proper.symm.trans fills.proper
  | ok _ =>
  simp only
  cases replacement : Keyed.find? d.refused .replacement with
  | some done =>
      rw [step_refused (d := putFile _ _ d) replacement]
      exact .inl ⟨⟨_, _, rfl⟩, fun fills => ne_none_of_some replacement fills.replacement⟩
  | none =>
  rw [step_free (d := putFile _ _ d) replacement]
  rcases replace_beside folder place text d with
    ⟨⟨fault, barred⟩, not⟩ | ⟨replaced, replaceable⟩
  · rw [barred]
    exact .inl ⟨⟨_, _, rfl⟩, fun fills => not fills.replaceable⟩
  · rw [replaced]
    exact .inr ⟨rfl, content, proper, replacement, replaceable⟩

/-- Whether a second file can be made, filled and put at a place. -/
structure Swaps (place : List String) (d : Disk) : Prop extends d.Fills place where
  temporary : Keyed.find? d.refused .temporary = none

/-- A file is replaced as a whole, or all is as it was: the second file goes whatever fails. -/
theorem swap_outcome (place : List String) (text : String) (d : Disk) :
    (∃ fault, swap place text d = (.error fault, d)) ∧ ¬d.Swaps place ∨
      swap place text d = (.ok (), putFile place text d) ∧ d.Swaps place := by
  have dropped := dropFile_putFile (d.fresh_file place place.dropLast)
  rw [swap, Attempt.run_bind_ok (Attempt.run_get _), Attempt.run_bind]
  cases temporary : Keyed.find? d.refused .temporary with
  | some done =>
      rw [step_refused temporary]
      exact .inl ⟨⟨_, rfl⟩, fun swaps => ne_none_of_some temporary swaps.temporary⟩
  | none =>
      rw [step_free temporary]
      simp only [run_orDrop]
      rcases fill_outcome place.dropLast place text d with ⟨⟨fault, left, failed⟩, not⟩ | ⟨done, fills⟩
      · rw [failed]
        simp only [dropped]
        exact .inl ⟨⟨_, rfl⟩, fun swaps => not swaps.toFills⟩
      · rw [done]
        exact .inr ⟨rfl, fills, temporary⟩

/-- Whether all these folders lie on the way to a path. -/
def OnTheWay (path : String) (d : Disk) (made : List (List String)) : Prop :=
  ∀ folder ∈ made, ∃ place, d.resolve path = .ok place ∧ folder <+: place.dropLast

theorem named_dropLast (failed : named place.dropLast = .error fault) :
    named place = .error fault := by
  rw [named] at failed ⊢
  split at failed
  · next within =>
      obtain ⟨part, member, null⟩ := List.any_eq_true.mp within
      have whole : hasNull place = true :=
        List.any_eq_true.mpr ⟨part, List.mem_of_mem_dropLast member, null⟩
      rw [if_pos whole]
      exact failed
  · cases failed

/-- Whether a text can be written to a path: it leads to a place, the folders on the way are there or can be
made, and beside the place there is room for a second file, which can be put there. -/
structure Admits (path : String) (place : List String) (d : Disk) : Prop where
  resolved : d.resolve path = .ok place
  folders : (makeFolders place.dropLast d).1 = .ok ()
  room : roomBeside place (makeFolders place.dropLast d).2 = .ok ()
  swaps : (makeFolders place.dropLast d).2.Swaps place

/-- What writing does: it may make folders on the way, and it replaces a file if it can. -/
theorem write_outcome (path text : String) (d : Disk) :
    ∃ made, d.OnTheWay path made ∧
      ((∃ fault, write path text d = (.error fault, { d with folders := d.folders ++ made })) ∧
          (¬∃ place, d.Admits path place) ∨
        ∃ place, d.Admits path place ∧
          write path text d = (.ok (), putFile place text { d with folders := d.folders ++ made })) := by
  have unchanged : d = { d with folders := d.folders ++ [] } := by rw [List.append_nil]
  rw [run_write]
  cases resolved : d.resolve path with
  | error fault =>
      refine ⟨[], List.forall_mem_nil _, .inl ⟨⟨fault, congrArg (Prod.mk _) unchanged⟩, ?_⟩⟩
      rintro ⟨place, admits⟩
      cases resolved.symm.trans admits.resolved
  | ok place =>
      have nowhere (not : ¬d.Admits path place) : ¬∃ other, d.Admits path other := by
        rintro ⟨other, admits⟩
        obtain rfl : other = place := Except.ok.inj (admits.resolved.symm.trans resolved)
        exact not admits
      simp only
      cases improper : named place.dropLast with
      | error fault =>
          refine ⟨[], List.forall_mem_nil _,
            .inl ⟨⟨fault, congrArg (Prod.mk _) unchanged⟩, nowhere fun admits => ?_⟩⟩
          cases (named_dropLast improper).symm.trans admits.swaps.proper
      | ok _ =>
          obtain ⟨made, rest, along⟩ := makeFolders_rest place.dropLast d
          refine ⟨made, fun folder member => ⟨place, resolved, along folder member⟩, ?_⟩
          simp only
          rcases shape : makeFolders place.dropLast d with ⟨fault | ⟨⟩, after⟩
          · rw [shape] at rest
            refine .inl ⟨⟨fault, congrArg (Prod.mk _) rest⟩, nowhere fun admits => ?_⟩
            cases (congrArg Prod.fst shape).symm.trans admits.folders
          · rw [shape] at rest
            obtain rfl : after = { d with folders := d.folders ++ made } := rest
            simp only
            cases room : roomBeside place { d with folders := d.folders ++ made } with
            | error fault =>
                refine .inl ⟨⟨fault, rfl⟩, nowhere fun admits => ?_⟩
                have there := admits.room
                rw [shape, room] at there
                cases there
            | ok _ =>
                rcases swap_outcome place text { d with folders := d.folders ++ made } with
                  ⟨⟨fault, same⟩, not⟩ | ⟨done, swaps⟩
                · refine .inl ⟨⟨fault, same⟩, nowhere fun admits => ?_⟩
                  have there := admits.swaps
                  rw [shape] at there
                  exact not there
                · refine .inr ⟨place, ⟨resolved, ?_, ?_, ?_⟩, done⟩
                  · rw [shape]
                  · rw [shape, room]
                  · rw [shape]
                    exact swaps

/-- A second file that was half written is gone again. -/
example :
    let d : Disk := { empty "/r" with refused := [(.content, 2)] }
    (write "a" "text" d).2 = d := by
  decide +kernel

theorem write_ok {path text : String} {d after : Disk} (done : write path text d = (.ok (), after)) :
    ∃ place folders, d.resolve path = .ok place ∧ named place = .ok () ∧
      after = { d with folders, files := Keyed.put d.files place text } := by
  obtain ⟨made, _, ⟨⟨fault, failed⟩, _⟩ | ⟨place, admits, written⟩⟩ := write_outcome path text d
  · rw [failed] at done
    cases done
  · rw [written] at done
    exact ⟨place, d.folders ++ made, admits.resolved, admits.swaps.proper, (congrArg Prod.snd done).symm⟩

theorem find_eq_file {place : List String} {d : Disk} {text : String} :
    d.find place = .file text ↔ Keyed.find? d.files place = some text := by
  rw [find]
  cases Keyed.find? d.files place with
  | some other =>
      constructor
      · exact fun same => congrArg some (Found.file.inj same)
      · exact fun same => congrArg Found.file (Option.some.inj same)
  | none =>
      constructor
      · intro same
        simp only at same
        split at same
        · cases same
        · split at same
          · cases same
          · split at same <;> cases same
      · nofun

theorem named_eq_ok {place : List String} : named place = .ok () ↔ hasNull place = false := by
  rw [named]
  cases hasNull place with
  | false => exact ⟨fun _ => rfl, fun _ => rfl⟩
  | true => exact ⟨nofun, nofun⟩

theorem resolve_congr {d other : Disk} (same : d.root = other.root) (path : String) :
    d.resolve path = other.resolve path := by
  rw [resolve, resolve, same]

/-- Reading changes nothing. -/
theorem read_quiet (path : String) (d : Disk) : (read path d).2 = d := by
  rw [read, Attempt.run_bind_ok (Attempt.run_get _), Attempt.ofExcept_bind]
  cases d.resolve path with
  | error fault => rfl
  | ok place =>
      simp only [Attempt.ofExcept_bind]
      cases named place with
      | error fault => rfl
      | ok _ =>
          simp only
          cases d.find place <;> rfl

theorem read_of_text {path text : String} {d : Disk} {place : List String}
    (resolved : d.resolve path = .ok place) (proper : named place = .ok ())
    (found : Keyed.find? d.files place = some text) :
    (read path d).1 = .ok (String.ofList (Text.unifyNewlines text.toList)) := by
  rw [read, Attempt.run_bind_ok (Attempt.run_get _), resolved, Attempt.ofExcept_bind]
  simp only [proper, Attempt.ofExcept_bind, find_eq_file.mpr found]
  rfl

/-- The text of the file that a path names. -/
def textAt (path : String) (d : Disk) : Option String :=
  match d.resolve path with
  | .ok place => if hasNull place then none else Keyed.find? d.files place
  | .error _ => none

theorem textAt_of_resolve {path : String} {d : Disk} {place : List String}
    (resolved : d.resolve path = .ok place) :
    textAt path d = if hasNull place then none else Keyed.find? d.files place := by
  rw [textAt, resolved]

theorem textAt_congr {d other : Disk} (root : d.root = other.root) (files : d.files = other.files)
    (path : String) : textAt path d = textAt path other := by
  rw [textAt, textAt, resolve_congr root, files]

theorem find?_none {place : List String} {d : Disk} (other : ∀ text, d.find place ≠ .file text) :
    Keyed.find? d.files place = none := by
  cases found : Keyed.find? d.files place with
  | none => rfl
  | some text => exact absurd (find_eq_file.mpr found) (other text)

/-- Looking changes nothing, and what it finds is right. -/
theorem holds_outcome (path : String) (d : Disk) :
    (holds path d).2 = d ∧ ∀ there, (holds path d).1 = .ok there → there = (textAt path d).isSome := by
  rw [holds, Attempt.run_bind_ok (Attempt.run_get _), Attempt.ofExcept_bind, textAt]
  cases d.resolve path with
  | error fault =>
      refine ⟨rfl, ?_⟩
      rintro _ ⟨⟩
  | ok place =>
      simp only
      cases hasNull place with
      | true => exact ⟨rfl, fun there same => (Except.ok.inj same).symm⟩
      | false =>
          simp only [Bool.false_eq_true, if_false]
          cases found : d.find place with
          | file text =>
              rw [find_eq_file.mp found]
              exact ⟨rfl, fun there same => (Except.ok.inj same).symm⟩
          | folder =>
              rw [find?_none (by simp [found])]
              exact ⟨rfl, fun there same => (Except.ok.inj same).symm⟩
          | missing =>
              rw [find?_none (by simp [found])]
              exact ⟨rfl, fun there same => (Except.ok.inj same).symm⟩
          | barred why =>
              rw [find?_none (by simp [found])]
              cases why with
              | tooLong =>
                  refine ⟨rfl, ?_⟩
                  rintro _ ⟨⟩
              | _ => exact ⟨rfl, fun there same => (Except.ok.inj same).symm⟩

/-- What removing does: a file goes, or all stays as it is. -/
theorem remove_outcome (path : String) (d : Disk) :
    (∃ fault, remove path d = (.error fault, d)) ∨
      ∃ place, d.resolve path = .ok place ∧
        remove path d = (.ok (), { d with files := Keyed.erase d.files place }) := by
  rw [remove, Attempt.run_bind_ok (Attempt.run_get _), Attempt.ofExcept_bind]
  cases d.resolve path with
  | error fault => exact .inl ⟨fault, rfl⟩
  | ok place =>
      simp only [Attempt.ofExcept_bind]
      cases named place with
      | error fault => exact .inl ⟨fault, rfl⟩
      | ok _ =>
          simp only
          cases d.find place with
          | file text => exact .inr ⟨place, rfl, rfl⟩
          | missing => exact .inl ⟨_, rfl⟩
          | folder => exact .inl ⟨_, rfl⟩
          | barred why => exact .inl ⟨_, rfl⟩

theorem write_settles (path text : String) :
    Settles (textAt path) (fun _ after => textAt path after = some text) (write path text) := by
  intro d
  obtain ⟨made, _, ⟨⟨fault, failed⟩, _⟩ | ⟨place, admits, written⟩⟩ := write_outcome path text d
  · rw [failed]
    exact textAt_congr rfl rfl path
  · rw [written]
    let after : Disk := { d with folders := d.folders ++ made, files := Keyed.put d.files place text }
    have again : after.resolve path = .ok place := admits.resolved
    show textAt path after = some text
    rw [textAt_of_resolve again, named_eq_ok.mp admits.swaps.proper, if_neg Bool.false_ne_true,
      Keyed.find?_put, if_pos rfl]

theorem holds_settles (path : String) :
    Settles (textAt path) (fun there after => there = (textAt path after).isSome) (holds path) := by
  intro d
  obtain ⟨same, right⟩ := holds_outcome path d
  rcases outcome : holds path d with ⟨fault | there, after⟩
  · rw [outcome] at same
    exact congrArg (textAt path) same
  · rw [outcome] at same right
    obtain rfl : after = d := same
    exact right there rfl

theorem remove_settles (path : String) :
    Settles (textAt path) (fun _ after => textAt path after = none) (remove path) := by
  intro d
  rcases remove_outcome path d with ⟨fault, failed⟩ | ⟨place, resolved, removed⟩
  · rw [failed]
  · rw [removed]
    have again : Disk.resolve { d with files := Keyed.erase d.files place } path = .ok place := resolved
    show textAt path { d with files := Keyed.erase d.files place } = none
    rw [textAt_of_resolve again, Keyed.find?_erase, ite_self]

/-- Files on a disk are kept as any storage keeps what it is given. -/
def contract : FileSystem.Contract Disk where
  textAt := textAt
  write := write_settles
  quiet path d := congrArg (textAt path) (holds_outcome path d).1
  holds := holds_settles
  remove := remove_settles

end

end Disk

theorem FileStore.holds_stays (d : Disk) (path : String) :
    (FileStore.holds (⟨d, path⟩ : FileStore Disk)).2 = ⟨d, path⟩ := by
  rw [holds, Attempt.run_bind_ok (Attempt.run_get _), Attempt.run_rethrow]
  exact congrArg (fun files => (⟨files, path⟩ : FileStore Disk)) (Disk.holds_outcome path d).1

end Lifecycle
