import Lifecycle.Document.Phases
/-!
The newest output of a type that passes a test: it passes, and none that came after it does. -/

namespace Lifecycle

namespace Slot

variable {α : Type} {part : String} {test : α → Except Fault Bool}

/-- What is found passes the test; before it everything was asked, and failed it. -/
theorem find?_eq_some_iff {list : List (Slot α)} {a : α} :
    find? part test list = .ok (some a) ↔
      ∃ before after, list = before ++ .proper a :: after ∧ test a = .ok true ∧
        ∀ s ∈ before, ∃ b, s = .proper b ∧ test b = .ok false := by
  induction list with
  | nil =>
      constructor
      · nofun
      · rintro ⟨before, after, same, _⟩
        cases before <;> cases same
  | cons s rest ih =>
      constructor
      · intro found
        rw [find?] at found
        rcases s with b | v
        · simp only [having, bind, Except.bind] at found
          rcases tested : test b with fault | _ | _
          · rw [tested] at found
            cases found
          · rw [tested] at found
            obtain ⟨before, after, rfl, passes, others⟩ := ih.mp found
            refine ⟨.proper b :: before, after, rfl, passes, ?_⟩
            rintro t (_ | ⟨_, member⟩)
            · exact ⟨b, rfl, tested⟩
            · exact others t member
          · rw [tested] at found
            obtain rfl := Option.some.inj (Except.ok.inj found)
            exact ⟨[], rest, rfl, tested, nofun⟩
        · cases found
      · rintro ⟨before, after, same, passes, others⟩
        cases before with
        | nil =>
            cases same
            simp only [find?, having, bind, Except.bind, passes]
            rfl
        | cons t before =>
            obtain ⟨rfl, rfl⟩ := List.cons.inj same
            obtain ⟨b, rfl, fails⟩ := others _ List.mem_cons_self
            simp only [find?, having, bind, Except.bind, fails]
            exact ih.mpr ⟨before, after, rfl, passes, fun t member =>
              others t (List.mem_cons_of_mem _ member)⟩

theorem find?_ofList (part : String) (test : α → Bool) (list : List α) :
    find? part (fun a => .ok (test a)) (list.map .proper) = .ok (list.find? test) := by
  induction list with
  | nil => rfl
  | cons a rest ih =>
      rw [List.map_cons, find?, List.find?_cons]
      simp only [having, bind, Except.bind]
      cases test a with
      | true => rfl
      | false => exact ih

end Slot

/-- A list in which an artifact is the last of its type that passes a test. -/
structure Artifact.IsNewest (type : String) (test : Artifact → Except Fault Bool)
    (outputs older : List (Slot Artifact)) (a : Artifact) (newer : List (Slot Artifact)) : Prop where
  split : outputs = older ++ .proper a :: newer
  fits : a.type.holds type = true
  passes : test a = .ok true
  last : ∀ s ∈ newer, ∃ b, s = .proper b ∧ (b.type.holds type = true → test b = .ok false)

namespace Artifact.IsNewest

variable {type : String} {test other : Artifact → Except Fault Bool} {outputs older newer :
  List (Slot Artifact)} {a : Artifact}

/-- What is the newest by one test is so by another that it passes, if that refuses no less. -/
theorem mono (newest : IsNewest type test outputs older a newer) (passes : other a = .ok true)
    (refuses : ∀ b, test b = .ok false → other b = .ok false) :
    IsNewest type other outputs older a newer where
  split := newest.split
  fits := newest.fits
  passes := passes
  last s member := by
    obtain ⟨b, rfl, fails⟩ := newest.last s member
    exact ⟨b, rfl, fun same => refuses b (fails same)⟩

variable {before after more : List (Slot Artifact)} {b : Artifact}

/-- What comes after does not matter if it is of another type. -/
theorem append (newest : IsNewest type test outputs older a newer)
    (others : ∀ s ∈ more, ∃ b, s = .proper b ∧ b.type.holds type = false) :
    IsNewest type test (outputs ++ more) older a (newer ++ more) where
  split := by rw [newest.split, List.append_assoc, List.cons_append]
  fits := newest.fits
  passes := newest.passes
  last s member := by
    rcases List.mem_append.mp member with before | added
    · exact newest.last s before
    · obtain ⟨b, rfl, other⟩ := others s added
      refine ⟨b, rfl, fun same => ?_⟩
      rw [other] at same
      cases same

/-- What passes the test does not stand behind the newest that does. -/
theorem length_le (newest : IsNewest type test outputs older a newer)
    (split : outputs = before ++ .proper b :: after) (fits : b.type.holds type = true)
    (passes : test b ≠ .ok false) : before.length ≤ older.length := by
  obtain ⟨middle, rfl, same⟩ | ⟨middle, rfl, _⟩ :=
    List.append_eq_append_iff.mp (newest.split.symm.trans split)
  · cases middle with
    | nil => simp
    | cons s middle =>
        obtain ⟨_, rfl⟩ := List.cons.inj same
        obtain ⟨c, same, refused⟩ := newest.last (.proper b)
          (List.mem_append_right middle List.mem_cons_self)
        cases same
        exact absurd (refused fits) passes
  · simp

/-- Where nothing that passes the test was added, the newest is the same. -/
theorem eq_of_append (newest : IsNewest type test (outputs ++ more) older a newer)
    (old : IsNewest type test outputs before b after)
    (without : ∀ c, Slot.proper c ∈ more → c.type.holds type = true → test c = .ok false) :
    before = older ∧ b = a := by
  have passes : test a ≠ .ok false := by
    rw [newest.passes]
    nofun
  have others : test b ≠ .ok false := by
    rw [old.passes]
    nofun
  have there : outputs ++ more = before ++ .proper b :: (after ++ more) := by
    rw [old.split, List.append_assoc, List.cons_append]
  have first : before.length ≤ older.length := newest.length_le there old.fits others
  obtain ⟨middle, rfl, same⟩ | ⟨middle, split, same⟩ := List.append_eq_append_iff.mp newest.split
  · exact absurd (without a (same ▸ List.mem_append_right middle List.mem_cons_self) newest.fits) passes
  · cases middle with
    | nil =>
        obtain rfl : .proper a :: newer = more := same
        exact absurd (without a List.mem_cons_self newest.fits) passes
    | cons s middle =>
        obtain ⟨rfl, rfl⟩ := List.cons.inj same
        have second : older.length ≤ before.length := old.length_le split newest.fits passes
        obtain ⟨rfl, same⟩ := List.append_inj (old.split.symm.trans split) (by omega)
        cases same
        exact ⟨rfl, rfl⟩

/-- Where something that passes the test was added, the newest is one that was added. -/
theorem length_le_of_append (newest : IsNewest type test (outputs ++ more) older a newer)
    {c : Artifact} (added : Slot.proper c ∈ more) (fits : c.type.holds type = true)
    (passes : test c = .ok true) : outputs.length ≤ older.length := by
  obtain ⟨front, back, rfl⟩ := List.append_of_mem added
  have there : outputs ++ (front ++ .proper c :: back) = (outputs ++ front) ++ .proper c :: back := by
    rw [List.append_assoc]
  have behind := newest.length_le there fits (by
    rw [passes]
    nofun)
  rw [List.length_append] at behind
  omega

end Artifact.IsNewest

namespace Phase

variable {p : Phase} {type : String} {test : Artifact → Except Fault Bool} {a : Artifact}

theorem newestOutput?_proper {outputs : List (Slot Artifact)} (given : p.outputs = .proper outputs) :
    p.newestOutput? type test = .ok (some a) ↔
      ∃ older newer, Artifact.IsNewest type test outputs older a newer := by
  rw [newestOutput?, given]
  simp only [Many.elementsBackward, bind, Except.bind, Slot.find?_eq_some_iff]
  constructor
  · rintro ⟨before, after, same, passes, others⟩
    by_cases fits : a.type.holds type = true
    · rw [if_pos fits] at passes
      refine ⟨after.reverse, before.reverse, ?_, fits, passes, ?_⟩
      · have back := congrArg List.reverse same
        simpa using back
      · intro s member
        obtain ⟨b, rfl, fails⟩ := others s (List.mem_reverse.mp member)
        refine ⟨b, rfl, fun same => ?_⟩
        rw [if_pos same] at fails
        exact fails
    · rw [if_neg fits] at passes
      cases passes
  · rintro ⟨older, newer, newest⟩
    refine ⟨newer.reverse, older.reverse, ?_, ?_, ?_⟩
    · rw [newest.split]
      simp
    · rw [if_pos newest.fits]
      exact newest.passes
    · intro s member
      obtain ⟨b, rfl, fails⟩ := newest.last s (List.mem_reverse.mp member)
      refine ⟨b, rfl, ?_⟩
      by_cases fits : b.type.holds type = true
      · rw [if_pos fits]
        exact fails fits
      · rw [if_neg fits]

/-- In what is no list nothing is found, as every item of it is a stray itself. -/
theorem newestOutput?_stray {v : Value} (given : p.outputs = .stray v) :
    p.newestOutput? type test ≠ .ok (some a) := by
  rw [newestOutput?, given]
  simp only [Many.elementsBackward, bind, Except.bind]
  intro found
  cases items : v.elementsBackward with
  | error fault =>
      rw [items] at found
      cases found
  | ok values =>
      rw [items] at found
      obtain ⟨before, after, same, _⟩ := Slot.find?_eq_some_iff.mp found
      have member : Slot.proper a ∈ before ++ .proper a :: after :=
        List.mem_append_right before List.mem_cons_self
      rw [← same] at member
      obtain ⟨_, _, impossible⟩ := List.mem_map.mp member
      cases impossible

theorem newestOutput?_eq_some_iff :
    p.newestOutput? type test = .ok (some a) ↔
      ∃ outputs older newer, p.outputs = .proper outputs ∧
        Artifact.IsNewest type test outputs older a newer := by
  rcases given : p.outputs with outputs | v
  · rw [newestOutput?_proper given]
    constructor
    · rintro ⟨older, newer, newest⟩
      exact ⟨outputs, older, newer, rfl, newest⟩
    · rintro ⟨_, older, newer, same, newest⟩
      obtain rfl := Slot.proper.inj same
      exact ⟨older, newer, newest⟩
  · constructor
    · exact fun found => absurd found (newestOutput?_stray given)
    · rintro ⟨_, _, _, same, _⟩
      cases same

end Phase

namespace Document

variable {d : Document} {name : String} {p : Phase}

theorem phase_eq_ok_iff : d.phase name = .ok p ↔ d.phase? name = .ok (some p) := by
  rw [phase]
  rcases d.phase? name with fault | _ | q
  · constructor <;> nofun
  · constructor <;> nofun
  · constructor
    · intro same
      cases same
      rfl
    · intro same
      cases same
      rfl

theorem askPhase_of_phase {α : Type} (there : d.phase name = .ok p) (missing : α)
    (question : Phase → Except Fault α) : d.askPhase name missing question = question p := by
  rw [askPhase, phase_eq_ok_iff.mp there]
  rfl

/-- Where a question that is answered with none for the lack of a phase finds something, there is a
phase. -/
theorem phase_of_askPhase {α : Type} {question : Phase → Except Fault (Option α)} {a : α}
    (found : d.askPhase name none question = .ok (some a)) :
    ∃ p, d.phase name = .ok p ∧ question p = .ok (some a) := by
  rw [askPhase] at found
  rcases there : d.phase? name with fault | _ | p
  · rw [there] at found
    cases found
  · rw [there] at found
    cases found
  · rw [there] at found
    exact ⟨p, phase_eq_ok_iff.mpr there, found⟩

end Document

end Lifecycle
