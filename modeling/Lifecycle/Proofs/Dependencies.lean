import Lifecycle.Proofs.Drafts
import Lifecycle.Types.Dependencies
import Mathlib.Data.List.Basic
import Mathlib.Logic.Function.Iterate
import Mathlib.Logic.Relation
/-!
What a search through dependencies comes to. It ends, and it has come back onto its trail exactly if
something depends on itself; otherwise it leaves all names in an order in which dependencies come
first. -/

namespace Lifecycle

open Relation (ReflTransGen TransGen)

/-- One name is among those that another depends on. -/
def DependsOn (g : Dependencies) (name next : String) : Prop := next ∈ g.of name

namespace Search

variable {g : Dependencies} {names done : List String} {s : Search}

/-- What holds along a trail. What a name depends on is yet to be looked at or done with, but for the name
that was followed from it, which stands above it. -/
inductive Trail (g : Dependencies) (done : List String) :
    Option String → List (String × List String) → Prop where
  | nil {above : Option String} : Trail g done above []
  | cons {above : Option String} {name : String} {later : List String}
      {rest : List (String × List String)} (new : name ∉ done) (off : name ∉ rest.map (·.1))
      (follows : ∀ next ∈ above, DependsOn g name next)
      (inside : ∀ next ∈ later, DependsOn g name next)
      (looked : ∀ next, DependsOn g name next → next ∈ later ∨ next ∈ done ∨ next ∈ above)
      (below : Trail g done (some name) rest) : Trail g done above ((name, later) :: rest)

namespace Trail

variable {above : Option String} {name : String} {later : List String}
  {rest : List (String × List String)}

/-- Every name on a trail leads to the first one. -/
theorem leads (trail : Trail g done above ((name, later) :: rest)) :
    ∀ other ∈ name :: rest.map (·.1), ReflTransGen (DependsOn g) other name := by
  induction rest generalizing above name later with
  | nil =>
      intro other member
      rw [List.mem_singleton.mp member]
  | cons entry rest ih =>
      cases trail with | cons _ _ _ _ _ below =>
      intro other member
      rcases List.mem_cons.mp member with rfl | further
      · exact .refl
      · have reaches := ih below other further
        cases below with | cons _ _ follows _ _ _ => exact reaches.tail (follows name rfl)

theorem grow (trail : Trail g done above rest) (off : name ∉ rest.map (·.1)) :
    Trail g (done ++ [name]) above rest := by
  induction trail with
  | nil => exact .nil
  | @cons above other later rest new apart follows inside looked below ih =>
      obtain ⟨different, off⟩ := not_or.mp (mt List.mem_cons.mpr off)
      refine .cons ?_ apart follows inside ?_ (ih off)
      · simpa using ⟨new, Ne.symm different⟩
      · intro next depends
        rcases looked next depends with ahead | known | here
        · exact .inl ahead
        · exact .inr (.inl (List.mem_append_left _ known))
        · exact .inr (.inr here)

/-- When the first name of a trail is left, the one below it has that name behind it. -/
theorem leave (trail : Trail g done (some name) rest) (off : name ∉ rest.map (·.1)) :
    Trail g (done ++ [name]) none rest := by
  have grown := trail.grow off
  cases grown with
  | nil => exact .nil
  | cons new apart _ inside looked below =>
      refine .cons new apart nofun inside (fun next depends => ?_) below
      rcases looked next depends with ahead | known | here
      · exact .inl ahead
      · exact .inr (.inl known)
      · obtain rfl := Option.some.inj here
        exact .inr (.inl (List.mem_append_right _ List.mem_cons_self))

/-- A name comes onto a trail with all of its dependencies yet to be looked at. -/
theorem enter (new : name ∉ done) (off : name ∉ rest.map (·.1))
    (below : Trail g done (some name) rest) : Trail g done none ((name, g.of name) :: rest) :=
  .cons new off nofun (fun _ depends => depends) (fun _ depends => .inl depends) below

/-- A dependency that was looked at is done with or has been followed. -/
theorem look {next : String} (trail : Trail g done none ((name, next :: later) :: rest))
    (found : above = none ∧ next ∈ done ∨ above = some next) :
    Trail g done above ((name, later) :: rest) := by
  cases trail with | cons new off _ inside looked below =>
  refine .cons new off (fun other followed => ?_)
    (fun other ahead => inside other (List.mem_cons_of_mem _ ahead)) (fun other depends => ?_) below
  · rcases found with ⟨rfl, _⟩ | rfl
    · cases followed
    · obtain rfl := Option.some.inj followed
      exact inside _ List.mem_cons_self
  · rcases looked other depends with ahead | known | above
    · rcases List.mem_cons.mp ahead with rfl | ahead
      · exact .inr (found.imp And.right id)
      · exact .inl ahead
    · exact .inr (.inl known)
    · cases above

end Trail

/-- What holds between the rounds of a search that began with some names. -/
structure Sound (g : Dependencies) (names : List String) (s : Search) : Prop where
  known : ∀ name ∈ names, name ∈ s.waiting ∨ name ∈ s.onTrail ∨ name ∈ s.done
  trail : Trail g s.done none s.trail
  ordered : ∀ name ∈ s.done, ∀ next, DependsOn g name next →
    s.done.idxOf next < s.done.idxOf name
  circle : s.circular = true → ∃ name, TransGen (DependsOn g) name name

theorem start_sound (g : Dependencies) (names : List String) : (start names).Sound g names where
  known _ member := .inl member
  trail := .nil
  ordered _ member := absurd member List.not_mem_nil
  circle := nofun

/-- A name that is left when all that it depends on is done with comes after that. -/
theorem ordered_leave {name : String} (new : name ∉ done)
    (settled : ∀ next, DependsOn g name next → next ∈ done)
    (ordered : ∀ name ∈ done, ∀ next, DependsOn g name next → done.idxOf next < done.idxOf name) :
    ∀ other ∈ done ++ [name], ∀ next, DependsOn g other next →
      (done ++ [name]).idxOf next < (done ++ [name]).idxOf other := by
  intro other member next depends
  rcases List.mem_append.mp member with before | last
  · have less := ordered other before next depends
    have known : next ∈ done :=
      List.idxOf_lt_length_iff.mp (Nat.lt_of_lt_of_le less List.idxOf_le_length)
    rw [List.idxOf_append_of_mem known, List.idxOf_append_of_mem before]
    exact less
  · obtain rfl := List.mem_singleton.mp last
    have known := settled next depends
    rw [List.idxOf_append_of_mem known, List.idxOf_append_of_notMem new]
    exact Nat.lt_of_lt_of_le (List.idxOf_lt_length_of_mem known) (Nat.le_add_right _ _)

theorem Sound.step (sound : s.Sound g names) (goes : s.isOver = false) : (s.step g).Sound g names := by
  have round := step_round g goes
  generalize s.step g = after at round
  cases round with
  | skip already =>
      refine ⟨fun name member => ?_, sound.trail, sound.ordered, nofun⟩
      rcases sound.known name member with waits | on | known
      · rcases List.mem_cons.mp waits with rfl | waits
        · exact .inr (.inr already)
        · exact .inl waits
      · exact .inr (.inl on)
      · exact .inr (.inr known)
  | begin new =>
      refine ⟨fun name member => ?_, ?_, sound.ordered, nofun⟩
      · rcases sound.known name member with waits | on | known
        · rcases List.mem_cons.mp waits with rfl | waits
          · exact .inr (.inl List.mem_cons_self)
          · exact .inl waits
        · exact absurd on List.not_mem_nil
        · exact .inr (.inr known)
      · exact .enter new List.not_mem_nil .nil
  | leave =>
      cases sound.trail with | cons new off _ _ looked below =>
      refine ⟨fun other member => ?_, below.leave off, ?_, nofun⟩
      · rcases sound.known other member with waits | on | known
        · exact .inl waits
        · rcases List.mem_cons.mp on with rfl | on
          · exact .inr (.inr (List.mem_append_right _ List.mem_cons_self))
          · exact .inr (.inl on)
        · exact .inr (.inr (List.mem_append_left _ known))
      · refine ordered_leave new (fun next depends => ?_) sound.ordered
        simpa using looked next depends
  | @close name next waiting later done rest back =>
      refine ⟨sound.known, sound.trail, sound.ordered, fun _ => ⟨next, ?_⟩⟩
      refine .tail' (sound.trail.leads _ back) ?_
      cases sound.trail with | cons _ _ _ inside _ _ => exact inside _ List.mem_cons_self
  | pass already =>
      exact ⟨sound.known, sound.trail.look (.inl ⟨rfl, already⟩), sound.ordered, nofun⟩
  | follow off new =>
      refine ⟨fun name member => ?_, ?_, sound.ordered, nofun⟩
      · rcases sound.known name member with waits | on | known
        · exact .inl waits
        · exact .inr (.inl (List.mem_cons_of_mem _ on))
        · exact .inr (.inr known)
      · exact .enter new off (sound.trail.look (.inr rfl))

theorem Sound.finish (sound : s.Sound g names) : (s.finish g).Sound g names := by
  induction s using finish.induct g with
  | case1 s ended =>
      rw [Search.finish, if_pos ended]
      exact sound
  | case2 s goes ih =>
      rw [Search.finish, if_neg goes]
      exact ih (sound.step (eq_false_of_ne_true goes))

/-- After finitely many rounds a search is over, whatever depends on what, and those rounds are what a
search is. -/
theorem finish_ends (g : Dependencies) (s : Search) :
    ∃ rounds ≤ s.ahead g, ((step g)^[rounds] s).isOver = true ∧
      s.finish g = (step g)^[rounds] s := by
  induction s using finish.induct g with
  | case1 s ended =>
      rw [finish, if_pos ended]
      exact ⟨0, Nat.zero_le _, ended, rfl⟩
  | case2 s goes ih =>
      rw [finish, if_neg goes]
      have ⟨rounds, few, ended, same⟩ := ih
      exact ⟨rounds + 1, Nat.lt_of_le_of_lt few (ahead_step g (eq_false_of_ne_true goes)), ended, same⟩

/-- A search that is over and has not come back onto its trail is done with all names. -/
theorem Sound.mem_done (sound : s.Sound g names) (ended : s.isOver = true)
    (straight : s.circular = false) {name : String} (member : name ∈ names) : name ∈ s.done := by
  obtain ⟨trail, waiting, done, circular⟩ := s
  obtain rfl : circular = false := straight
  obtain ⟨noTrail, noneWaits⟩ := Bool.and_eq_true_iff.mp ended
  obtain rfl := List.isEmpty_iff.mp noTrail
  obtain rfl := List.isEmpty_iff.mp noneWaits
  rcases sound.known name member with waits | on | known
  · cases waits
  · cases on
  · exact known

theorem Sound.idxOf_lt (sound : s.Sound g names) {name next : String} (known : name ∈ s.done)
    (depends : TransGen (DependsOn g) name next) : s.done.idxOf next < s.done.idxOf name := by
  induction depends with
  | single depends => exact sound.ordered name known _ depends
  | tail _ depends ih =>
      have before := List.idxOf_lt_length_iff.mp (Nat.lt_of_lt_of_le ih List.idxOf_le_length)
      exact (sound.ordered _ before _ depends).trans ih

theorem isOver_finish (g : Dependencies) (s : Search) : (s.finish g).isOver = true := by
  obtain ⟨_, _, ended, same⟩ := finish_ends g s
  rw [same]
  exact ended

/-- What depends on something has an entry. -/
theorem mem_keys_of_dependsOn {name next : String} (depends : DependsOn g name next) :
    name ∈ Keyed.keys g := by
  rw [← Keyed.has_iff, Keyed.has]
  rw [DependsOn, Dependencies.of] at depends
  cases found : Keyed.find? g name with
  | some after => rfl
  | none =>
      rw [found] at depends
      cases depends

/-- A search through everything comes back onto its trail exactly if something depends on itself. -/
theorem circular_finish_iff (g : Dependencies) :
    ((start (Keyed.keys g)).finish g).circular = true ↔
      ∃ name, TransGen (DependsOn g) name name := by
  have sound := (start_sound g (Keyed.keys g)).finish
  constructor
  · exact sound.circle
  · rintro ⟨name, circle⟩
    obtain ⟨next, depends, _⟩ := TransGen.head'_iff.mp circle
    by_contra straight
    have known := sound.mem_done (isOver_finish g _) (eq_false_of_ne_true straight)
      (mem_keys_of_dependsOn depends)
    exact lt_irrefl _ (sound.idxOf_lt known circle)

/-- A search through everything that did not come back onto its trail has everything in an order in which
dependencies come first. -/
theorem finish_ordered (straight : ((start (Keyed.keys g)).finish g).circular = false) :
    (∀ name ∈ Keyed.keys g, name ∈ ((start (Keyed.keys g)).finish g).done) ∧
      ∀ name next, DependsOn g name next →
        ((start (Keyed.keys g)).finish g).done.idxOf next <
          ((start (Keyed.keys g)).finish g).done.idxOf name := by
  have sound := (start_sound g (Keyed.keys g)).finish
  have known name (member : name ∈ Keyed.keys g) :=
    sound.mem_done (isOver_finish g _) straight member
  exact ⟨known, fun name next depends =>
    sound.ordered name (known name (mem_keys_of_dependsOn depends)) next depends⟩

end Search

end Lifecycle
