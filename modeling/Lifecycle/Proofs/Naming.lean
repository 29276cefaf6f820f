import Lifecycle.Proofs.Lawful
import Lifecycle.Proofs.Words
import Lifecycle.Types.BuiltIn
/-!
Names derived for new projects. A description with a word in it gives a name that no document is faulted
for, and one without gives no project. -/

namespace Lifecycle

namespace Reading

variable {α : Type} {source : List (String × Value)} {name : String} {p : Problem}

theorem under_head {r : Reading α} (found : p ∈ (under name r).problems) : p.path.head? = some name := by
  obtain ⟨inner, _, rfl⟩ := List.mem_map.mp found
  rfl

/-- Every problem of a field leads to that field. -/
theorem field_head {read : Value → Reading α} (found : p ∈ (field source name read).problems) :
    p.path.head? = some name := by
  unfold field at found
  split at found
  · exact under_head found
  · exact under_head found

theorem fieldOr_head {default : α} {read : Value → Reading α}
    (found : p ∈ (fieldOr source name default read).problems) : p.path.head? = some name := by
  unfold fieldOr at found
  split at found
  · exact under_head found
  · cases found

end Reading

open Reading

namespace Document

/-- The problems of a document that lead to its name are those of the name. -/
theorem mem_name_problems {time : Timestamp} {source : List (String × Value)} {p : Problem}
    (found : p ∈ (read time (.map source)).problems) (leads : p.path.head? = some "name") :
    p ∈ (field source "name" projectName).problems := by
  have apart {other : String} (there : p.path.head? = some other) (different : other ≠ "name") : False :=
    different (Option.some.inj (there.symm.trans leads))
  rw [read, record] at found
  simp only [problems_seq, problems_map, List.mem_append] at found
  rcases found with (((((((found | found) | found) | found) | found) | found) | found) | found) | found
  · exact found
  · exact (apart (field_head found) (by decide)).elim
  · exact (apart (fieldOr_head found) (by decide)).elim
  · exact (apart (fieldOr_head found) (by decide)).elim
  · exact (apart (fieldOr_head found) (by decide)).elim
  · exact (apart (fieldOr_head found) (by decide)).elim
  · exact (apart (fieldOr_head found) (by decide)).elim
  · exact (apart (field_head found) (by decide)).elim
  · exact (apart (fieldOr_head found) (by decide)).elim

/-- Data that give a name are not faulted for it. -/
theorem problems_elsewhere {name : String} (fits : Text.isName name = true) (time : Timestamp)
    {source : List (String × Value)} (called : Keyed.find? source "name" = some (.text name)) :
    ∀ p ∈ (read time (.map source)).problems, p.path.head? ≠ some "name" := by
  intro p found leads
  have none := (field_nil_iff called projectName).mpr (projectName_nil fits)
  exact List.not_mem_nil (none ▸ mem_name_problems found leads)

end Document

namespace Request

variable {r : Request}

theorem projectName_derived (unnamed : given r.name = none) (named : Text.slug r.description ≠ "") :
    r.projectName = .ok (Text.slug r.description) := by
  rw [projectName, unnamed]
  exact if_neg named

theorem projectName_underivable (unnamed : given r.name = none) (empty : Text.slug r.description = "") :
    r.projectName = .error (.invalid ⟨none,
      s!"cannot derive a project name from description {Text.quoted r.description}"⟩) := by
  rw [projectName, unnamed]
  exact if_pos empty

/-- Where a draft with a fitting name is refused, it is not for the name. -/
theorem draftDocument_elsewhere {name initial : String} {now : Timestamp} {problems : List Problem}
    (fits : Text.isName name = true)
    (refused : r.draftDocument now name initial = .error (.malformed problems)) :
    ∀ p ∈ problems, p.path.head? ≠ some "name" := by
  rw [draftDocument] at refused
  split at refused
  · exact nomatch refused
  · obtain rfl := Fault.malformed.inj (Except.error.inj refused)
    exact Document.problems_elsewhere fits _ rfl

end Request

section

variable {σ : Type} [Backend σ] (registry : Registry) (now : Timestamp) (r : Request)

theorem Project.create_unnamed {b : Blueprint} {fault : Fault} (registered : registry.get r.typeName = .ok b)
    (nameless : r.projectName = .error fault) (archive : Archive σ) :
    create registry now r archive = (.error fault, archive) := by
  have none : Project.new registry now r = .error fault := by
    rw [Project.new, registered]
    change (r.projectName >>= _) = _
    rw [nameless]
    rfl
  rw [create, Attempt.ofExcept_bind, none]

/-- A project for which no name is asked is called by the words of its description, whatever the rest of the
description becomes in lower case. With any word that makes a name, and nothing is wrong with the name of a
document that has it; without one the name would be empty, and neither is a project made nor anything
stored. -/
theorem Request.named_by_words {lower : Char → List Char} (lowers : Text.Lowers lower)
    (archive : Archive σ) :
    let words := Text.words (Text.beginning lower r.description)
    let name := Text.slug r.description
    Text.Runs (Text.beginning lower r.description) words ∧
      name = "-".intercalate (words.map String.ofList) ∧
      (name = "" ↔ words = []) ∧
      (words = [] → ∀ b, registry.get r.typeName = .ok b → given r.name = none →
        Project.create registry now r archive =
          (.error (.invalid ⟨none,
            s!"cannot derive a project name from description {Text.quoted r.description}"⟩), archive)) ∧
      (words ≠ [] → Text.isName name = true ∧
        (∀ time source, Keyed.find? source "name" = some (.text name) →
          ∀ p ∈ (Document.read time (.map source)).problems, p.path.head? ≠ some "name") ∧
        (given r.name = none → r.projectName = .ok name ∧
          ∀ initial problems, r.draftDocument now name initial = .error (.malformed problems) →
            ∀ p ∈ problems, p.path.head? ≠ some "name")) := by
  intro words name
  have empty : name = "" ↔ words = [] := Text.slug_eq_empty_iff lowers r.description
  refine ⟨Text.runs_words _, Text.slug_eq_words lowers r.description, empty, ?_, ?_⟩
  · intro wordless b registered unnamed
    exact Project.create_unnamed registry now r registered
      (projectName_underivable unnamed (empty.mpr wordless)) archive
  · intro some
    have nonempty : name ≠ "" := fun none => some (empty.mp none)
    have fits : Text.isName name = true := Text.isName_slug r.description nonempty
    refine ⟨fits, fun time source called => Document.problems_elsewhere fits time called, ?_⟩
    exact fun unnamed => ⟨projectName_derived unnamed nonempty, fun _ _ => draftDocument_elsewhere fits⟩

end

/-- Lower case with an umlaut, which belongs to no word in either case. -/
def Text.umlauts (c : Char) : List Char := if c = 'Ü' then ['ü'] else lowerCase c

theorem Text.lowers_umlauts : Lowers umlauts := by
  intro c
  by_cases capital : c = 'Ü'
  · subst capital
    refine .inr ⟨List.cons_ne_nil _ _, ?_⟩
    have both : umlauts 'Ü' ++ lowerCase 'Ü' = ['ü', 'Ü'] := by decide
    rw [both, List.forall_mem_cons, List.forall_mem_singleton]
    decide
  · exact .inl (if_neg capital)

theorem Request.named_by_words_umlauts :
    Text.words (Text.beginning Text.umlauts "Über café") = [['b', 'e', 'r'], ['c', 'a', 'f']] ∧
      Text.slug "Über café" = "ber-caf" ∧ Text.isName "ber-caf" = true ∧
      Project.create Registry.builtIn (.ofSeconds 0 0 none) { description := "Ü?" }
          (⟨⟨none, 0⟩, []⟩ : Archive MemoryStore) =
        (.error (.invalid ⟨none, "cannot derive a project name from description 'Ü?'"⟩),
          ⟨⟨none, 0⟩, []⟩) := by
  have split : Text.words (Text.beginning Text.umlauts "Über café") = [['b', 'e', 'r'], ['c', 'a', 'f']] := by
    decide +kernel
  have wordless : Text.words (Text.beginning Text.umlauts "Ü?") = [] := by decide +kernel
  have message : "cannot derive a project name from description " ++ Text.quoted "Ü?" =
      "cannot derive a project name from description 'Ü?'" := by decide +kernel
  obtain ⟨_, joined, _, _, fits⟩ :=
    named_by_words Registry.builtIn (.ofSeconds 0 0 none) { description := "Über café" }
      Text.lowers_umlauts (⟨⟨none, 0⟩, []⟩ : Archive MemoryStore)
  obtain ⟨_, _, _, refused, _⟩ :=
    named_by_words Registry.builtIn (.ofSeconds 0 0 none) { description := "Ü?" }
      Text.lowers_umlauts (⟨⟨none, 0⟩, []⟩ : Archive MemoryStore)
  have called : Text.slug "Über café" = "ber-caf" := by
    rw [joined, split]
    decide +kernel
  refine ⟨split, called, ?_, ?_⟩
  · exact called ▸ (fits (by rw [split]; exact List.cons_ne_nil _ _)).1
  · rw [← message]
    exact refused wordless Standard.blueprint rfl rfl

end Lifecycle
