import Lifecycle.Proofs.Schema
import Lifecycle.Text.Order
import Mathlib.Data.List.Forall2
import Mathlib.Data.List.Perm.Basic
/-!
In whose words the problems of a value are told. Of the schemas that allow the same the one that was
checked against first speaks for all of them, whatever is checked later. What it says and what the others
would have said differ in the order in which alternatives are listed, and in nothing else. -/

namespace Lifecycle

namespace Text

theorem foldl_distinct (names seen : List String) (fresh : seen.Nodup) :
    let found := names.foldl (fun seen name => if name ∈ seen then seen else seen ++ [name]) seen
    found.Nodup ∧ ∀ s, s ∈ found ↔ s ∈ seen ∨ s ∈ names := by
  induction names generalizing seen with
  | nil => exact ⟨fresh, fun s => by simp⟩
  | cons name rest ih =>
      rw [List.foldl_cons]
      by_cases known : name ∈ seen
      · rw [if_pos known]
        obtain ⟨nodup, members⟩ := ih seen fresh
        refine ⟨nodup, fun s => (members s).trans ?_⟩
        rw [List.mem_cons]
        constructor
        · exact Or.imp_right Or.inr
        · rintro (before | rfl | later)
          · exact .inl before
          · exact .inl known
          · exact .inr later
      · rw [if_neg known]
        have more : (seen ++ [name]).Nodup :=
          List.nodup_append.mpr ⟨fresh, List.pairwise_singleton _ name, by
            intro a before b here same
            rw [List.mem_singleton.mp here] at same
            exact known (same ▸ before)⟩
        obtain ⟨nodup, members⟩ := ih _ more
        refine ⟨nodup, fun s => (members s).trans ?_⟩
        rw [List.mem_append, List.mem_singleton, List.mem_cons, or_assoc]

/-- What lists the same texts lists them once each, in whatever order. -/
theorem distinct_perm {names others : List String} (same : ∀ s, s ∈ names ↔ s ∈ others) :
    (distinct names).Perm (distinct others) := by
  obtain ⟨nodup, members⟩ := foldl_distinct names [] List.nodup_nil
  obtain ⟨others_nodup, others_members⟩ := foldl_distinct others [] List.nodup_nil
  apply (List.perm_ext_iff_of_nodup nodup others_nodup).mpr
  intro s
  rw [members, others_members, same]

end Text

namespace Problem

/-- Problems that are the same but for the order of the alternatives that they list. -/
inductive Alike : Problem → Problem → Prop
  | same (p : Problem) : Alike p p
  | reordered (path : List String) {names others : List String} (same : names.Perm others) :
      Alike ⟨path, .notListed names⟩ ⟨path, .notListed others⟩

theorem Alike.under {p q : Problem} (alike : p.Alike q) (step : String) :
    (p.under step).Alike (q.under step) := by
  cases alike with
  | same => exact .same _
  | reordered path same => exact .reordered (step :: path) same

theorem alike_refl (problems : List Problem) : List.Forall₂ Alike problems problems :=
  List.forall₂_same.mpr fun p _ => .same p

theorem alike_under {problems others : List Problem} (alike : List.Forall₂ Alike problems others)
    (step : String) : List.Forall₂ Alike (problems.map (under step)) (others.map (under step)) := by
  rw [List.forall₂_map_left_iff, List.forall₂_map_right_iff]
  exact alike.imp fun _ _ alike => alike.under step

theorem alike_items {f g : Nat → Value → List Problem}
    (each : ∀ n v, List.Forall₂ Alike (f n v) (g n v)) (items : List Value) :
    List.Forall₂ Alike (items.mapIdx f).flatten (items.mapIdx g).flatten := by
  induction items generalizing f g with
  | nil => exact .nil
  | cons v rest ih =>
      rw [List.mapIdx_cons, List.mapIdx_cons, List.flatten_cons, List.flatten_cons]
      exact List.rel_append (each 0 v) (ih fun n => each (n + 1))

theorem alike_entries {f g : String × Value → List Problem}
    (each : ∀ entry, List.Forall₂ Alike (f entry) (g entry)) (entries : List (String × Value)) :
    List.Forall₂ Alike (entries.flatMap f) (entries.flatMap g) := by
  induction entries with
  | nil => exact .nil
  | cons entry rest ih =>
      rw [List.flatMap_cons, List.flatMap_cons]
      exact List.rel_append (each entry) ih

end Problem

namespace Shape

/-- Shapes that agree agree with the same shapes. -/
theorem agrees_congr {s other : Shape} (same : s.agrees other = true) : s.agrees = other.agrees := by
  apply agrees_induction (motive := fun s other => s.agrees = other.agrees) _ _ _ _ _ same
  · exact fun s => rfl
  · intro names others members
    funext third
    cases third with
    | choice more =>
        rw [agrees, agrees, Bool.eq_iff_iff, Bool.and_eq_true_iff, Bool.and_eq_true_iff]
        simp only [List.all_eq_true, List.contains_iff_mem, members]
    | _ => simp [agrees]
  · intro s other ih
    funext third
    cases third with
    | optional third => exact congrFun ih third
    | _ => simp [agrees]
  · intro s other ih
    funext third
    cases third with
    | list third => exact congrFun ih third
    | _ => simp [agrees]
  · intro s other ih
    funext third
    cases third with
    | map third => exact congrFun ih third
    | _ => simp [agrees]

/-- Shapes that agree find the same problems. -/
theorem check_alike {s other : Shape} (same : s.agrees other = true) :
    ∀ v, List.Forall₂ Problem.Alike (s.check v) (other.check v) := by
  apply agrees_induction
    (motive := fun s other => ∀ v, List.Forall₂ Problem.Alike (s.check v) (other.check v)) _ _ _ _ _ same
  · exact fun s v => Problem.alike_refl _
  · intro names others members v
    have unlisted : List.Forall₂ Problem.Alike (misfit (.notListed ((Text.distinct names).map Text.quoted)))
        (misfit (.notListed ((Text.distinct others).map Text.quoted))) :=
      .cons (.reordered [] ((Text.distinct_perm members).map _)) .nil
    cases v with
    | text s =>
        rw [check, check]
        by_cases listed : s ∈ names
        · rw [if_pos listed, if_pos ((members s).mp listed)]
          exact .nil
        · rw [if_neg listed, if_neg fun there => listed ((members s).mpr there)]
          exact unlisted
    | _ => exact unlisted
  · intro s other ih v
    cases v with
    | null => exact .nil
    | _ => exact ih _
  · intro s other ih v
    cases v with
    | list items => exact Problem.alike_items (fun n w => Problem.alike_under (ih w) (toString n)) items
    | _ => exact Problem.alike_refl _
  · intro s other ih v
    cases v with
    | map entries =>
        exact Problem.alike_entries (fun entry => Problem.alike_under (ih entry.2) entry.1) entries
    | _ => exact Problem.alike_refl _

end Shape

namespace Schema

theorem agrees_congr {s other : Schema} (same : s.agrees other = true) : s.agrees = other.agrees := by
  rcases agrees_cases same with rfl | ⟨inner, others, rfl, rfl, same⟩
  · rfl
  · funext third
    cases third with
    | shape third => exact congrFun (Shape.agrees_congr same) third
    | _ => simp [agrees]

theorem problems_alike {s other : Schema} (same : s.agrees other = true) (v : Value) :
    List.Forall₂ Problem.Alike (s.problems v) (other.problems v) := by
  rcases agrees_cases same with rfl | ⟨inner, others, rfl, rfl, same⟩
  · exact Problem.alike_refl _
  · exact Shape.check_alike same v

/-- Whoever speaks for a schema says the same. -/
theorem speaker_alike (known others : Checkers) (s : Schema) (v : Value) :
    List.Forall₂ Problem.Alike ((s.speaker known).problems v) ((s.speaker others).problems v) := by
  apply problems_alike
  rw [← agrees_congr (s.agrees_speaker known)]
  exact s.agrees_speaker others

/-- A schema speaks for itself unless one that is written otherwise and allows the same is known. -/
theorem speaker_self {known : Checkers} {s : Schema}
    (alone : ∀ other ∈ known, s.agrees other = true → other = s) : s.speaker known = s := by
  rw [speaker]
  cases found : known.find? s.agrees with
  | none => rfl
  | some checker => exact alone checker (List.mem_of_find?_eq_some found) (List.find?_some found)

theorem speaker_learnt (known : Checkers) (s : Schema) : s.speaker (s.learnt known) = s.speaker known := by
  rw [learnt]
  split
  · rfl
  · next unheard =>
      rw [speaker, List.find?_cons_of_pos s.agrees_refl, speaker, unheard]
      rfl

/-- What speaks for the schemas that were checked against goes on to, whatever else is known later. -/
def Stays (known later : Checkers) : Prop :=
  ∀ s checker : Schema, known.find? s.agrees = some checker → later.find? s.agrees = some checker

theorem Stays.trans {known later last : Checkers} (first : Stays known later) (second : Stays later last) :
    Stays known last := fun s checker heard => second s checker (first s checker heard)

theorem stays_learnt (known : Checkers) (s : Schema) : Stays known (s.learnt known) := by
  intro other checker heard
  rw [learnt]
  split
  · exact heard
  · next unheard =>
      -- Had the two agreed, who speaks for the one would have spoken for the new one too.
      have apart : ¬other.agrees s = true := by
        intro same
        rw [agrees_congr same, unheard] at heard
        cases heard
      rw [List.find?_cons_of_neg apart, heard]

/-- A schema that was checked against has found its speaker. -/
theorem speaker_stays {known later : Checkers} (s : Schema) (stays : Stays (s.learnt known) later) :
    s.speaker later = s.speaker known := by
  have heard : ∃ checker, (s.learnt known).find? s.agrees = some checker := by
    rw [learnt]
    split
    · next checker heard => exact ⟨checker, heard⟩
    · exact ⟨s, List.find?_cons_of_pos s.agrees_refl⟩
  obtain ⟨checker, heard⟩ := heard
  rw [← s.speaker_learnt known, speaker, stays s checker heard, speaker, heard]

end Schema

end Lifecycle
