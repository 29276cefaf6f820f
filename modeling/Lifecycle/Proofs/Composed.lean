import Lifecycle.Prompt
import Mathlib.Data.List.DropRight
/-!
Compositions of compositions. What is composed of parts that were composed themselves reads as if all their
sections had been written at once, exactly if none of the parts loses newlines at its end: the last section
of a part that holds anything must not consist of newlines, unless it is the only one. -/

namespace Lifecycle

namespace Text

theorem toList_trimNewlines (text : String) :
    (trimNewlines text).toList = text.toList.rdropWhile (· = '\n') :=
  String.toList_ofList

theorem trimNewlines_eq_self_iff {text : String} :
    trimNewlines text = text ↔ text.toList.getLast? ≠ some '\n' := by
  rw [← String.toList_inj, toList_trimNewlines, List.rdropWhile_eq_self_iff]
  cases shape : text.toList using List.reverseRecOn with
  | nil => simp
  | append_singleton before last => simp

theorem trimNewlines_newline (text : String) : trimNewlines (text ++ "\n") = trimNewlines text := by
  rw [← String.toList_inj, toList_trimNewlines, toList_trimNewlines, String.toList_append]
  exact List.rdropWhile_concat_pos _ _ _ rfl

theorem trimNewlines_trimNewlines (text : String) :
    trimNewlines (trimNewlines text) = trimNewlines text := by
  rw [← String.toList_inj, toList_trimNewlines, toList_trimNewlines, List.rdropWhile_idempotent]

theorem length_trimNewlines_le (text : String) : (trimNewlines text).length ≤ text.length := by
  rw [← String.length_toList, ← String.length_toList, toList_trimNewlines]
  exact (List.rdropWhile_prefix _ _).length_le

/-- What keeps its length when it is trimmed is not changed. -/
theorem trimNewlines_of_length {text : String} (kept : (trimNewlines text).length = text.length) :
    trimNewlines text = text := by
  rw [← String.length_toList, ← String.length_toList, toList_trimNewlines] at kept
  rw [← String.toList_inj, toList_trimNewlines]
  exact (List.rdropWhile_prefix _ _).eq_of_length kept

end Text

/-- Joined texts are no longer than joined texts that are as long each, and as long only if each of them
is. -/
theorem length_intercalate_map {α : Type} {short long : α → String}
    (below : ∀ a, (short a).length ≤ (long a).length) (separator : String) (list : List α) :
    (separator.intercalate (list.map short)).length ≤ (separator.intercalate (list.map long)).length ∧
      ((separator.intercalate (list.map short)).length =
          (separator.intercalate (list.map long)).length →
        ∀ a ∈ list, (short a).length = (long a).length) := by
  induction list with
  | nil => simp
  | cons a rest ih =>
      have here := below a
      cases rest with
      | nil => simpa using here
      | cons b others =>
          simp only [List.map_cons, String.intercalate_cons_cons, String.length_append] at ih ⊢
          refine ⟨by omega, fun same => List.forall_mem_cons.mpr ⟨by omega, ih.2 (by omega)⟩⟩

/-- Joining groups of texts that are joined themselves; groups without texts do not show. -/
theorem intercalate_flatten (separator : String) (groups : List (List String)) :
    separator.intercalate groups.flatten =
      separator.intercalate ((groups.filter (· ≠ [])).map separator.intercalate) := by
  induction groups with
  | nil => rfl
  | cons group rest ih =>
      rw [List.flatten_cons]
      by_cases empty : group = []
      · rw [empty, List.nil_append, ih, List.filter_cons_of_neg (by simp)]
      · rw [List.filter_cons_of_pos (by simpa using empty), List.map_cons]
        by_cases others : rest.flatten = []
        · have none : rest.filter (· ≠ []) = [] := by
            rw [List.filter_eq_nil_iff]
            intro other member
            simpa using List.flatten_eq_nil_iff.mp others other member
          rw [others, none, List.append_nil, List.map_nil, String.intercalate_singleton]
        · have some : (rest.filter (· ≠ [])).map separator.intercalate ≠ [] := by
            intro none
            rw [List.map_eq_nil_iff, List.filter_eq_nil_iff] at none
            exact others (List.flatten_eq_nil_iff.mpr fun other member => by simpa using none other member)
          rw [String.intercalate_append_of_ne_nil empty others, ih,
            String.intercalate_cons_of_ne_nil some]

namespace Prompt

open Text (trimNewlines)

variable {sections : List (Option String)}

/-- The sections that hold anything. -/
def given (sections : List (Option String)) : List String :=
  sections.filterMap fun s => s.filter (· ≠ "")

/-- What is composed, without the newline at its end. -/
def body (sections : List (Option String)) : String :=
  "\n\n".intercalate ((given sections).map trimNewlines)

/-- A section of newlines and nothing else. -/
def Blank (text : String) : Prop := ∀ c ∈ text.toList, c = '\n'

/-- Sections of which the last that holds anything is not blank, or the only one. -/
def Closed (sections : List (Option String)) : Prop :=
  ∀ before last, given sections = before ++ [last] → before ≠ [] → ¬Blank last

theorem mem_given {text : String} : text ∈ given sections ↔ some text ∈ sections ∧ text ≠ "" := by
  simp [given, Option.filter_eq_some_iff]

theorem given_eq_nil_iff : given sections = [] ↔ ∀ text, some text ∈ sections → text = "" := by
  simp only [List.eq_nil_iff_forall_not_mem, mem_given, not_and, not_not]

theorem compose_eq (sections : List (Option String)) :
    compose sections = if given sections = [] then "" else body sections ++ "\n" := by
  have joined (parts : List String) (same : parts = (given sections).map trimNewlines) :
      (if parts.isEmpty then "" else "\n\n".intercalate parts ++ "\n") =
        if given sections = [] then "" else body sections ++ "\n" := by
    rw [same]
    simp only [List.isEmpty_iff, List.map_eq_nil_iff, body]
  refine joined _ ?_
  rw [given, List.map_filterMap]
  apply List.filterMap_congr
  intro s _
  cases s with
  | none => rfl
  | some s => by_cases empty : s = "" <;> simp [Option.filter, empty]

theorem compose_eq_empty_iff : compose sections = "" ↔ given sections = [] := by
  rw [compose_eq]
  split
  · next none => exact iff_of_true rfl none
  · next some =>
    refine iff_of_false (fun same => ?_) some
    have lengths := congrArg String.length same
    rw [String.length_append] at lengths
    exact absurd lengths (by simp)

theorem trimNewlines_eq_empty_iff {text : String} : trimNewlines text = "" ↔ Blank text := by
  rw [← String.toList_inj, Text.toList_trimNewlines, String.toList_empty, List.rdropWhile_eq_nil_iff]
  simp only [decide_eq_true_eq, Blank]

theorem closed_of_none (none : given sections = []) : Closed sections := by
  intro before last same
  rw [none] at same
  exact absurd same (by simp)

/-- What is composed ends in no newlines of its own if and only if the sections are closed. -/
theorem trimNewlines_body : trimNewlines (body sections) = body sections ↔ Closed sections := by
  cases whole : given sections using List.reverseRecOn with
  | nil =>
      rw [body, whole]
      exact iff_of_true rfl (closed_of_none whole)
  | append_singleton before last =>
      have ends : Closed sections ↔ (before ≠ [] → ¬Blank last) := by
        rw [Closed, whole]
        constructor
        · exact fun closed => closed before last rfl
        · intro closed other final same
          obtain ⟨rfl, only⟩ := List.append_inj' same rfl
          obtain rfl := List.singleton_inj.mp only
          exact closed
      rw [ends, body, whole, List.map_append, List.map_singleton]
      by_cases first : before = []
      · rw [first, List.map_nil, List.nil_append, String.intercalate_singleton]
        exact iff_of_true (Text.trimNewlines_trimNewlines last) (fun more => absurd rfl more)
      · rw [String.intercalate_append_of_ne_nil (by simpa using first) (by simp),
          String.intercalate_singleton, Text.trimNewlines_eq_self_iff, String.toList_append,
          String.toList_append, List.getLast?_append, List.getLast?_append]
        have trimmed := Text.trimNewlines_eq_self_iff.mp (Text.trimNewlines_trimNewlines last)
        by_cases blank : Blank last
        · rw [trimNewlines_eq_empty_iff.mpr blank]
          exact iff_of_false (fun ends => ends rfl) (fun text => text first blank)
        · have text : (trimNewlines last).toList.getLast? ≠ none := by
            simpa [List.getLast?_eq_none_iff, trimNewlines_eq_empty_iff] using blank
          obtain ⟨c, final⟩ := Option.ne_none_iff_exists'.mp text
          rw [final] at trimmed ⊢
          exact iff_of_true trimmed (fun _ => blank)

/-- The compositions among which something is given. -/
theorem given_composed (groups : List (List (Option String))) :
    given (groups.map fun group => some (compose group)) =
      (groups.filter (given · ≠ [])).map compose := by
  induction groups with
  | nil => rfl
  | cons group rest ih =>
      rw [List.map_cons, given, List.filterMap_cons, ← given, ih, List.filter_cons]
      by_cases empty : given group = []
      · simp [Option.filter, compose_eq_empty_iff.mpr empty, empty]
      · simp [Option.filter, compose_eq_empty_iff.not.mpr empty, empty]

theorem body_composed (groups : List (List (Option String))) :
    body (groups.map fun group => some (compose group)) =
      "\n\n".intercalate ((groups.filter (given · ≠ [])).map fun group => trimNewlines (body group)) := by
  rw [body, given_composed, List.map_map]
  congr 1
  apply List.map_congr_left
  intro group member
  have shows : given group ≠ [] := by simpa using (List.mem_filter.mp member).2
  rw [Function.comp_apply, compose_eq, if_neg shows, Text.trimNewlines_newline]

theorem given_flatten (groups : List (List (Option String))) :
    given groups.flatten = (groups.map given).flatten :=
  List.filterMap_flatten

theorem body_flatten (groups : List (List (Option String))) :
    body groups.flatten = "\n\n".intercalate ((groups.filter (given · ≠ [])).map body) := by
  rw [body, given_flatten, List.map_flatten, List.map_map, intercalate_flatten, List.filter_map,
    List.map_map]
  congr 2
  apply List.filter_congr
  intro group _
  simp

/-- Compositions compose to what all their sections do if and only if each of them is closed. -/
theorem compose_groups (groups : List (List (Option String))) :
    compose (groups.map fun group => some (compose group)) = compose groups.flatten ↔
      ∀ group ∈ groups, Closed group := by
  have outer : given (groups.map fun group => some (compose group)) = [] ↔
      groups.filter (given · ≠ []) = [] := by
    rw [given_composed, List.map_eq_nil_iff]
  have inner : given groups.flatten = [] ↔ groups.filter (given · ≠ []) = [] := by
    rw [given_flatten, List.flatten_eq_nil_iff, List.filter_eq_nil_iff]
    simp
  rw [compose_eq, compose_eq]
  by_cases none : groups.filter (given · ≠ []) = []
  · rw [if_pos (outer.mpr none), if_pos (inner.mpr none)]
    refine iff_of_true rfl fun group member => closed_of_none ?_
    simpa using List.filter_eq_nil_iff.mp none group member
  · rw [if_neg (outer.not.mpr none), if_neg (inner.not.mpr none), String.append_left_inj, body_composed,
      body_flatten]
    constructor
    · intro same group member
      by_cases empty : given group = []
      · exact closed_of_none empty
      · have kept := (length_intercalate_map (fun group => Text.length_trimNewlines_le (body group))
          "\n\n" _).2 (congrArg String.length same) group (List.mem_filter.mpr ⟨member, by simpa using empty⟩)
        exact trimNewlines_body.mp (Text.trimNewlines_of_length kept)
    · intro closed
      congr 1
      apply List.map_congr_left
      intro group member
      exact trimNewlines_body.mpr (closed group (List.mem_filter.mp member).1)

/-- Composing nests exactly where both parts are closed, as all parts are whose sections hold text besides
newlines or nothing at all. A composition is empty exactly if no section holds anything; else it is its
sections, trimmed, with one blank line between neighbours and a newline at the end, before which there is
another one exactly if they are not closed. -/
theorem compose_nested (xs ys : List (Option String)) :
    (compose [some (compose xs), some (compose ys)] = compose (xs ++ ys) ↔ Closed xs ∧ Closed ys) ∧
      ((∀ text ∈ given xs, ¬Blank text) →
        Closed xs ∧ (compose xs = "" ↔ ∀ text, some text ∈ xs → Blank text)) ∧
      (compose xs = "" ↔ ∀ text, some text ∈ xs → text = "") ∧
      (compose xs ≠ "" → compose xs = body xs ++ "\n") ∧
      (trimNewlines (body xs) = body xs ↔ Closed xs) := by
  have empty : compose xs = "" ↔ ∀ text, some text ∈ xs → text = "" :=
    compose_eq_empty_iff.trans given_eq_nil_iff
  refine ⟨?_, ?_, empty, ?_, trimNewlines_body⟩
  · have nested := compose_groups [xs, ys]
    simpa using nested
  · intro written
    refine ⟨fun before last whole _ => written last (by simp [whole]), empty.trans ?_⟩
    refine forall_congr' fun text => imp_congr_right fun member => ?_
    constructor
    · rintro rfl
      exact nofun
    · intro blank
      by_contra some
      exact written text (mem_given.mpr ⟨member, some⟩) blank
  · intro some
    rw [compose_eq, if_neg (compose_eq_empty_iff.not.mp some)]

/-- Newlines on their own leave a gap between the sections around them. -/
example : compose [some "a", some "\n", some "b"] = "a\n\n\n\nb\n" := by decide +kernel

end Prompt

end Lifecycle
