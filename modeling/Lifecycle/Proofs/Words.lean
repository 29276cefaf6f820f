import Lifecycle.Proofs.Slug
/-!
The words of a text, which are its longest runs of letters and digits. What becomes a name of a text is its
words with single hyphens between them, whatever else stands before, between and behind the words, and a
name is any text that is made of its words like that. -/

namespace Lifecycle

theorem List.rdropWhile_append {α : Type} (p : α → Bool) (front back : List α) :
    (front ++ back).rdropWhile p =
      if back.rdropWhile p = [] then front.rdropWhile p else front ++ back.rdropWhile p := by
  simp only [List.rdropWhile, List.reverse_append, List.dropWhile_append, List.isEmpty_iff,
    List.reverse_eq_nil_iff]
  split
  · rfl
  · rw [List.reverse_append, List.reverse_reverse]

namespace Text

/-- The longest runs of characters of words in a text, in order: none is followed by another character that
it could have had. -/
inductive Runs : List Char → List (List Char) → Prop where
  | none : Runs [] []
  | skip {c : Char} {rest : List Char} {words : List (List Char)} (apart : ¬WordChar c)
      (more : Runs rest words) : Runs (c :: rest) words
  | run {word rest : List Char} {words : List (List Char)} (written : word ≠ [])
      (chars : ∀ c ∈ word, WordChar c) (ends : ∀ c ∈ rest.head?, ¬WordChar c) (more : Runs rest words) :
      Runs (word ++ rest) (word :: words)

/-- What stands between the characters that belong to no word. -/
def words (text : List Char) : List (List Char) :=
  (text.splitOnP fun c => ¬WordChar c).filter (· ≠ [])

theorem words_append_cons {c : Char} (apart : ¬WordChar c) (before after : List Char) :
    words (before ++ c :: after) = words before ++ words after := by
  rw [words, List.splitOnP_append_cons _ _ (by simpa using apart), List.filter_append, ← words, ← words]

theorem words_cons {c : Char} (apart : ¬WordChar c) (rest : List Char) : words (c :: rest) = words rest :=
  words_append_cons apart [] rest

theorem words_word {word : List Char} (written : word ≠ []) (chars : ∀ c ∈ word, WordChar c) :
    words word = [word] := by
  rw [words, List.splitOnP_eq_singleton (by simpa using chars)]
  simp [written]

namespace Runs

variable {text : List Char} {found : List (List Char)}

theorem words_eq (runs : Runs text found) : words text = found := by
  induction runs with
  | none => rfl
  | skip apart _ ih => rw [words_cons apart, ih]
  | @run word rest _ written chars ends _ ih =>
      cases rest with
      | nil => rw [List.append_nil, ← ih, words_word written chars]; rfl
      | cons c others =>
          have apart : ¬WordChar c := ends c rfl
          rw [words_append_cons apart, words_word written chars, ← ih, words_cons apart]
          rfl

theorem written (runs : Runs text found) : ∀ word ∈ found, word ≠ [] ∧ ∀ c ∈ word, WordChar c := by
  induction runs with
  | none => exact nofun
  | skip _ _ ih => exact ih
  | run written chars _ _ ih => exact List.forall_mem_cons.mpr ⟨⟨written, chars⟩, ih⟩

end Runs

/-- Every text has its runs: a character before them either belongs to none, or makes the first one longer if
that one begins the text, or is one by itself. -/
theorem runs_words (text : List Char) : Runs text (words text) := by
  suffices found : ∃ found, Runs text found by
    obtain ⟨found, runs⟩ := found
    exact runs.words_eq ▸ runs
  induction text with
  | nil => exact ⟨[], .none⟩
  | cons c rest ih =>
      obtain ⟨found, runs⟩ := ih
      by_cases letter : WordChar c
      · have single : ∀ d ∈ [c], WordChar d := List.forall_mem_singleton.mpr letter
        cases runs with
        | none => exact ⟨_, .run (List.cons_ne_nil c []) single nofun .none⟩
        | @skip d others _ apart more =>
            have ends : ∀ next ∈ (d :: others).head?, ¬WordChar next := by simpa using apart
            exact ⟨_, .run (List.cons_ne_nil c []) single ends (.skip apart more)⟩
        | @run word _ _ _ chars ends more =>
            have longer := List.forall_mem_cons.mpr ⟨letter, chars⟩
            exact ⟨_, .run (List.cons_ne_nil c word) longer ends more⟩
      · exact ⟨found, .skip letter runs⟩

theorem dropWhile_hyphens {text : List Char} (other : text.head? ≠ some '-') :
    text.dropWhile (· = '-') = text := by
  cases text with
  | nil => rfl
  | cons c rest => exact List.dropWhile_cons_of_neg (by simpa using other)

/-- A character that belongs to no word leaves a hyphen in place of those that follow it. -/
theorem hyphenated_cons {c : Char} (apart : ¬WordChar c) (rest : List Char) :
    hyphenated (c :: rest) = '-' :: (hyphenated rest).dropWhile (· = '-') := by
  rw [hyphenated, if_neg apart]
  split
  · next tail same =>
    have alone := (same ▸ hyphened_hyphenated rest).alone
    rw [same, List.dropWhile_cons_of_pos (by simp), dropWhile_hyphens]
    intro next
    obtain ⟨others, rfl⟩ := List.head?_eq_some_iff.mp next
    exact absurd (List.isChain_cons_cons.mp alone).1 (by simp)
  · next other =>
    rw [dropWhile_hyphens]
    intro next
    obtain ⟨tail, same⟩ := List.head?_eq_some_iff.mp next
    exact other tail same

theorem hyphenated_word {word : List Char} (chars : ∀ c ∈ word, WordChar c) (rest : List Char) :
    hyphenated (word ++ rest) = word ++ hyphenated rest := by
  induction word with
  | nil => rfl
  | cons c others ih =>
      rw [List.forall_mem_cons] at chars
      rw [List.cons_append, hyphenated, if_pos chars.1, ih chars.2, List.cons_append]

theorem intercalate_ne_nil {words : List (List Char)} (written : ∀ word ∈ words, word ≠ [])
    (some : words ≠ []) : ['-'].intercalate words ≠ [] := by
  cases words with
  | nil => exact absurd rfl some
  | cons word rest =>
      have first := written word List.mem_cons_self
      cases rest with
      | nil => simpa using first
      | cons other others => simp [first]

/-- A text made into a name is its words, joined. -/
theorem Runs.trimHyphens_hyphenated {text : List Char} {found : List (List Char)} (runs : Runs text found) :
    trimHyphens (hyphenated text) = ['-'].intercalate found := by
  rw [trimHyphens_eq]
  induction runs with
  | none => rfl
  | skip apart _ ih =>
      rw [hyphenated_cons apart, List.dropWhile_cons_of_pos (by simp), List.dropWhile_idempotent, ih]
  | @run word rest words written chars ends more ih =>
      have letters : ∀ c ∈ word, ¬decide (c = '-') = true := by
        intro c member same
        exact not_wordChar_hyphen (of_decide_eq_true same ▸ chars c member)
      have front : (word ++ hyphenated rest).dropWhile (· = '-') = word ++ hyphenated rest := by
        cases word with
        | nil => exact absurd rfl written
        | cons c others => exact List.dropWhile_cons_of_neg (letters c List.mem_cons_self)
      have kept : word.rdropWhile (· = '-') = word := by
        rw [List.rdropWhile_eq_self_iff]
        exact fun _ => letters _ (List.getLast_mem _)
      rw [hyphenated_word chars, front]
      cases rest with
      | nil =>
          obtain rfl : words = [] := more.words_eq.symm
          rw [hyphenated, List.append_nil, kept, List.intercalate_singleton]
      | cons c others =>
          -- The hyphen behind the word is the one that joins it to the next, if any comes.
          have behind : ((hyphenated others).dropWhile (· = '-')).rdropWhile (· = '-') =
              ['-'].intercalate words := by
            rw [hyphenated_cons (ends c rfl), List.dropWhile_cons_of_pos (by simp),
              List.dropWhile_idempotent] at ih
            exact ih
          rw [hyphenated_cons (ends c rfl), List.append_cons, List.rdropWhile_append, behind]
          by_cases last : words = []
          · rw [if_pos (by rw [last, List.intercalate_nil]), List.rdropWhile_concat_pos _ _ _ (by simp), kept,
              last, List.intercalate_singleton]
          · have more_written := fun word member => (more.written word member).1
            rw [if_neg (intercalate_ne_nil more_written last), List.intercalate_cons_of_ne_nil last,
              List.append_assoc]

/-- A hyphen in place of characters that belong to no word, however many, and of those that follow them. -/
theorem hyphenated_gap {gap : List Char} (some : gap ≠ []) (apart : ∀ c ∈ gap, ¬WordChar c)
    (rest : List Char) : hyphenated (gap ++ rest) = '-' :: (hyphenated rest).dropWhile (· = '-') := by
  induction gap with
  | nil => exact absurd rfl some
  | cons c others ih =>
      rw [List.forall_mem_cons] at apart
      rw [List.cons_append, hyphenated_cons apart.1]
      cases others with
      | nil => rfl
      | cons d more =>
          rw [ih (List.cons_ne_nil d more) apart.2, List.dropWhile_cons_of_pos (by simp),
            List.dropWhile_idempotent]

theorem hyphenated_append_congr {rest other : List Char} (same : hyphenated rest = hyphenated other)
    (front : List Char) : hyphenated (front ++ rest) = hyphenated (front ++ other) := by
  induction front with
  | nil => exact same
  | cons c more ih => rw [List.cons_append, List.cons_append, hyphenated, hyphenated, ih]

/-- A lower case of characters that words cannot tell from `lowerCase`: where it differs, neither is empty nor
has a character of a word in it. -/
def Lowers (lower : Char → List Char) : Prop :=
  ∀ c, lower c = lowerCase c ∨ lower c ≠ [] ∧ ∀ d ∈ lower c ++ lowerCase c, ¬WordChar d

theorem lowers_lowerCase : Lowers lowerCase := fun _ => .inl rfl

theorem lowerCase_ne_nil (c : Char) : lowerCase c ≠ [] := by
  rw [← List.length_pos_iff, length_lowerCase]
  split
  · decide
  · decide

theorem Lowers.hyphenated {lower : Char → List Char} (lowers : Lowers lower) (text : List Char) :
    hyphenated (text.flatMap lower) = hyphenated (text.flatMap lowerCase) := by
  induction text with
  | nil => rfl
  | cons c rest ih =>
      rw [List.flatMap_cons, List.flatMap_cons]
      rcases lowers c with same | ⟨some, apart⟩
      · rw [same]
        exact hyphenated_append_congr ih _
      · rw [List.forall_mem_append] at apart
        rw [hyphenated_gap some apart.1, hyphenated_gap (lowerCase_ne_nil c) apart.2, ih]

/-- What counts of a description, in lower case. -/
def beginning (lower : Char → List Char) (description : String) : List Char :=
  (description.toList.take slugLimit).flatMap lower

variable {lower : Char → List Char} (lowers : Lowers lower) (description : String)
include lowers

theorem toList_slug_words :
    (slug description).toList = ['-'].intercalate (words (beginning lower description)) := by
  rw [← (runs_words _).trimHyphens_hyphenated, beginning, lowers.hyphenated, toList_slug]

theorem slug_eq_words :
    slug description = "-".intercalate ((words (beginning lower description)).map String.ofList) := by
  rw [← String.toList_inj, toList_slug_words lowers, String.toList_intercalate, List.map_map]
  simp

theorem slug_eq_empty_iff : slug description = "" ↔ words (beginning lower description) = [] := by
  have written := fun word member => ((runs_words (beginning lower description)).written word member).1
  rw [← String.toList_eq_nil_iff, toList_slug_words lowers]
  constructor
  · intro empty
    by_contra some
    exact intercalate_ne_nil written some empty
  · intro none
    rw [none, List.intercalate_nil]

omit lowers

theorem kebabFrom_word {word : List Char} (written : word ≠ []) (chars : ∀ c ∈ word, WordChar c)
    (after : Bool) (rest : List Char) : kebabFrom after (word ++ rest) = kebabFrom true rest := by
  induction word generalizing after with
  | nil => exact absurd rfl written
  | cons c others ih =>
      rw [List.forall_mem_cons] at chars
      rw [List.cons_append, kebabFrom, if_pos chars.1]
      cases others with
      | nil => rfl
      | cons d more => exact ih (List.cons_ne_nil d more) chars.2 true

theorem kebabFrom_intercalate {words : List (List Char)} (some : words ≠ [])
    (written : ∀ word ∈ words, word ≠ [] ∧ ∀ c ∈ word, WordChar c) (after : Bool) :
    kebabFrom after (['-'].intercalate words) = true := by
  induction words generalizing after with
  | nil => exact absurd rfl some
  | cons word rest ih =>
      rw [List.forall_mem_cons] at written
      cases rest with
      | nil =>
          rw [List.intercalate_singleton, ← List.append_nil word, kebabFrom_word written.1.1 written.1.2]
          rfl
      | cons other others =>
          have more := ih (List.cons_ne_nil other others) written.2 false
          rw [List.intercalate_cons_cons, List.append_assoc, kebabFrom_word written.1.1 written.1.2]
          simp [kebabFrom, not_wordChar_hyphen, more]

/-- What is accepted has its hyphens alone and none at its end, nor at its beginning unless they may follow
there. -/
theorem kebabFrom_hyphened {after : Bool} {text : List Char} (kebab : kebabFrom after text = true) :
    Hyphened text ∧ text.getLast? ≠ some '-' ∧ (text.head? = some '-' → after = true) := by
  induction text generalizing after with
  | nil => exact ⟨⟨nofun, .nil⟩, nofun, nofun⟩
  | cons c rest ih =>
      by_cases letter : WordChar c
      · rw [kebabFrom, if_pos letter] at kebab
        obtain ⟨hyphened, last, _⟩ := ih kebab
        have other : c ≠ '-' := fun same => not_wordChar_hyphen (same ▸ letter)
        refine ⟨hyphened.cons (.inl letter) (.inl other), ?_, ?_⟩
        · cases rest with
          | nil => simpa using other
          | cons d more => rwa [List.getLast?_cons_cons]
        · exact fun first => absurd (Option.some.inj first) other
      · rw [kebabFrom, if_neg letter, Bool.and_eq_true, Bool.and_eq_true, decide_eq_true_iff] at kebab
        obtain ⟨⟨rfl, allowed⟩, kebab⟩ := kebab
        obtain ⟨hyphened, last, first⟩ := ih kebab
        have apart : rest.head? ≠ some '-' := fun next => absurd (first next) Bool.false_ne_true
        refine ⟨hyphened.cons (.inr rfl) (.inr apart), ?_, fun _ => allowed⟩
        cases rest with
        | nil => exact absurd kebab (by simp [kebabFrom])
        | cons d more => rwa [List.getLast?_cons_cons]

/-- A text is accepted exactly if it is its words, joined, and there are any. -/
theorem kebabFrom_iff (text : List Char) :
    kebabFrom false text = true ↔ words text ≠ [] ∧ ['-'].intercalate (words text) = text := by
  constructor
  · intro kebab
    obtain ⟨hyphened, last, first⟩ := kebabFrom_hyphened kebab
    have front : text.dropWhile (· = '-') = text :=
      dropWhile_hyphens fun hyphen => absurd (first hyphen) Bool.false_ne_true
    have trimmed : trimHyphens (hyphenated text) = text := by
      rw [hyphened.hyphenated, trimHyphens_eq, front, List.rdropWhile_eq_self_iff]
      intro some hyphen
      exact last (List.getLast?_eq_some_getLast some ▸ congrArg _ (of_decide_eq_true hyphen))
    have joined := trimmed ▸ (runs_words text).trimHyphens_hyphenated
    refine ⟨fun none => ?_, joined.symm⟩
    rw [none, List.intercalate_nil] at joined
    subst joined
    cases kebab
  · rintro ⟨some, joined⟩
    have accepted := kebabFrom_intercalate some (runs_words text).written false
    rwa [joined] at accepted

theorem withoutFinalNewline_of_not_mem {text : List Char} (none : '\n' ∉ text) :
    withoutFinalNewline text = text := by
  unfold withoutFinalNewline
  split
  · next rest same =>
    exact absurd (List.mem_reverse.mp (same ▸ List.mem_cons_self)) none
  · rfl

/-- What is derived from a description is a name, unless it is empty. -/
theorem isName_slug (some : slug description ≠ "") : isName (slug description) = true := by
  have plain : '\n' ∉ (slug description).toList := by
    intro member
    exact absurd ((hyphened_slug description).chars _ member) (by decide)
  rw [Ne, slug_eq_empty_iff lowers_lowerCase] at some
  rw [isName, withoutFinalNewline_of_not_mem plain, toList_slug_words lowers_lowerCase]
  exact kebabFrom_intercalate some (runs_words _).written false

end Text

end Lifecycle
