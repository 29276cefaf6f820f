import Lifecycle.Proofs.Data
import Lifecycle.Proofs.JsonNumber
import Lifecycle.Proofs.JsonText
/-!
Values read back from the text that they are written as: all that JSON can hold comes back as it was,
in its order, but for reals, each of which comes back as the real that its digits spell. -/

namespace Lifecycle

namespace Json

open Decimal

theorem skipBlanks_append {blanks : List Char} (blank : ∀ c ∈ blanks, isBlank c = true)
    (rest : List Char) : skipBlanks (blanks ++ rest) = skipBlanks rest :=
  List.dropWhile_append_of_pos blank

theorem skipBlanks_cons {c : Char} (visible : isBlank c = false) (rest : List Char) :
    skipBlanks (c :: rest) = c :: rest := by
  rw [skipBlanks, List.dropWhile_cons, if_neg (by simp [visible])]

theorem lineBreak_blank (layout : Layout) (depth : Nat) :
    ∀ c ∈ layout.lineBreak depth, isBlank c = true := by
  intro c member
  cases layout with
  | inline => cases member
  | indented width =>
      rcases List.mem_cons.mp member with rfl | space
      · rfl
      · rw [List.eq_of_mem_replicate space]
        rfl

theorem comma_blank (layout : Layout) (depth : Nat) :
    ∃ blanks, layout.comma depth = ',' :: blanks ∧ ∀ c ∈ blanks, isBlank c = true := by
  cases layout with
  | inline =>
      refine ⟨[' '], rfl, ?_⟩
      intro c member
      rw [List.mem_singleton.mp member]
      rfl
  | indented width => exact ⟨_, rfl, lineBreak_blank (.indented width) depth⟩

theorem ne_of_digit {c d : Char} (digit : IsDigit c) (other : ¬IsDigit d) : c ≠ d := by
  rintro rfl
  exact other digit

/-- Text that begins with no blank, with nothing that closes a list or a map, and with no mark for
the order of bytes. -/
def Opens (text : List Char) : Prop :=
  ∃ c rest, text = c :: rest ∧ isBlank c = false ∧ c ≠ ']' ∧ c ≠ '\x7d' ∧ c ≠ '\ufeff'

theorem opens_number {text : List Char} (begins : BeginsNumber text) : Opens text := by
  obtain ⟨negative, first, more, rfl, digit⟩ := begins
  cases negative with
  | true => exact ⟨'-', first :: more, rfl, by decide, by decide, by decide, by decide⟩
  | false =>
      refine ⟨first, more, rfl, ?_, ne_of_digit digit (by decide), ne_of_digit digit (by decide),
        ne_of_digit digit (by decide)⟩
      have space := ne_of_digit digit (d := ' ') (by decide)
      have tab := ne_of_digit digit (d := '\t') (by decide)
      have newline := ne_of_digit digit (d := '\n') (by decide)
      have return_ := ne_of_digit digit (d := '\r') (by decide)
      simp [isBlank, space, tab, newline, return_]

/-- A written value opens, whatever comes after it. -/
theorem opens_write (layout : Layout) (depth : Nat) {v : Value}
    (data : v.isData Binary64.isFinite = true) (rest : List Char) :
    Opens (write layout depth v ++ rest) := by
  match v with
  | .null => exact ⟨'n', _, rfl, by decide, by decide, by decide, by decide⟩
  | .flag true => exact ⟨'t', _, rfl, by decide, by decide, by decide, by decide⟩
  | .flag false => exact ⟨'f', _, rfl, by decide, by decide, by decide, by decide⟩
  | .integer n => exact opens_number (begins_integer n rest)
  | .real x => exact opens_number (begins_real data rest)
  | .text s => exact ⟨'"', _, rfl, by decide, by decide, by decide, by decide⟩
  | .list [] => exact ⟨'[', _, rfl, by decide, by decide, by decide, by decide⟩
  | .list (v :: more) => exact ⟨'[', _, rfl, by decide, by decide, by decide, by decide⟩
  | .map [] => exact ⟨'\x7b', _, rfl, by decide, by decide, by decide, by decide⟩
  | .map ((key, v) :: more) => exact ⟨'\x7b', _, rfl, by decide, by decide, by decide, by decide⟩

theorem skipBlanks_opens {text : List Char} (opens : Opens text) : skipBlanks text = text := by
  obtain ⟨c, rest, rfl, visible, _⟩ := opens
  exact skipBlanks_cons visible rest

theorem word_none {text : List Char} (begins : BeginsNumber text) : word? text = none := by
  obtain ⟨negative, first, more, rfl, digit⟩ := begins
  have apart : ∀ d : Char, ¬IsDigit d → (d == first) = false := by
    intro d other
    exact beq_false_of_ne (Ne.symm (ne_of_digit digit other))
  have n := apart 'n' (by decide)
  have t := apart 't' (by decide)
  have f := apart 'f' (by decide)
  have N := apart 'N' (by decide)
  have I := apart 'I' (by decide)
  have minus := apart '-' (by decide)
  cases negative with
  | true => simp [word?, words, signed, List.find?, List.isPrefixOf, I]
  | false => simp [word?, words, signed, List.find?, List.isPrefixOf, n, t, f, N, I, minus]

theorem read_number {text : List Char} (begins : BeginsNumber text) {found : Value × List Char}
    (reads : number? text = some (.ok found)) (room fuel : Nat) :
    read room (fuel + 1) text = .ok found := by
  have noWord := word_none begins
  obtain ⟨negative, first, more, rfl, digit⟩ := begins
  cases negative with
  | true =>
      rw [signed, if_pos rfl] at noWord reads ⊢
      rw [read, noWord, reads] <;> simp
  | false =>
      rw [signed, if_neg Bool.false_ne_true] at noWord reads ⊢
      have quote := ne_of_digit digit (d := '"') (by decide)
      have list := ne_of_digit digit (d := '[') (by decide)
      have map := ne_of_digit digit (d := '\x7b') (by decide)
      rw [read, noWord, reads] <;> simp [quote, list, map]

theorem chars_writeText (opened : Nat) (s : String) (rest : List Char) :
    chars opened (s.toList.flatMap escapeChar ++ ['"'] ++ rest) = .ok (s.toList, rest) := by
  rw [List.append_assoc]
  exact chars_escaped opened s.toList rest

/-- What is written between the brackets of a list. -/
def between (layout : Layout) (depth : Nat) : List Value → List Char
  | [] => []
  | v :: rest => write layout depth v ++ writeItems layout depth rest

/-- What is written between the braces of a map. -/
def betweenBraces (layout : Layout) (depth : Nat) : List (String × Value) → List Char
  | [] => []
  | (key, v) :: rest =>
    writeText key ++ [':', ' '] ++ write layout depth v ++ writeEntries layout depth rest

/-- What comes back for a real. -/
def respelled (x : Binary64) : Value := .real (reread x)

theorem delimited_items (layout : Layout) (depth : Nat) (items : List Value) {close : List Char}
    (ends : Delimited close) : Delimited (writeItems layout depth items ++ close) := by
  cases items with
  | nil => exact ends
  | cons v rest =>
      obtain ⟨blanks, comma, _⟩ := comma_blank layout depth
      rw [writeItems, comma]
      rintro c first
      cases first
      decide

theorem delimited_entries (layout : Layout) (depth : Nat) (entries : List (String × Value))
    {close : List Char} (ends : Delimited close) :
    Delimited (writeEntries layout depth entries ++ close) := by
  cases entries with
  | nil => exact ends
  | cons entry rest =>
      obtain ⟨blanks, comma, _⟩ := comma_blank layout depth
      rw [writeEntries, comma]
      rintro c first
      cases first
      decide

theorem delimited_close (layout : Layout) (depth : Nat) {c : Char}
    (other : ¬IsDigit c ∧ c ≠ '.' ∧ c ≠ 'e' ∧ c ≠ 'E') (rest : List Char) :
    Delimited (layout.lineBreak depth ++ c :: rest) := by
  cases layout with
  | inline =>
      rintro d first
      cases first
      exact other
  | indented width =>
      rintro d first
      cases first
      decide

/-- Reading goes on behind a comma, or ends at the bracket. -/
theorem readItems_one {room fuel : Nat} {text tail : List Char} {v : Value} {layout : Layout}
    {depth : Nat} (reads : read room fuel text = .ok (v, layout.lineBreak depth ++ ']' :: tail)) :
    readItems room (fuel + 1) text = .ok ([v], tail) := by
  have bracket : skipBlanks (layout.lineBreak depth ++ ']' :: tail) = ']' :: tail := by
    rw [skipBlanks_append (lineBreak_blank layout depth), skipBlanks_cons (by decide)]
  rw [readItems, reads]
  simp only [bracket]

theorem readItems_more {room fuel : Nat} {text next tail blanks : List Char} {v : Value}
    {more : List Value} (blank : ∀ c ∈ blanks, isBlank c = true) (opens : Opens next)
    (reads : read room fuel text = .ok (v, ',' :: blanks ++ next))
    (others : readItems room fuel next = .ok (more, tail)) :
    readItems room (fuel + 1) text = .ok (v :: more, tail) := by
  have comma : skipBlanks (',' :: blanks ++ next) = ',' :: (blanks ++ next) :=
    skipBlanks_cons (by decide) _
  have skipped : skipBlanks (blanks ++ next) = next := by
    rw [skipBlanks_append blank, skipBlanks_opens opens]
  rw [readItems, reads]
  simp only [comma, skipped, others]

/-- Behind a key stand a colon and the value. -/
theorem entry_shape (key : String) {text : List Char} (opens : Opens text) :
    writeText key ++ [':', ' '] ++ text =
        '"' :: (key.toList.flatMap escapeChar ++ ['"'] ++ (':' :: ' ' :: text)) ∧
      skipBlanks (':' :: ' ' :: text) = ':' :: ' ' :: text ∧ skipBlanks (' ' :: text) = text := by
  refine ⟨by simp [writeText], skipBlanks_cons (by decide) _, ?_⟩
  have blank : ∀ c ∈ [' '], isBlank c = true := List.forall_mem_singleton.mpr rfl
  have skipped := skipBlanks_append blank text
  rw [skipBlanks_opens opens] at skipped
  exact skipped

theorem readEntries_one {room fuel : Nat} {key : String} {text tail : List Char} {v : Value}
    {layout : Layout} {depth : Nat} (opens : Opens text)
    (reads : read room fuel text = .ok (v, layout.lineBreak depth ++ '\x7d' :: tail)) :
    readEntries room (fuel + 1) (writeText key ++ [':', ' '] ++ text) = .ok ([(key, v)], tail) := by
  have brace : skipBlanks (layout.lineBreak depth ++ '\x7d' :: tail) = '\x7d' :: tail := by
    rw [skipBlanks_append (lineBreak_blank layout depth), skipBlanks_cons (by decide)]
  obtain ⟨shape, colon, value⟩ := entry_shape key opens
  rw [shape, readEntries]
  simp only [chars_writeText, colon, value, reads, brace, String.ofList_toList]

theorem readEntries_more {room fuel : Nat} {key : String} {text next tail blanks : List Char}
    {v : Value} {more : List (String × Value)} (opens : Opens text)
    (blank : ∀ c ∈ blanks, isBlank c = true) (opensNext : Opens next)
    (reads : read room fuel text = .ok (v, ',' :: blanks ++ next))
    (others : readEntries room fuel next = .ok (more, tail)) :
    readEntries room (fuel + 1) (writeText key ++ [':', ' '] ++ text) =
      .ok ((key, v) :: more, tail) := by
  have comma : skipBlanks (',' :: blanks ++ next) = ',' :: (blanks ++ next) :=
    skipBlanks_cons (by decide) _
  have skipped : skipBlanks (blanks ++ next) = next := by
    rw [skipBlanks_append blank, skipBlanks_opens opensNext]
  obtain ⟨shape, colon, value⟩ := entry_shape key opens
  rw [shape, readEntries]
  simp only [chars_writeText, colon, value, reads, comma, skipped, others, String.ofList_toList]

/-- A list or a map that holds something goes on with what is in it. -/
theorem read_list {room fuel : Nat} {blanks text tail : List Char} {items : List Value}
    (blank : ∀ c ∈ blanks, isBlank c = true) (opens : Opens text)
    (reads : readItems room fuel text = .ok (items, tail)) :
    read (room + 1) (fuel + 1) ('[' :: (blanks ++ text)) = .ok (.list items, tail) := by
  have skipped : skipBlanks (blanks ++ text) = text := by
    rw [skipBlanks_append blank, skipBlanks_opens opens]
  obtain ⟨c, rest, rfl, _, bracket, _⟩ := opens
  rw [read, if_neg (Nat.succ_ne_zero room), skipped]
  simp only [Nat.add_sub_cancel]
  split
  · next same =>
      cases same
      exact absurd rfl bracket
  · rw [reads]

theorem read_map {room fuel : Nat} {blanks text tail : List Char} {entries : List (String × Value)}
    (blank : ∀ c ∈ blanks, isBlank c = true) (opens : Opens text)
    (distinct : Keyed.Distinct entries)
    (reads : readEntries room fuel text = .ok (entries, tail)) :
    read (room + 1) (fuel + 1) ('\x7b' :: (blanks ++ text)) = .ok (.map entries, tail) := by
  have skipped : skipBlanks (blanks ++ text) = text := by
    rw [skipBlanks_append blank, skipBlanks_opens opens]
  obtain ⟨c, rest, rfl, _, _, brace, _⟩ := opens
  rw [read, if_neg (Nat.succ_ne_zero room), skipped]
  simp only [Nat.add_sub_cancel]
  split
  · next same =>
      cases same
      exact absurd rfl brace
  · rw [reads]
    simp only [Keyed.ofList_eq distinct]

theorem opens_writeText (key : String) (rest : List Char) : Opens (writeText key ++ rest) :=
  ⟨'"', _, rfl, by decide, by decide, by decide, by decide⟩

theorem opens_between (layout : Layout) (depth : Nat) {v : Value} (data : v.isData Binary64.isFinite = true)
    (more : List Value) (rest : List Char) : Opens (between layout depth (v :: more) ++ rest) := by
  rw [between, List.append_assoc]
  exact opens_write layout depth data _

theorem opens_betweenBraces (layout : Layout) (depth : Nat) (entry : String × Value)
    (more : List (String × Value)) (rest : List Char) :
    Opens (betweenBraces layout depth (entry :: more) ++ rest) := by
  rw [betweenBraces, List.append_assoc, List.append_assoc, List.append_assoc]
  exact opens_writeText entry.1 _

theorem write_list (layout : Layout) (depth : Nat) (v : Value) (more : List Value) :
    write layout depth (.list (v :: more)) =
      '[' :: (layout.lineBreak (depth + 1) ++ (between layout (depth + 1) (v :: more) ++
        (layout.lineBreak depth ++ [']']))) := by
  simp [write, between]

theorem write_map (layout : Layout) (depth : Nat) (entry : String × Value) (more : List (String × Value)) :
    write layout depth (.map (entry :: more)) =
      '\x7b' :: (layout.lineBreak (depth + 1) ++ (betweenBraces layout (depth + 1) (entry :: more) ++
        (layout.lineBreak depth ++ ['\x7d']))) := by
  simp [write, betweenBraces]

mutual

/-- What is written reads back, as far as the room and the steps go that it takes. -/
theorem read_write (layout : Layout) (depth : Nat) (v : Value) {room : Nat} (fuel : Nat)
    (data : v.isData Binary64.isFinite = true) (writable : v.writable = true)
    (inside : v.within room = true) (enough : 2 * (write layout depth v).length ≤ fuel)
    (rest : List Char) (ends : Delimited rest) :
    read room fuel (write layout depth v ++ rest) = .ok (v.mapReals respelled, rest) := by
  cases fuel with
  | zero =>
      obtain ⟨c, more, shape, _⟩ := opens_write layout depth data []
      rw [List.append_nil] at shape
      rw [shape, List.length_cons] at enough
      omega
  | succ fuel =>
      cases v with
      | null => rfl
      | flag b => cases b <;> rfl
      | integer n =>
          rw [Value.writable, decide_eq_true_iff] at writable
          exact read_number (begins_integer n rest) (number_integer writable ends) room fuel
      | real x => exact read_number (begins_real data rest) (number_write data ends) room fuel
      | text s =>
          rw [write, writeText, List.cons_append, List.cons_append, read]
          simp only [chars_writeText, String.ofList_toList, Value.mapReals]
      | list items =>
          cases room with
          | zero => cases inside
          | succ room =>
              cases items with
              | nil => rfl
              | cons w more =>
                  rw [write_list] at enough ⊢
                  simp only [List.length_cons, List.length_append] at enough
                  have items := readItems_between layout (depth + 1) depth (w :: more) fuel
                    (List.cons_ne_nil _ _) data writable inside (by omega) rest
                  simp only [List.cons_append, List.append_assoc, List.nil_append]
                  have opens := opens_between layout (depth + 1) (Bool.and_eq_true_iff.mp data).1 more
                  exact read_list (lineBreak_blank layout (depth + 1)) (opens _) items
      | map entries =>
          cases room with
          | zero => cases inside
          | succ room =>
              cases entries with
              | nil => rfl
              | cons entry more =>
                  obtain ⟨distinct, data⟩ := Bool.and_eq_true_iff.mp data
                  rw [write_map] at enough ⊢
                  simp only [List.length_cons, List.length_append] at enough
                  have entries := readEntries_between layout (depth + 1) depth (entry :: more) fuel
                    (List.cons_ne_nil _ _) data writable inside (by omega) rest
                  simp only [List.cons_append, List.append_assoc, List.nil_append]
                  have opens := opens_betweenBraces layout (depth + 1) entry more
                  apply read_map (lineBreak_blank layout (depth + 1)) (opens _) _ entries
                  rw [Keyed.Distinct, Value.keys_mapRealsEntries]
                  exact of_decide_eq_true distinct
      | live => cases data
      | moment t => cases data
      | record kind fields => cases data

theorem readItems_between (layout : Layout) (depth outer : Nat) (items : List Value) {room : Nat}
    (fuel : Nat) (filled : items ≠ []) (data : Value.itemsAreData Binary64.isFinite items = true)
    (writable : Value.writableItems items = true) (inside : Value.withinItems room items = true)
    (enough : 2 * (between layout depth items).length + 1 ≤ fuel) (rest : List Char) :
    readItems room fuel (between layout depth items ++ (layout.lineBreak outer ++ ']' :: rest)) =
      .ok (Value.mapRealsItems respelled items, rest) := by
  cases items with
  | nil => exact absurd rfl filled
  | cons v more =>
      cases fuel with
      | zero => omega
      | succ fuel =>
          rw [between, List.length_append] at enough
          obtain ⟨dataHere, dataMore⟩ := Bool.and_eq_true_iff.mp data
          obtain ⟨writableHere, writableMore⟩ := Bool.and_eq_true_iff.mp writable
          obtain ⟨insideHere, insideMore⟩ := Bool.and_eq_true_iff.mp inside
          have close := delimited_close layout outer (c := ']') (by decide) rest
          have first := read_write layout depth v fuel dataHere writableHere insideHere
            (by omega) _ (delimited_items layout depth more close)
          rw [between, List.append_assoc, Value.mapRealsItems]
          cases more with
          | nil => exact readItems_one first
          | cons w others =>
              obtain ⟨blanks, comma, blank⟩ := comma_blank layout depth
              have shape : writeItems layout depth (w :: others) =
                  ',' :: blanks ++ between layout depth (w :: others) := by
                rw [writeItems, comma, between, List.append_assoc]
              rw [shape, List.length_append, List.length_cons] at enough
              have remaining := readItems_between layout depth outer (w :: others) fuel
                (List.cons_ne_nil _ _) dataMore writableMore insideMore (by omega) rest
              rw [shape, List.append_assoc] at first ⊢
              have opens := opens_between layout depth (Bool.and_eq_true_iff.mp dataMore).1 others
              exact readItems_more blank (opens _) first remaining

theorem readEntries_between (layout : Layout) (depth outer : Nat) (entries : List (String × Value))
    {room : Nat} (fuel : Nat) (filled : entries ≠ [])
    (data : Value.entriesAreData Binary64.isFinite entries = true)
    (writable : Value.writableEntries entries = true)
    (inside : Value.withinEntries room entries = true)
    (enough : 2 * (betweenBraces layout depth entries).length + 1 ≤ fuel) (rest : List Char) :
    readEntries room fuel
        (betweenBraces layout depth entries ++ (layout.lineBreak outer ++ '\x7d' :: rest)) =
      .ok (Value.mapRealsEntries respelled entries, rest) := by
  cases entries with
  | nil => exact absurd rfl filled
  | cons entry more =>
      obtain ⟨key, v⟩ := entry
      cases fuel with
      | zero => omega
      | succ fuel =>
          rw [betweenBraces] at enough
          simp only [List.length_append, List.length_cons] at enough
          obtain ⟨dataHere, dataMore⟩ := Bool.and_eq_true_iff.mp data
          obtain ⟨writableHere, writableMore⟩ := Bool.and_eq_true_iff.mp writable
          obtain ⟨insideHere, insideMore⟩ := Bool.and_eq_true_iff.mp inside
          have close := delimited_close layout outer (c := '\x7d') (by decide) rest
          have first := read_write layout depth v fuel dataHere writableHere insideHere
            (by omega) _ (delimited_entries layout depth more close)
          have opens := opens_write layout depth dataHere
            (writeEntries layout depth more ++ (layout.lineBreak outer ++ '\x7d' :: rest))
          rw [betweenBraces, List.append_assoc, List.append_assoc _ (write layout depth v),
            Value.mapRealsEntries]
          cases more with
          | nil => exact readEntries_one opens first
          | cons entry others =>
              obtain ⟨blanks, comma, blank⟩ := comma_blank layout depth
              have shape : writeEntries layout depth (entry :: others) =
                  ',' :: blanks ++ betweenBraces layout depth (entry :: others) := by
                rw [writeEntries, comma, betweenBraces]
                simp only [List.append_assoc]
              simp only [shape, List.length_append, List.length_cons] at enough
              have remaining := readEntries_between layout depth outer (entry :: others) fuel
                (List.cons_ne_nil _ _) dataMore writableMore insideMore (by omega) rest
              rw [shape, List.append_assoc (',' :: blanks)] at first opens ⊢
              exact readEntries_more opens blank (opens_betweenBraces layout depth entry others _) first
                remaining

end

/-- A value that is set off from what may follow it reads back from its text. -/
theorem parse_print (layout : Layout) (v : Value) (data : v.isData Binary64.isFinite = true)
    (writable : v.writable = true) (inside : v.within depthLimit = true) :
    parse (print layout v ++ "\n") = .ok (v.mapReals respelled) := by
  have text : (print layout v ++ "\n").toList = write layout 0 v ++ ['\n'] := by
    rw [print, String.toList_append, String.toList_ofList]
    rfl
  have opens := opens_write layout 0 data ['\n']
  have ends : Delimited ['\n'] := by
    rintro c first
    cases first
    decide
  have steps : 2 * (write layout 0 v).length ≤ enough (write layout 0 v ++ ['\n']) := by
    rw [enough, List.length_append]
    omega
  have reads := read_write layout 0 v _ data writable inside steps ['\n'] ends
  have skipped := skipBlanks_opens opens
  have all : readAll (write layout 0 v ++ ['\n']) = .ok (v.mapReals respelled) := by
    obtain ⟨c, rest, shape, _, _, _, mark⟩ := opens
    rw [readAll, skipped, reads, shape, List.head?_cons, if_neg]
    · rfl
    · exact fun same => mark (Option.some.inj same)
  rw [parse, text, all]

end Json

end Lifecycle
