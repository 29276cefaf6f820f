import Lifecycle.Json.Printer
import Lifecycle.Json.Reader
import Lifecycle.Proofs.Digits
/-!
Every text reads back from its escaped form: characters that have an escape of their own, those
written by one UTF-16 unit, and those written by two. -/

namespace Lifecycle.Json

open Text

theorem readUnit_unit {code : Nat} (bound : code < 0x10000) (next : Char) (rest : List Char) :
    readUnit ('u' :: hex 4 code ++ next :: rest) = .ok (code, next :: rest) := by
  have value : hexNumber? (hex 4 code) = some code := by
    rw [hexNumber_hex]
    exact congrArg some (Nat.mod_eq_of_lt bound)
  obtain ⟨a, b, c, d, written⟩ : ∃ a b c d, hex 4 code = [a, b, c, d] := ⟨_, _, _, _, rfl⟩
  rw [written] at value ⊢
  simp only [List.cons_append, List.nil_append, readUnit]
  rw [value]

/-- A unit that is no surrogate stands for itself, whatever follows. -/
theorem unescape_unit (opened : Nat) {code : Nat} (bound : code < 0x10000)
    (plain : code < 0xd800 ∨ 0xe000 ≤ code) (next : Char) (rest : List Char) :
    unescape opened ('u' :: hex 4 code ++ next :: rest) =
      .ok (Char.ofNat code, next :: rest) := by
  have unit := readUnit_unit bound next rest
  rw [List.cons_append] at unit ⊢
  have notHigh : ¬(0xd800 ≤ code ∧ code < 0xdc00 ∧ (next :: rest).length > 6 ∧
      (next :: rest).take 2 = ['\\', 'u']) := by
    rintro ⟨low, high, _⟩
    omega
  have notSurrogate : ¬(0xd800 ≤ code ∧ code < 0xe000) := by
    rintro ⟨low, high⟩
    omega
  simp only [unescape, unit, bind, Except.bind]
  rw [if_neg notHigh, ofUnit, if_neg notSurrogate]
  rfl

/-- A high surrogate and a low one stand together for the character that they encode. -/
theorem unescape_pair (opened offset : Nat) (bound : offset < 0x100000) (next : Char)
    (rest : List Char) :
    unescape opened ('u' :: hex 4 (0xd800 + offset / 0x400) ++
        unit (0xdc00 + offset % 0x400) ++ next :: rest) =
      .ok (Char.ofNat (0x10000 + offset), next :: rest) := by
  rw [List.append_assoc, unit]
  have high : 0xd800 + offset / 0x400 < 0x10000 := by omega
  have low : 0xdc00 + offset % 0x400 < 0x10000 := by omega
  have first := readUnit_unit high '\\' ('u' :: hex 4 (0xdc00 + offset % 0x400) ++ next :: rest)
  have second := readUnit_unit low next rest
  have four := hex_length 4 (0xdc00 + offset % 0x400)
  simp only [List.cons_append] at first second ⊢
  simp only [unescape, first, bind, Except.bind]
  rw [if_pos, List.drop_one, List.tail_cons, second]
  · have isLow : 0xdc00 ≤ 0xdc00 + offset % 0x400 ∧ 0xdc00 + offset % 0x400 < 0xe000 := by omega
    simp only
    rw [if_pos isLow]
    have whole : 0x10000 + (0xd800 + offset / 0x400 - 0xd800) * 0x400 +
        (0xdc00 + offset % 0x400 - 0xdc00) = 0x10000 + offset := by omega
    rw [whole]
    rfl
  · refine ⟨by omega, by omega, ?_, rfl⟩
    simp only [List.length_cons, List.length_append, four]
    omega

/-- The next characters are read from where the escape ended. -/
theorem chars_of_unescape {opened : Nat} {front behind more rest : List Char} {c : Char}
    (read : unescape opened (front ++ behind) = .ok (c, behind))
    (tail : chars opened behind = .ok (more, rest)) :
    chars opened ('\\' :: front ++ behind) = .ok (c :: more, rest) := by
  rw [List.cons_append, chars, read]
  have passed : (front ++ behind).drop ((front ++ behind).length - behind.length) = behind := by
    rw [List.length_append, Nat.add_sub_cancel]
    exact List.drop_left
  simp only [passed, tail]

theorem chars_plain {opened : Nat} {c : Char} {behind more rest : List Char}
    (notQuote : c ≠ '"') (notSlash : c ≠ '\\') (visible : 0x20 ≤ c.toNat)
    (tail : chars opened behind = .ok (more, rest)) :
    chars opened (c :: behind) = .ok (c :: more, rest) := by
  rw [chars]
  · rw [if_neg (by omega), tail]
  · exact notQuote
  · exact notSlash

theorem unescape_simple {opened : Nat} {mark c : Char} (named : simpleEscape? mark = some c)
    (notUnit : mark ≠ 'u') (behind : List Char) :
    unescape opened ([mark] ++ behind) = .ok (c, behind) := by
  rw [List.singleton_append, unescape]
  · rw [named]
  · exact notUnit

theorem eq_of_toNat_eq {c d : Char} (same : c.toNat = d.toNat) : c = d := by
  rw [← Char.ofNat_toNat c, same, Char.ofNat_toNat]

theorem not_surrogate (c : Char) : c.toNat < 0xd800 ∨ 0xe000 ≤ c.toNat := by
  have valid := c.valid
  rcases valid with low | ⟨high, _⟩
  · exact Or.inl low
  · exact Or.inr high

theorem toNat_bound (c : Char) : c.toNat < 0x110000 := by
  have valid := c.valid
  rcases valid with low | ⟨_, high⟩
  · have : c.toNat < 0xd800 := low
    omega
  · exact high

/-- One character is read from its escaped form, whatever form that takes. -/
theorem chars_escapeChar {opened : Nat} {behind more rest : List Char} (c : Char)
    (tail : chars opened behind = .ok (more, rest)) :
    chars opened (escapeChar c ++ behind) = .ok (c :: more, rest) := by
  cases behind with
  | nil =>
      rw [chars] at tail
      contradiction
  | cons next others =>
      unfold escapeChar
      simp only
      split_ifs with quote slash newline return_ tab feed back plain small
      · subst quote
        exact chars_of_unescape (unescape_simple rfl (by decide) _) tail
      · subst slash
        exact chars_of_unescape (unescape_simple rfl (by decide) _) tail
      · subst newline
        exact chars_of_unescape (unescape_simple rfl (by decide) _) tail
      · subst return_
        exact chars_of_unescape (unescape_simple rfl (by decide) _) tail
      · subst tab
        exact chars_of_unescape (unescape_simple rfl (by decide) _) tail
      · have same : c = '\x0c' := eq_of_toNat_eq feed
        subst same
        exact chars_of_unescape (unescape_simple rfl (by decide) _) tail
      · have same : c = '\x08' := eq_of_toNat_eq back
        subst same
        exact chars_of_unescape (unescape_simple rfl (by decide) _) tail
      · exact chars_plain quote slash plain.1 tail
      · have read := unescape_unit opened small (not_surrogate c) next others
        rw [Char.ofNat_toNat] at read
        exact chars_of_unescape read tail
      · have bound := toNat_bound c
        have pair := unescape_pair opened (c.toNat - 0x10000) (by omega) next
          others
        have whole : 0x10000 + (c.toNat - 0x10000) = c.toNat := by omega
        rw [whole, Char.ofNat_toNat] at pair
        exact chars_of_unescape pair tail

/-- The characters of a text are read up to the quote that closes it. -/
theorem chars_escaped (opened : Nat) (text rest : List Char) :
    chars opened (text.flatMap escapeChar ++ '"' :: rest) = .ok (text, rest) := by
  induction text with
  | nil =>
      rw [List.flatMap_nil, List.nil_append, chars]
  | cons c text ih =>
      rw [List.flatMap_cons, List.append_assoc]
      exact chars_escapeChar c ih

end Lifecycle.Json
