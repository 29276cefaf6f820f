import Lifecycle.Problem
import Lifecycle.Document.Reader
import Lifecycle.Proofs.Digits
/-!
Times read back from their text: with or without fractions of a second, and in local time, in UTC or
at any offset of less than a day. -/

namespace Lifecycle

namespace Timestamp

open Decimal

/-- A point in time of the calendar. -/
structure Proper (t : Timestamp) : Prop where
  year : 0 < t.year ∧ t.year < 10000
  day : 0 < t.day ∧ t.day ≤ daysInMonth t.year t.month
  hour : t.hour < 24
  minute : t.minute < 60
  second : t.second < 60
  micro : t.micro < 1000000
  offset : ∀ o ∈ t.offset, o.natAbs < 1440

theorem daysInMonth_le (year month : Nat) : daysInMonth year month ≤ 31 := by
  unfold daysInMonth
  split <;> try split
  all_goals omega

theorem month_lt {year month : Nat} (some_day : 0 < daysInMonth year month) : month < 13 := by
  unfold daysInMonth at some_day
  split at some_day <;> omega

theorem takeNumber_padded (count n : Nat) (some_digit : 0 < count) (bound : n < 10 ^ count)
    (fault : Misdating) (rest : List Char) :
    takeNumber count fault (padded count n ++ rest) = .ok (n, rest) := by
  have length := padded_length count n some_digit bound
  have front : (padded count n ++ rest).take count = padded count n := List.take_left' length
  have behind : (padded count n ++ rest).drop count = rest := List.drop_left' length
  have digits : (padded count n).all (fun c => decide (IsDigit c)) = true := by
    rw [List.all_eq_true]
    intro c member
    exact decide_eq_true (isDigit_of_mem_padded count n c member)
  unfold takeNumber
  simp only [front, behind]
  rw [if_pos ⟨length, digits⟩, natural_padded]

theorem takeTwo_padded {n : Nat} (bound : n < 100) (rest : List Char) :
    takeTwo (padded 2 n ++ rest) = some (n, rest) := by
  rw [takeTwo, takeNumber_padded _ _ (by decide) bound]
  rfl

theorem length_le_utf8ByteSize (text : List Char) :
    text.length ≤ (String.ofList text).utf8ByteSize := by
  induction text with
  | nil => exact Nat.zero_le _
  | cons c rest ih =>
      have shape : String.ofList (c :: rest) = String.singleton c ++ String.ofList rest := by
        apply String.toList_injective
        simp
      have width := c.utf8Size_pos
      rw [shape, String.utf8ByteSize_append, String.utf8ByteSize_singleton, List.length_cons]
      omega

/-- What is written behind the clock. -/
def zone : Option Int → List Char
  | none => []
  | some offset => writeOffset offset

/-- What is written behind the date. -/
def clock (t : Timestamp) : List Char :=
  padded 2 t.hour ++ ':' :: padded 2 t.minute ++ ':' :: padded 2 t.second ++
    (if t.micro = 0 then [] else '.' :: padded 6 t.micro) ++ zone t.offset

theorem write_eq (t : Timestamp) :
    t.write = padded 4 t.year ++ ('-' :: (padded 2 t.month ++ ('-' :: (padded 2 t.day ++
      'T' :: t.clock)))) := by
  cases given : t.offset <;> simp [write, clock, zone, given]

theorem takeDate_write {t : Timestamp} (proper : t.Proper) :
    takeDate t.write = .ok ((t.year, t.month, t.day), 'T' :: t.clock) := by
  have longest := daysInMonth_le t.year t.month
  obtain ⟨first, last⟩ := proper.day
  have month := month_lt (Nat.lt_of_lt_of_le first last)
  have size : ¬(String.ofList t.write).utf8ByteSize < 10 := by
    have bytes := length_le_utf8ByteSize t.write
    have written := congrArg List.length (write_eq t)
    simp only [List.length_append, List.length_cons,
      padded_length 4 t.year (by decide) (by have := proper.year; omega),
      padded_length 2 t.month (by decide) (by omega),
      padded_length 2 t.day (by decide) (by omega)] at written
    omega
  unfold takeDate
  rw [if_neg size, write_eq]
  simp only [takeNumber_padded 4 t.year (by decide)
      (by have := proper.year; omega),
    takeNumber_padded 2 t.month (by decide) (by omega),
    takeNumber_padded 2 t.day (by decide) (by omega), takeChar, pure, bind,
    Except.bind, Except.pure, if_true]
  rw [if_neg (by omega), if_neg (by omega)]

/-- Text behind the seconds: nothing, or an offset. -/
def NoFraction (text : List Char) : Prop := ∀ c ∈ text.head?, ¬IsDigit c ∧ c ≠ '.' ∧ c ≠ ','

theorem writeOffset_east (n : Nat) :
    writeOffset (.ofNat (n + 1)) =
      '+' :: padded 2 ((n + 1) / 60) ++ ':' :: padded 2 ((n + 1) % 60) := by
  have positive : ¬Int.ofNat (n + 1) < 0 := Int.not_lt.mpr (Int.natCast_nonneg _)
  rw [writeOffset, if_neg positive]
  · rfl
  · intro zero
    cases zero

theorem writeOffset_west (n : Nat) :
    writeOffset (.negSucc n) =
      '-' :: padded 2 ((n + 1) / 60) ++ ':' :: padded 2 ((n + 1) % 60) := by
  rw [writeOffset, if_pos (Int.negSucc_lt_zero n)]
  · rfl
  · simp

theorem noFraction_zone (offset : Option Int) : NoFraction (zone offset) := by
  intro c first
  match offset with
  | none => cases first
  | some (.ofNat 0) =>
      cases first
      decide
  | some (.ofNat (n + 1)) =>
      rw [zone, writeOffset_east] at first
      cases first
      decide
  | some (.negSucc n) =>
      rw [zone, writeOffset_west] at first
      cases first
      decide

theorem takeMicro_none {rest : List Char} (ends : NoFraction rest) :
    takeMicro rest = some (0, rest) := by
  cases rest with
  | nil => rfl
  | cons c rest =>
      obtain ⟨_, point, comma⟩ := ends c rfl
      rw [takeMicro, if_neg]
      rintro (same | same)
      · exact point same
      · exact comma same

theorem takeMicro_padded {micro : Nat} (bound : micro < 1000000) {rest : List Char}
    (ends : NoFraction rest) :
    takeMicro ('.' :: padded 6 micro ++ rest) = some (micro, rest) := by
  have length := padded_length 6 micro (by decide) bound
  have digits : ∀ c ∈ padded 6 micro, decide (IsDigit c) = true := fun c member =>
    decide_eq_true (isDigit_of_mem_padded 6 micro c member)
  have stops : rest.takeWhile (fun d => decide (IsDigit d)) = [] := by
    cases rest with
    | nil => rfl
    | cons c rest =>
        have other : decide (IsDigit c) = false := decide_eq_false (ends c rfl).1
        rw [List.takeWhile_cons, other]
        rfl
  have written : (padded 6 micro ++ rest).takeWhile (fun d => decide (IsDigit d)) =
      padded 6 micro := by
    rw [List.takeWhile_append_of_pos digits, stops, List.append_nil]
  have filled : (padded 6 micro).isEmpty = false := by
    cases shape : padded 6 micro with
    | nil =>
        rw [shape] at length
        cases length
    | cons c more => rfl
  have six : (padded 6 micro ++ List.replicate 6 '0').take 6 = padded 6 micro :=
    List.take_left' length
  rw [List.cons_append, takeMicro, if_pos (Or.inl rfl)]
  simp only [written, filled, six, natural_padded, Bool.false_eq_true, if_false,
    List.drop_left' rfl]

theorem takeOffset_signed {sign : Char} {direction : Int} (minutes : Nat) (bound : minutes < 1440)
    (either : sign = '+' ∧ direction = 1 ∨ sign = '-' ∧ direction = -1) :
    takeOffset (sign :: padded 2 (minutes / 60) ++ ':' :: padded 2 (minutes % 60)) =
      some (some (direction * minutes)) := by
  have hours := takeTwo_padded (n := minutes / 60) (by omega) (':' :: padded 2 (minutes % 60))
  have rest := takeTwo_padded (n := minutes % 60) (by omega) []
  rw [List.append_nil] at rest
  have whole : minutes / 60 * 60 + minutes % 60 = minutes := by omega
  have inside : ¬(minutes % 60 > 59 ∨ minutes / 60 > 23 ∨ (!([] : List Char).isEmpty) = true) := by
    simp
    omega
  rcases either with ⟨rfl, rfl⟩ | ⟨rfl, rfl⟩
  · rw [List.cons_append, takeOffset]
    · simp only [if_true, hours, rest, whole, bind, Option.bind, if_neg inside]
    · simp
    · simp
  · rw [List.cons_append, takeOffset]
    · have other : ¬('-' = '+') := by decide
      simp only [true_or, if_true, if_neg other, hours, rest, whole, bind, Option.bind,
        if_neg inside]
    · simp
    · simp

theorem takeOffset_write {offset : Int} (bound : offset.natAbs < 1440) :
    takeOffset (writeOffset offset) = some (some offset) := by
  match offset, bound with
  | .ofNat 0, _ => rfl
  | .ofNat (n + 1), bound =>
      have read := takeOffset_signed (n + 1) bound (Or.inl ⟨rfl, rfl⟩)
      rw [writeOffset_east, read, Int.one_mul]
      rfl
  | .negSucc n, bound =>
      have read := takeOffset_signed (n + 1) bound (Or.inr ⟨rfl, rfl⟩)
      rw [writeOffset_west, read]
      congr 2
      omega

theorem takeTime_clock {t : Timestamp} (proper : t.Proper) :
    takeTime (t.year, t.month, t.day) ('T' :: t.clock) = some t := by
  have hour := proper.hour
  have minute := proper.minute
  have second := proper.second
  have fine := noFraction_zone t.offset
  have offset : takeOffset (zone t.offset) = some t.offset := by
    cases given : t.offset with
    | none => rfl
    | some o => exact takeOffset_write (proper.offset o given)
  have micro : takeMicro ((if t.micro = 0 then [] else '.' :: padded 6 t.micro) ++ zone t.offset) =
      some (t.micro, zone t.offset) := by
    split
    · next zero =>
        rw [zero]
        exact takeMicro_none fine
    · exact takeMicro_padded proper.micro fine
  have mark : ¬('T' ≠ 'T' ∧ 'T' ≠ 't' ∧ 'T' ≠ ' ' ∧ 'T' ≠ '_') := by decide
  have inDay : ¬(t.hour > 23 ∨ t.minute > 59) := by omega
  have inMinute : ¬t.second > 59 := by omega
  simp only [clock, takeTime, List.append_assoc, List.cons_append, if_neg mark,
    takeTwo_padded (n := t.hour) (by omega), takeTwo_padded (n := t.minute) (by omega),
    takeTwo_padded (n := t.second) (by omega), takeChar, takeSeconds, micro, offset, if_true,
    Except.toOption, bind, Option.bind, pure, if_neg inDay, if_neg inMinute]

/-- A time of the calendar reads back from its text. -/
theorem read_write {t : Timestamp} (proper : t.Proper) : Timestamp.read t.write = .ok t := by
  rw [Timestamp.read, takeDate_write proper]
  simp only [takeTime_clock proper]

end Timestamp

namespace Reading

theorem time_print {t : Timestamp} (proper : t.Proper) : time (.text t.print) = good t := by
  have calendar : t.year ≠ 0 := Nat.ne_of_gt proper.year.1
  rw [time, Timestamp.print, String.toList_ofList, Timestamp.read_write proper]
  simp only [inCalendar]
  rw [if_neg calendar]

end Reading

end Lifecycle
