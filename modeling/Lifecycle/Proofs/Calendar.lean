import Lifecycle.Proofs.Rounding
import Lifecycle.Proofs.Timestamp
import Mathlib.Order.Monotone.Basic
/-!
Times that are read are in the calendar, whether they come from a text, a number of seconds or a
number of milliseconds. -/

namespace Lifecycle

theorem Except.ok_of_bind {ε α β : Type} {r : Except ε α} {next : α → Except ε β} {b : β}
    (done : (r >>= next) = .ok b) : ∃ a, r = .ok a ∧ next a = .ok b := by
  cases r with
  | error fault => cases done
  | ok a => exact ⟨a, rfl, done⟩

namespace Decimal

theorem natural_lt {written : List Char} (all : ∀ c ∈ written, IsDigit c) :
    natural written < 10 ^ written.length := by
  induction written using List.reverseRecOn with
  | nil => decide
  | append_singleton front c ih =>
      have rest := ih fun d member => all d (List.mem_append_left [c] member)
      have last := all c (List.mem_append_right front (List.mem_singleton_self c))
      have digit := (isDigit_iff c).mp last
      rw [natural_append_singleton, List.length_append, List.length_singleton, Nat.pow_succ]
      omega

end Decimal

namespace Timestamp

open Decimal

/-- On which day of its era a year begins, the first of March being the first day of both. -/
def yearStart (year : Nat) : Nat := 365 * year + year / 4 - year / 100 + year / 400

/-- Days of an era but for those that leap years add. -/
def plainDay (day : Nat) : Nat := day - day / 1460 + day / 36524 - day / 146096

theorem plainDay_mono : Monotone plainDay := by
  apply monotone_nat_of_le_succ
  intro day
  have years : (day + 1) / 1460 ≤ day / 1460 + 1 := by omega
  have centuries : day / 36524 ≤ (day + 1) / 36524 := by omega
  have eras (n : Nat) : n / 146096 = n / 36524 / 4 := (Nat.div_div_eq_div_mul n 36524 4).symm
  rw [plainDay, plainDay, eras, eras]
  omega

theorem plainDay_yearStart : ∀ year < 400, plainDay (yearStart year) = 365 * year ∧
    plainDay (yearStart (year + 1) - 1) < 365 * (year + 1) := by
  decide +kernel

/-- The year of a day is found by dividing: since the plain days never go back, it is enough that
this holds of the first and the last day of each year. -/
theorem yearStart_bounds {day : Nat} (bound : day < 146097) :
    plainDay day / 365 < 400 ∧ yearStart (plainDay day / 365) ≤ day ∧
      day < yearStart (plainDay day / 365 + 1) := by
  have last : plainDay day ≤ plainDay 146096 := plainDay_mono (by omega)
  have value : plainDay 146096 = 145999 := by decide +kernel
  have inEra : plainDay day / 365 < 400 := by omega
  generalize same : plainDay day / 365 = year at *
  refine ⟨inEra, ?_, ?_⟩
  · by_contra before
    cases year with
    | zero => exact before (Nat.zero_le _)
    | succ earlier =>
        have less : plainDay day ≤ plainDay (yearStart (earlier + 1) - 1) :=
          plainDay_mono (by omega)
        have ends := (plainDay_yearStart earlier (by omega)).2
        omega
  · by_contra behind
    have more : plainDay (yearStart (year + 1)) ≤ plainDay day := plainDay_mono (by omega)
    by_cases final : year = 399
    · subst final
      have whole : yearStart (399 + 1) = 146097 := by decide +kernel
      omega
    · have starts := (plainDay_yearStart (year + 1) (by omega)).1
      omega

/-- Only the last day of a year that begins in March can be one that common years lack. -/
theorem day_in_month : ∀ dayOfYear < 366,
    let fromMarch := (5 * dayOfYear + 2) / 153
    let day := dayOfYear - (153 * fromMarch + 2) / 5 + 1
    let month := if fromMarch < 10 then fromMarch + 3 else fromMarch - 9
    day ≤ daysInMonth 1 month ∨ dayOfYear = 365 ∧ month = 2 ∧ day = 29 := by
  decide +kernel

theorem daysInMonth_least (year month : Nat) : daysInMonth 1 month ≤ daysInMonth year month := by
  have common : isLeap 1 = false := rfl
  unfold daysInMonth
  rw [common]
  split
  case h_12 =>
      by_cases leap : isLeap year = true
      · rw [if_pos leap]
        decide
      · rw [if_neg leap]
        decide
  all_goals exact Nat.le_refl _

/-- What a day of a year is called, the year counted within an era. -/
def dateOf (era : Int) (year day : Nat) : Nat × Nat × Nat :=
  let fromMarch := (5 * day + 2) / 153
  let month := if fromMarch < 10 then fromMarch + 3 else fromMarch - 9
  ((era * 400 + year + (if month ≤ 2 then 1 else 0)).toNat, month,
    day - (153 * fromMarch + 2) / 5 + 1)

theorem ofDays_eq (days : Int) :
    ∃ (era : Int) (year day : Nat), ofDays days = dateOf era year day ∧ year < 400 ∧
      day + yearStart year < yearStart (year + 1) ∧
      days + 719468 = era * 146097 + yearStart year + day := by
  have within : 0 ≤ (days + 719468) - (days + 719468).fdiv 146097 * 146097 ∧
      (days + 719468) - (days + 719468).fdiv 146097 * 146097 < 146097 := by
    rw [Int.fdiv_eq_ediv_of_nonneg _ (by decide)]
    omega
  obtain ⟨day, inEra⟩ := Int.eq_ofNat_of_zero_le within.1
  obtain ⟨small, starts, ends⟩ := yearStart_bounds (show day < 146097 by omega)
  refine ⟨(days + 719468).fdiv 146097, plainDay day / 365, day - yearStart (plainDay day / 365),
    ?_, small, by omega, by omega⟩
  have since : day - yearStart (plainDay day / 365) = day - (365 * (plainDay day / 365) +
      plainDay day / 365 / 4 - plainDay day / 365 / 100) := by
    rw [yearStart, Nat.div_eq_of_lt small, Nat.add_zero]
  rw [ofDays, inEra, since]
  rfl

theorem dateOf_day (era : Int) {year day : Nat} (small : year < 400)
    (within : day + yearStart year < yearStart (year + 1)) :
    (dateOf era year day).2.2 ≤ daysInMonth (dateOf era year day).1 (dateOf era year day).2.1 := by
  have length : day < 366 := by
    unfold yearStart at within
    omega
  rcases day_in_month day length with fits | ⟨last, february, leapDay⟩
  · exact Nat.le_trans fits (daysInMonth_least _ _)
  · have leap : isLeap (era * 400 + year + 1).toNat = true := by
      have divisible : (year + 1) % 4 = 0 ∧ ((year + 1) % 100 ≠ 0 ∨ (year + 1) % 400 = 0) := by
        unfold yearStart at within
        omega
      unfold isLeap
      simp only [Bool.and_eq_true, Bool.or_eq_true, decide_eq_true_eq, bne_iff_ne]
      omega
    unfold dateOf
    simp only [february, leapDay, if_pos (Nat.le_refl 2)]
    rw [daysInMonth, leap]
    exact Nat.le_refl _

/-- The days of the years zero to 9999 have a date in these years. -/
theorem ofDays_date {days : Int} (low : -719528 ≤ days) (high : days ≤ 2932896) :
    (ofDays days).1 < 10000 ∧ 0 < (ofDays days).2.2 ∧
      (ofDays days).2.2 ≤ daysInMonth (ofDays days).1 (ofDays days).2.1 := by
  obtain ⟨era, year, day, shape, small, within, place⟩ := ofDays_eq days
  rw [shape]
  refine ⟨?_, Nat.succ_pos _, dateOf_day era small within⟩
  unfold yearStart at within place
  unfold dateOf
  simp only
  split <;> omega

/-- In the calendar, but for the year zero. -/
def Dated (t : Timestamp) : Prop := t.year ≠ 0 → t.Proper

theorem ofSeconds_dated {seconds : Int} {micro : Nat}
    (low : leastSeconds ≤ seconds + (micro / 1000000 : Nat))
    (high : seconds + (micro / 1000000 : Nat) ≤ greatestSeconds) :
    (ofSeconds seconds micro (some 0)).Dated := by
  intro calendar
  unfold leastSeconds at low
  unfold greatestSeconds at high
  generalize total : seconds + (micro / 1000000 : Nat) = moment at *
  have days : moment.fdiv 86400 = moment / 86400 := Int.fdiv_eq_ediv_of_nonneg _ (by decide)
  obtain ⟨year, some_day, day⟩ :=
    ofDays_date (show -719528 ≤ moment / 86400 by omega) (by omega)
  have shape : ofSeconds seconds micro (some 0) =
      ⟨(ofDays (moment / 86400)).1, (ofDays (moment / 86400)).2.1, (ofDays (moment / 86400)).2.2,
        (moment - moment / 86400 * 86400).toNat / 3600,
        (moment - moment / 86400 * 86400).toNat / 60 % 60,
        (moment - moment / 86400 * 86400).toNat % 60, micro % 1000000, some 0⟩ := by
    rw [← days, ← total]
    rfl
  rw [shape] at calendar ⊢
  exact {
    year := ⟨Nat.pos_of_ne_zero calendar, year⟩
    day := ⟨some_day, day⟩
    hour := by simp only; omega
    minute := Nat.mod_lt _ (by decide)
    second := Nat.mod_lt _ (by decide)
    micro := Nat.mod_lt _ (by decide)
    offset := by
      intro o given
      obtain rfl := Option.some.inj given
      decide }

theorem ofClock_dated {seconds : Int} {micro : Nat} {t : Timestamp}
    (carry : seconds ≤ greatestSeconds → seconds + (micro / 1000000 : Nat) ≤ greatestSeconds)
    (made : ofClock seconds micro = .ok t) : t.Dated := by
  unfold ofClock at made
  split at made
  · cases made
  · next late =>
      split at made
      · cases made
      · next early =>
          obtain rfl := Except.ok.inj made
          exact ofSeconds_dated (by omega) (carry (by omega))

/-- Rounding parts of a millisecond up to a whole one stays within the last second of the calendar. -/
theorem ofMillis_dated {millis : Int} {micro : Nat} {t : Timestamp} (bound : micro ≤ 1000)
    (last : millis = greatestSeconds * 1000 + 999 → micro < 1000)
    (made : ofMillis millis micro = .ok t) : t.Dated := by
  have second : millis.fdiv 1000 = millis / 1000 := Int.fdiv_eq_ediv_of_nonneg _ (by decide)
  have rest : millis.fmod 1000 = millis % 1000 := Int.fmod_eq_emod_of_nonneg _ (by decide)
  rw [ofMillis, second, rest] at made
  refine ofClock_dated ?_ made
  unfold greatestSeconds at last ⊢
  omega

theorem ofCount_dated {count : Int} {t : Timestamp} (made : ofCount count = .ok t) : t.Dated := by
  unfold ofCount at made
  split at made
  · exact ofClock_dated (by simp) made
  · exact ofMillis_dated (Nat.zero_le _) (fun _ => Nat.zero_lt_succ _) made

theorem last_millisecond : ∀ k < 6, ∀ part < 2 ^ k,
    ((Binary64.ofFraction false part (2 ^ k)).times 1000).nearest < 1000 := by
  decide +kernel

theorem ofReal_dated {x : Binary64} {t : Timestamp} (made : ofReal x = .ok t) : t.Dated := by
  unfold ofReal at made
  split at made
  · cases made
  split at made
  · cases made
  simp only at made
  split at made
  · refine ofMillis_dated (x.nearest_rest_le (by decide)) ?_ made
    intro last
    have large : 2 ^ 47 ≤ x.floor.1 := by
      rw [last]
      decide
    obtain ⟨k, few, part, inside, rest⟩ := Binary64.floor_rest_coarse large
    rw [rest]
    exact last_millisecond k few part inside
  · next small =>
      refine ofClock_dated ?_ made
      have whole := Binary64.floor_le (Bool.eq_false_iff.mpr small)
      have micro := x.nearest_rest_le (show 1000000 < 2 ^ 53 by decide)
      unfold watershed at whole
      unfold greatestSeconds
      omega

theorem takeNumber_lt {count n : Nat} {fault : Misdating} {text rest : List Char}
    (taken : takeNumber count fault text = .ok (n, rest)) : n < 10 ^ count := by
  unfold takeNumber at taken
  simp only at taken
  split at taken
  · next inside =>
      obtain ⟨length, digits⟩ := inside
      cases taken
      have bound := natural_lt fun c (member : c ∈ text.take count) =>
        of_decide_eq_true (List.all_eq_true.mp digits c member)
      rwa [length] at bound
  · cases taken

theorem takeDate_ok {text rest : List Char} {year month day : Nat}
    (taken : takeDate text = .ok ((year, month, day), rest)) :
    year < 10000 ∧ 0 < day ∧ day ≤ daysInMonth year month := by
  unfold takeDate at taken
  split at taken
  · cases taken
  obtain ⟨⟨y, _⟩, years, taken⟩ := Except.ok_of_bind taken
  obtain ⟨_, _, taken⟩ := Except.ok_of_bind taken
  obtain ⟨⟨m, _⟩, _, taken⟩ := Except.ok_of_bind taken
  obtain ⟨_, _, taken⟩ := Except.ok_of_bind taken
  obtain ⟨⟨d, _⟩, _, taken⟩ := Except.ok_of_bind taken
  simp only at taken
  split at taken
  · cases taken
  split at taken
  · cases taken
  · next inside =>
      cases taken
      have bound := takeNumber_lt years
      exact ⟨bound, by omega⟩

theorem takeMicro_lt {micro : Nat} {text behind : List Char}
    (taken : takeMicro text = some (micro, behind)) : micro < 1000000 := by
  cases text with
  | nil =>
      cases taken
      decide
  | cons c rest =>
      rw [takeMicro] at taken
      split at taken
      · simp only at taken
        split at taken
        · cases taken
        · cases taken
          have all : ∀ d ∈ rest.takeWhile (fun d => decide (IsDigit d)) ++ List.replicate 6 '0',
              IsDigit d := by
            intro d member
            rcases List.mem_append.mp member with written | filling
            · exact of_decide_eq_true (List.all_eq_true.mp List.all_takeWhile d written)
            · rw [List.eq_of_mem_replicate filling]
              exact isDigit_zero
          have bound := natural_lt fun d (member : d ∈ List.take 6 _) =>
            all d (List.mem_of_mem_take member)
          have six : ((rest.takeWhile (fun d => decide (IsDigit d)) ++
              List.replicate 6 '0').take 6).length = 6 := by
            rw [List.length_take, List.length_append, List.length_replicate]
            omega
          rwa [six] at bound
      · cases taken
        decide

theorem takeSeconds_lt {second micro : Nat} {text rest : List Char}
    (taken : takeSeconds text = some ((second, micro), rest)) :
    second < 60 ∧ micro < 1000000 := by
  unfold takeSeconds at taken
  split at taken
  · obtain ⟨⟨s, _⟩, _, taken⟩ := Option.bind_eq_some_iff.mp taken
    simp only at taken
    split at taken
    · cases taken
    · obtain ⟨⟨m, _⟩, fraction, taken⟩ := Option.bind_eq_some_iff.mp taken
      cases taken
      exact ⟨by omega, takeMicro_lt fraction⟩
  · cases taken
    decide

theorem takeOffset_lt {offset : Option Int} {text : List Char}
    (taken : takeOffset text = some offset) : ∀ o ∈ offset, o.natAbs < 1440 := by
  unfold takeOffset at taken
  split at taken
  · cases taken
    nofun
  · cases taken
    simp
  · cases taken
    simp
  · simp only [Option.bind_eq_bind, Option.bind_some, Option.bind_none] at taken
    split at taken
    on_goal 2 => split at taken
    on_goal 3 => cases taken
    all_goals
      obtain ⟨⟨hours, _⟩, _, taken⟩ := Option.bind_eq_some_iff.mp taken
      obtain ⟨⟨minutes, _⟩, _, taken⟩ := Option.bind_eq_some_iff.mp taken
      simp only at taken
      split at taken
      · cases taken
      · cases taken
        simp only [Option.mem_def, Option.some.injEq, forall_eq']
        omega

theorem takeTime_dated {year month day : Nat} {text : List Char} {t : Timestamp}
    (date : year < 10000 ∧ 0 < day ∧ day ≤ daysInMonth year month)
    (taken : takeTime (year, month, day) text = some t) : t.Dated := by
  unfold takeTime at taken
  simp only at taken
  split at taken
  · cases taken
    intro calendar
    exact {
      year := ⟨Nat.pos_of_ne_zero calendar, date.1⟩
      day := date.2
      hour := Nat.succ_pos 23
      minute := Nat.succ_pos 59
      second := Nat.succ_pos 59
      micro := Nat.succ_pos 999999
      offset := by simp }
  · split at taken
    · cases taken
    obtain ⟨⟨hour, _⟩, _, taken⟩ := Option.bind_eq_some_iff.mp taken
    obtain ⟨_, _, taken⟩ := Option.bind_eq_some_iff.mp taken
    obtain ⟨⟨minute, _⟩, _, taken⟩ := Option.bind_eq_some_iff.mp taken
    simp only at taken
    split at taken
    · cases taken
    obtain ⟨⟨⟨second, micro⟩, _⟩, seconds, taken⟩ := Option.bind_eq_some_iff.mp taken
    obtain ⟨offset, zone, taken⟩ := Option.bind_eq_some_iff.mp taken
    cases taken
    obtain ⟨second, micro⟩ := takeSeconds_lt seconds
    intro calendar
    exact {
      year := ⟨Nat.pos_of_ne_zero calendar, date.1⟩
      day := date.2
      hour := by simp only; omega
      minute := by simp only; omega
      second := second
      micro := micro
      offset := takeOffset_lt zone }

theorem count_dated {text : List Char} {t : Timestamp} (counted : count? text = some (.ok t)) :
    t.Dated := by
  unfold count? at counted
  split at counted
  · next count whole => exact ofCount_dated (Option.some.inj counted)
  · obtain ⟨x, _, made⟩ := Option.map_eq_some_iff.mp counted
    exact ofReal_dated made

theorem read_dated {text : List Char} {t : Timestamp} (made : read text = .ok t) : t.Dated := by
  unfold read at made
  split at made
  · next date rest taken =>
      obtain ⟨year, month, day⟩ := date
      split at made
      · next time clock =>
          cases made
          exact takeTime_dated (takeDate_ok taken) clock
      · cases made
  · cases counted : count? text with
    | none =>
        rw [counted] at made
        cases made
    | some outcome =>
        rw [counted] at made
        cases outcome with
        | error beyond =>
            simp only at made
            split at made <;> cases made
        | ok time =>
            cases made
            exact count_dated counted

end Timestamp

end Lifecycle
