import Lifecycle.Proofs.JsonNumber
import Lifecycle.Proofs.Limits
import Lifecycle.Proofs.Received
import Mathlib.Data.List.TakeWhile
/-!
Whole numbers that were read are short enough to be written: what is read from a text has no more digits
than can be read, and so has all that a document takes from it. -/

namespace Lifecycle

namespace Decimal

/-- Whether a whole number can be written. -/
def Short (n : Int) : Prop := n.natAbs < 10 ^ digitLimit

theorem writable_integer {n : Int} : (Value.integer n).writable = true ↔ Short n := by
  rw [Value.writable, decide_eq_true_iff, Short, Nat.pow_eq]

theorem short_of_lt {n : Int} {length : Nat} (below : n.natAbs < 10 ^ length)
    (bound : length ≤ digitLimit) : Short n := by
  rw [Short]
  calc n.natAbs < 10 ^ length := below
    _ ≤ 10 ^ digitLimit := Nat.pow_le_pow_right (by decide) bound

theorem short_flag (b : Bool) : Short (if b then 1 else 0) := by
  have below : (if b then 1 else 0 : Int).natAbs < 10 ^ 1 := by cases b <;> decide
  exact short_of_lt below (by decide)

theorem short_natural {text : List Char} (digits : ∀ c ∈ text, IsDigit c)
    (bound : text.length ≤ digitLimit) (negative : Bool) :
    Short (if negative then -(natural text : Int) else natural text) := by
  apply short_of_lt _ bound
  cases negative with
  | true =>
      rw [if_pos rfl, Int.natAbs_neg, Int.natAbs_natCast]
      exact natural_lt digits
  | false =>
      rw [if_neg Bool.false_ne_true, Int.natAbs_natCast]
      exact natural_lt digits

theorem isDigit_of_plain {digits : List Char} (plain : isPlain digits = true) :
    ∀ c ∈ digits, IsDigit c := by
  rw [isPlain.eq_def] at plain
  split at plain
  · cases plain
  · obtain ⟨all, _⟩ := Bool.and_eq_true_iff.mp plain
    exact fun c member => of_decide_eq_true (List.all_eq_true.mp all c member)

/-- A number that a text spells is short. -/
theorem written_short {text : List Char} {n : Int} (spelled : written? text = some n) : Short n := by
  rw [written?] at spelled
  obtain ⟨bare, _, spelled⟩ := Option.bind_eq_some_iff.mp spelled
  obtain ⟨⟨negative, digits⟩, signed, spelled⟩ := Option.bind_eq_some_iff.mp spelled
  simp only at spelled
  split at spelled
  · cases spelled
  · next bound =>
      unfold signedDigits? at signed
      obtain ⟨plain, same⟩ := Option.ite_none_right_eq_some.mp signed
      cases same
      cases spelled
      exact short_natural (isDigit_of_plain plain) (Nat.le_of_not_lt bound) _

end Decimal

open Decimal (Short)

namespace Json

theorem takeDigits_digits (text : List Char) : ∀ c ∈ (takeDigits text).1, Decimal.IsDigit c := by
  intro c member
  rw [takeDigits, List.span_eq_takeWhile_dropWhile] at member
  have passes := List.mem_takeWhile_imp member
  exact of_decide_eq_true passes

theorem takeWhole_digits {text whole rest : List Char} (taken : takeWhole text = some (whole, rest)) :
    ∀ c ∈ whole, Decimal.IsDigit c := by
  unfold takeWhole at taken
  split at taken
  · cases taken
    exact List.forall_mem_singleton.mpr Decimal.isDigit_zero
  · have digits := takeDigits_digits text
    split at taken
    · cases taken
    · rw [Option.some.inj taken] at digits
      exact digits

theorem number_writable {text rest : List Char} {v : Value}
    (found : number? text = some (.ok (v, rest))) : v.writable = true := by
  unfold number? at found
  simp only at found
  split at found
  · cases found
  · next whole behind taken =>
      split at found
      · split at found
        · cases found
        · next bound =>
            cases found
            rw [Decimal.writable_integer]
            exact Decimal.short_natural (takeWhole_digits taken) (Nat.le_of_not_lt bound) _
      · cases found
        rfl

/-- Data of which a text can hold all. -/
def Writable (v : Value) : Prop := Data v ∧ v.writable = true

/-- Whatever a text is read as can be written again. -/
theorem received_writable : Received Writable where
  word := by simp [words, Writable, Data, Value.isData, Value.writable]
  number found := ⟨number_data found, number_writable found⟩
  text _ := ⟨rfl, rfl⟩
  list each := by
    refine ⟨received_data.list fun v member => (each v member).1, ?_⟩
    rw [Value.writable, Value.writableItems_iff]
    exact fun v member => (each v member).2
  map each := by
    refine ⟨received_data.map fun entry member => (each entry member).1, ?_⟩
    rw [Value.writable, Value.writableEntries_iff]
    exact (Keyed.foldl_put_keeps (·.writable = true) _ [] (by decide) (List.forall_mem_nil _)
      fun entry member => (each entry member).2).2

theorem inherited_writable : Reading.Inherited Writable where
  items := by
    rintro items ⟨data, writable⟩ v member
    rw [Value.writable, Value.writableItems_iff] at writable
    exact ⟨Value.data_of_mem_items data v member, writable v member⟩
  entries := by
    rintro entries ⟨data, writable⟩
    rw [Value.writable, Value.writableEntries_iff] at writable
    exact ⟨Value.distinct_of_data data, fun entry member =>
      ⟨Value.data_of_mem_entries data entry member, writable entry member⟩⟩
  empty := ⟨rfl, rfl⟩

/-- What can be written is read as a whole number that can be written, if as a whole number at all. -/
theorem integer_short (v : Value) (given : Writable v) : (Reading.integer v).Gives Short := by
  have word {n : Int} (small : n.natAbs < Nat.pow 2 63) : Short n :=
    Decimal.short_of_lt (small.trans (by decide : Nat.pow 2 63 < 10 ^ 63)) (by decide)
  unfold Reading.integer
  split
  · exact .good (Decimal.writable_integer.mp given.2)
  · exact .good (Decimal.short_flag _)
  · rw [Reading.integerText]
    split
    · exact .bad _
    · split
      · next spelled => exact .good (Decimal.written_short spelled)
      · exact .bad _
  · split
    · exact .bad _
    · split
      · split
        · next small => exact .good (word small)
        · exact .bad _
      · exact .bad _
  · exact .bad _

end Json

open Value

/-- Metadata that a text can hold but for its depth. -/
abbrev Condition.writable : Condition := .having Json.Writable

theorem Condition.writable_onData : Condition.writable.OnData fun _ => true := fun _ _ good => good.1

theorem writable_metadata {kind : RecordKind} {m : Metadata} (good : Condition.writable kind m) :
    (Value.map (bareEntries m)).writable = true := by
  rw [bareEntries_data Condition.writable_onData good]
  exact good.2

theorem writable_timeText (time : Option Timestamp) : (timeText time).writable = true := by
  cases time <;> rfl

theorem writable_map {entries : List (String × Value)}
    (all : ∀ entry ∈ entries, entry.2.writable = true) : (Value.map entries).writable = true := by
  rw [Value.writable, writableEntries_iff]
  exact all

theorem writable_list {items : List Value} (all : ∀ v ∈ items, v.writable = true) :
    (Value.list items).writable = true := by
  rw [Value.writable, writableItems_iff]
  exact all

theorem Artifact.writable_bare {a : Artifact} (typed : a.Typed .writable) :
    a.toValue.bare.writable = true := by
  obtain ⟨type, path, approved, createdAt, metadata, rfl, _, good⟩ := typed.elim
  rw [bare_artifact]
  apply writable_map
  simp only [List.forall_mem_cons, writable_metadata good]
  simp [Value.writable]

theorem writable_artifacts {list : List Artifact} (typed : ∀ a ∈ list, a.Typed .writable) :
    (Value.list (list.map fun a => a.toValue.bare)).writable = true := by
  apply writable_list
  intro v member
  obtain ⟨a, inside, rfl⟩ := List.mem_map.mp member
  exact Artifact.writable_bare (typed a inside)

theorem Task.writable_bare {t : Task} (typed : t.Typed .writable) (counts : t.iteration.Holds Short) :
    t.toValue.bare.writable = true := by
  obtain ⟨id, name, phase, status, createdAt, updatedAt, startedAt, completedAt, iteration, agent,
    inputs, outputs, metadata, rfl, _, _, _, _, ins, outs, good⟩ := typed.elim
  rw [bare_task]
  apply writable_map
  simp only [List.forall_mem_cons, writable_metadata good, writable_artifacts ins,
    writable_artifacts outs, writable_timeText, Decimal.writable_integer.mpr counts]
  simp [Value.writable]

theorem Phase.writable_bare {p : Phase} (typed : p.Typed .writable) (counts : p.Counts Short) :
    p.toValue.bare.writable = true := by
  obtain ⟨status, enabled, createdAt, startedAt, completedAt, failedAt, iteration, inputs, outputs,
    tasks, metadata, rfl, _, _, _, _, ins, outs, all, good⟩ := typed.elim
  have work : (Value.list (tasks.map fun t => t.toValue.bare)).writable = true := by
    apply writable_list
    intro v member
    obtain ⟨t, inside, rfl⟩ := List.mem_map.mp member
    exact Task.writable_bare (all t inside) (Many.holds_ofList.mp counts.tasks t inside)
  rw [bare_phase]
  apply writable_map
  simp only [List.forall_mem_cons, writable_metadata good, writable_artifacts ins,
    writable_artifacts outs, work, writable_timeText, Decimal.writable_integer.mpr counts.iteration]
  simp [Value.writable]

theorem Document.writable_bare {d : Document} (typed : d.Typed .writable) (counts : d.Counts Short) :
    d.toValue.bare.writable = true := by
  obtain ⟨name, type, branch, description, createdAt, updatedAt, phases, statechart, sessions, rfl, _,
    _, _, all, chart, _⟩ := typed.elim
  obtain ⟨current, noted, rfl, _⟩ := chart.elim
  have each := (Table.holds_ofEntries.mp counts).2
  have phasesWritable :
      (Value.map (phases.map fun entry => (entry.1, entry.2.toValue.bare))).writable = true := by
    apply writable_map
    intro entry member
    obtain ⟨other, inside, rfl⟩ := List.mem_map.mp member
    exact Phase.writable_bare (all other inside) (each other inside)
  have sessionsWritable :
      (Value.map (sessions.map fun entry => (entry.1, Value.text entry.2))).writable = true := by
    apply writable_map
    intro entry member
    obtain ⟨other, _, rfl⟩ := List.mem_map.mp member
    rfl
  have chartWritable : (Value.map [("current_state", .text current),
      ("updated_at", .text noted.print)]).writable = true := rfl
  rw [bare_document, bare_statechart]
  apply writable_map
  simp only [List.forall_mem_cons, phasesWritable, sessionsWritable, chartWritable]
  simp [Value.writable]

/-- Of a document that was read a text can hold all that does not nest too deeply. -/
theorem FileStore.decode_writable {now : Timestamp} (proper : now.Proper) {path text : String}
    {d : Document} (decoded : decode path now text = .ok d) : d.toValue.bare.writable = true := by
  unfold decode at decoded
  split at decoded
  · cases decoded
  · cases decoded
  · next v parsed =>
      have zero : Short 0 := Decimal.short_flag false
      have one : Short 1 := Decimal.short_flag true
      have read := Document.read_typed Json.inherited_writable Json.integer_short zero one proper
        (Json.received_writable.parse parsed)
      split at decoded
      · cases decoded
      · obtain ⟨typed, counts⟩ := read d (Reading.value_of_result decoded)
        exact Document.writable_bare typed counts

end Lifecycle
