import Lifecycle.Proofs.Calendar
import Lifecycle.Proofs.Codec
import Lifecycle.Project.Storing
/-!
What is received is what it should be: values read from JSON text are data, and in a document read
from data everything is what belongs in its place, whatever the text was. -/

namespace Lifecycle

namespace Keyed

variable {κ α : Type} [DecidableEq κ]

theorem mem_put {table : Keyed κ α} {k : κ} {a : α} {entry : κ × α}
    (member : entry ∈ put table k a) : entry.2 = a ∨ entry ∈ table := by
  induction table with
  | nil =>
      rw [put, List.mem_singleton] at member
      exact .inl (congrArg Prod.snd member)
  | cons first rest ih =>
      obtain ⟨key, old⟩ := first
      rw [put] at member
      split at member
      · rcases List.mem_cons.mp member with rfl | later
        · exact .inl rfl
        · exact .inr (List.mem_cons_of_mem _ later)
      · rcases List.mem_cons.mp member with rfl | later
        · exact .inr List.mem_cons_self
        · exact (ih later).imp_right (List.mem_cons_of_mem _)

theorem foldl_put_keeps (property : α → Prop) (entries table : Keyed κ α)
    (distinct : Distinct table) (has : ∀ entry ∈ table, property entry.2)
    (each : ∀ entry ∈ entries, property entry.2) :
    Distinct (entries.foldl (fun table entry => put table entry.1 entry.2) table) ∧
      ∀ entry ∈ entries.foldl (fun table entry => put table entry.1 entry.2) table,
        property entry.2 := by
  induction entries generalizing table with
  | nil => exact ⟨distinct, has⟩
  | cons entry rest ih =>
      refine ih _ (distinct_put distinct _ _) ?_ fun later member =>
        each later (List.mem_cons_of_mem _ member)
      intro old member
      rcases mem_put member with same | before
      · rw [same]
        exact each entry List.mem_cons_self
      · exact has old before

end Keyed

namespace Json

/-- What all that is read from JSON text has: what stands by itself has it, and so has every list and map
in which everything has it. -/
structure Received (has : Value → Prop) : Prop where
  word : ∀ entry ∈ words, has entry.2
  number : ∀ {text rest v}, number? text = some (.ok (v, rest)) → has v
  text : ∀ s, has (.text s)
  list : ∀ {items}, (∀ v ∈ items, has v) → has (.list items)
  map : ∀ {entries}, (∀ entry ∈ entries, has entry.2) → has (.map (Keyed.ofList entries))

namespace Received

variable {has : Value → Prop} (received : Received has)

include received in
theorem word? {text rest : List Char} {v : Value} (found : word? text = some (v, rest)) : has v := by
  obtain ⟨entry, first, same⟩ := Option.map_eq_some_iff.mp found
  cases same
  exact received.word entry (List.mem_of_find?_eq_some first)

/-- Whether all that is read with that much fuel has it. -/
structure Reads (has : Value → Prop) (fuel : Nat) : Prop where
  value : ∀ {room text v rest}, read room fuel text = .ok (v, rest) → has v
  items : ∀ {room text list rest}, readItems room fuel text = .ok (list, rest) → ∀ v ∈ list, has v
  entries : ∀ {room text list rest}, readEntries room fuel text = .ok (list, rest) →
    ∀ entry ∈ list, has entry.2

include received in
theorem read {fuel : Nat} (inner : Reads has fuel) {room : Nat} {text rest : List Char}
    {v : Value} (done : read room (fuel + 1) text = .ok (v, rest)) : has v := by
  unfold Json.read at done
  split at done
  · split at done
    · cases done
    · cases done
      exact received.text _
  · split at done
    · cases done
    · split at done
      · cases done
        exact received.list (List.forall_mem_nil _)
      · split at done
        · cases done
        · next found =>
            cases done
            exact received.list (inner.items found)
  · split at done
    · cases done
    · split at done
      · cases done
        exact received.map (List.forall_mem_nil _)
      · split at done
        · cases done
        · next found =>
            cases done
            exact received.map (inner.entries found)
  · split at done
    · next found =>
        cases done
        exact received.word? found
    · split at done
      · next found =>
          cases done
          exact received.number found
      · cases done

theorem readItems {fuel : Nat} (inner : Reads has fuel) {room : Nat} {text rest : List Char}
    {list : List Value} (done : readItems room (fuel + 1) text = .ok (list, rest)) :
    ∀ v ∈ list, has v := by
  unfold Json.readItems at done
  split at done
  · cases done
  · next first =>
      have head := inner.value first
      split at done
      · cases done
        exact List.forall_mem_singleton.mpr head
      · split at done
        · cases done
        · next others =>
            cases done
            exact List.forall_mem_cons.mpr ⟨head, inner.items others⟩
      · cases done

theorem readEntries {fuel : Nat} (inner : Reads has fuel) {room : Nat}
    {text rest : List Char} {list : List (String × Value)}
    (done : readEntries room (fuel + 1) text = .ok (list, rest)) : ∀ entry ∈ list, has entry.2 := by
  unfold Json.readEntries at done
  split at done
  case h_2 => cases done
  split at done
  · cases done
  split at done
  case h_2 => cases done
  split at done
  · cases done
  · next first =>
      have head := inner.value first
      split at done
      · cases done
        exact List.forall_mem_singleton.mpr head
      · split at done
        · cases done
        · next others =>
            cases done
            exact List.forall_mem_cons.mpr ⟨head, inner.entries others⟩
      · cases done

include received

theorem reads (fuel : Nat) : Reads has fuel := by
  induction fuel with
  | zero =>
      constructor
      · intro room text v rest done
        cases done
      · intro room text list rest done
        cases done
      · intro room text list rest done
        cases done
  | succ fuel ih => exact ⟨received.read ih, readItems ih, readEntries ih⟩

theorem parse {text : String} {v : Value} (parsed : parse text = .ok v) : has v := by
  unfold Json.parse at parsed
  split at parsed
  · next found =>
      cases parsed
      unfold readAll at found
      split at found
      · cases found
      · split at found
        · cases found
        · next first =>
            split at found
            · cases found
              exact (received.reads _).value first
            · cases found
  · cases parsed
  · cases parsed

end Received

/-- Reals of any kind can be written in JSON text as it is read here. -/
abbrev Data (v : Value) : Prop := v.isData (fun _ => true) = true

theorem number_data {text rest : List Char} {v : Value}
    (found : number? text = some (.ok (v, rest))) : Data v := by
  unfold number? at found
  simp only at found
  split at found
  · cases found
  · split at found
    · split at found
      · cases found
      · cases found
        rfl
    · cases found
      rfl

theorem map_data {entries : List (String × Value)} (each : ∀ entry ∈ entries, Data entry.2) :
    Data (.map (Keyed.ofList entries)) := by
  obtain ⟨distinct, all⟩ := Keyed.foldl_put_keeps Data entries []
    (by decide) (by simp) each
  rw [Data, Value.isData, Bool.and_eq_true, decide_eq_true_iff, Value.entriesAreData_iff]
  exact ⟨distinct, all⟩

/-- Whatever a text is read as is data. -/
theorem received_data : Received Data where
  word := by decide
  number := number_data
  text _ := rfl
  list := (Value.itemsAreData_iff _).mpr
  map := map_data

end Json

namespace Reading

variable {α β : Type}

/-- A reading that gives nothing without a property. -/
def Gives (property : α → Prop) (r : Reading α) : Prop := ∀ a ∈ r.value?, property a

/-- What lists and maps hand on to everything that is in them. -/
structure Inherited (has : Value → Prop) : Prop where
  items : ∀ {items}, has (.list items) → ∀ v ∈ items, has v
  entries : ∀ {entries}, has (.map entries) → Keyed.Distinct entries ∧ ∀ entry ∈ entries, has entry.2
  empty : has (.map [])

theorem inherited_data (real : Decimal.Binary64 → Bool) : Inherited (·.isData real = true) where
  items := Value.data_of_mem_items
  entries data := ⟨Value.distinct_of_data data, Value.data_of_mem_entries data⟩
  empty := rfl

/-- Whether all that stands in a record has something. -/
def Entries (has : Value → Prop) (source : List (String × Value)) : Prop :=
  ∀ entry ∈ source, has entry.2

namespace Gives

variable {property : α → Prop} {has : Value → Prop}

theorem good {a : α} (has : property a) : (Reading.good a).Gives property := by
  intro b given
  obtain rfl := Option.some.inj given
  exact has

theorem bad (why : Misfit) : (Reading.bad why : Reading α).Gives property := by
  intro a given
  cases given

theorem anything (r : Reading α) : r.Gives fun _ => True := fun _ _ => True.intro

theorem map {result : β → Prop} {r : Reading α} {f : α → β} (each : ∀ a, property a → result (f a))
    (inner : r.Gives property) : (f <$> r).Gives result := by
  intro b given
  obtain ⟨a, found, rfl⟩ := Option.map_eq_some_iff.mp given
  exact each a (inner a found)

theorem seq {result : β → Prop} {f : Reading (α → β)} {r : Reading α}
    (left : f.Gives fun g => ∀ a, property a → result (g a)) (right : r.Gives property) :
    (f <*> r).Gives result := by
  intro b given
  obtain ⟨g, function, given⟩ := Option.bind_eq_some_iff.mp given
  obtain ⟨a, found, rfl⟩ := Option.map_eq_some_iff.mp given
  exact left g function a (right a found)

theorem under {r : Reading α} (step : String) (inner : r.Gives property) :
    (Reading.under step r).Gives property := inner

theorem placed {r : Reading α} (inner : r.Gives property) :
    (Reading.placed r).Gives (Slot.Holds property) :=
  inner.map fun _ has => has

theorem field {source : List (String × Value)} (all : Entries has source) {name : String}
    {read : Value → Reading α} (each : ∀ v, has v → (read v).Gives property) :
    (Reading.field source name read).Gives (Slot.Holds property) := by
  unfold Reading.field
  split
  · next v found =>
      have inner := each v (all _ (Keyed.mem_of_find? found))
      exact inner.placed.under name
  · exact (bad _).under name

theorem fieldOr {source : List (String × Value)} (all : Entries has source) {name : String}
    {default : α} {read : Value → Reading α} (left_out : property default)
    (each : ∀ v, has v → (read v).Gives property) :
    (Reading.fieldOr source name default read).Gives (Slot.Holds property) := by
  unfold Reading.fieldOr
  split
  · next v found =>
      have inner := each v (all _ (Keyed.mem_of_find? found))
      exact inner.placed.under name
  · exact good left_out

theorem require {condition : α → Bool} {why : Misfit} {r : Reading α} (inner : r.Gives property) :
    (Reading.require condition why r).Gives property := by
  unfold Reading.require
  split
  · split
    · exact inner
    · exact bad _
  · exact inner

theorem record (inherited : Inherited has) {kind : String}
    {read : List (String × Value) → Reading α}
    (each : ∀ source, Entries has source → (read source).Gives property) {v : Value}
    (given : has v) : (Reading.record kind read v).Gives property := by
  cases v with
  | map source => exact each source (inherited.entries given).2
  | _ => exact bad _

theorem items {read : Value → Reading α}
    (each : ∀ v, has v → (read v).Gives property) (first : Nat) {list : List Value}
    (all : ∀ v ∈ list, has v) :
    (Reading.items read first list).Gives fun as => ∀ a ∈ as, property a := by
  induction list generalizing first with
  | nil => exact good (by simp)
  | cons v rest ih =>
      have head := each v (all v List.mem_cons_self)
      have tail := ih (first + 1) fun w member => all w (List.mem_cons_of_mem v member)
      refine ((head.under (toString first)).map ?_).seq tail
      intro a has others all
      exact List.forall_mem_cons.mpr ⟨has, all⟩

theorem list (inherited : Inherited has) {read : Value → Reading α}
    (each : ∀ v, has v → (read v).Gives property) {v : Value} (given : has v) :
    (Reading.list read v).Gives fun slots => ∀ s ∈ slots, s.Holds property := by
  cases v with
  | list vs => exact items (fun v has => (each v has).placed) 0 (inherited.items given)
  | _ => exact bad _

theorem entries {read : Value → Reading α}
    (each : ∀ v, has v → (read v).Gives property) {source : List (String × Value)}
    (all : Entries has source) :
    (Reading.entries read source).Gives fun table =>
      Keyed.keys table = Keyed.keys source ∧ ∀ entry ∈ table, property entry.2 := by
  induction source with
  | nil => exact good ⟨rfl, by simp⟩
  | cons entry rest ih =>
      obtain ⟨key, v⟩ := entry
      have head := each v (all _ List.mem_cons_self)
      have tail := ih fun later member => all later (List.mem_cons_of_mem _ member)
      refine ((head.under key).map ?_).seq tail
      rintro a has others ⟨keys, all⟩
      exact ⟨congrArg (key :: ·) keys, List.forall_mem_cons.mpr ⟨has, all⟩⟩

theorem table (inherited : Inherited has) {read : Value → Reading α}
    (each : ∀ v, has v → (read v).Gives property) {v : Value} (given : has v) :
    (Reading.table read v).Gives fun slots =>
      Keyed.Distinct slots ∧ ∀ entry ∈ slots, entry.2.Holds property := by
  cases v with
  | map source =>
      intro slots read
      obtain ⟨distinct, inside⟩ := inherited.entries given
      obtain ⟨keys, all⟩ := entries (fun v has => (each v has).placed) inside slots read
      refine ⟨?_, all⟩
      rw [Keyed.Distinct, keys]
      exact distinct
  | _ => exact bad _

theorem inCalendar {t : Timestamp} (dated : t.Dated) :
    (Reading.inCalendar t).Gives Timestamp.Proper := by
  unfold Reading.inCalendar
  split
  · exact bad _
  · next calendar => exact good (dated calendar)

theorem count {outcome : Except Misdating Timestamp} (dated : ∀ t, outcome = .ok t → t.Dated) :
    (Reading.count outcome).Gives Timestamp.Proper := by
  cases outcome with
  | error why => exact bad _
  | ok t => exact inCalendar (dated t rfl)

/-- Texts, counts and reals alike are read as times of the calendar. -/
theorem time (v : Value) : (Reading.time v).Gives Timestamp.Proper := by
  unfold Reading.time
  split
  · split
    · next t made => exact inCalendar (Timestamp.read_dated made)
    · exact bad _
  · split
    · exact count fun t => Timestamp.ofCount_dated
    · exact bad _
  · exact count fun t => Timestamp.ofReal_dated
  · exact bad _

theorem optionalTime (v : Value) : (Reading.optionalTime v).Gives ProperIfAny := by
  have read : (some <$> Reading.time v).Gives ProperIfAny := by
    refine (time v).map ?_
    intro t proper u same
    obtain rfl := Option.some.inj same
    exact proper
  cases v with
  | null => exact good (by simp [ProperIfAny])
  | _ => exact read

theorem anyMap {v : Value} (given : has v) : (Reading.anyMap v).Gives fun m => has (.map m) := by
  cases v with
  | map entries => exact good given
  | _ => exact bad _

end Gives

end Reading

/-- Metadata that has something. -/
def Condition.having (has : Value → Prop) : Condition := fun _ m => has (.map m)

/-- Whether a phase and its tasks were gone through so many times. -/
structure Phase.Counts (number : Int → Prop) (p : Phase) : Prop where
  iteration : p.iteration.Holds number
  tasks : p.tasks.Holds fun t : Task => t.iteration.Holds number

/-- The same of all phases of a document. -/
def Document.Counts (number : Int → Prop) (d : Document) : Prop := d.phases.Holds (Phase.Counts number)

section

open Reading

variable {has : Value → Prop} (inherited : Inherited has) {number : Int → Prop}
  (counts : ∀ v, has v → (integer v).Gives number) (zero : number 0) (one : number 1)
  {now : Timestamp} (proper : now.Proper)
include inherited proper

theorem Artifact.read_typed {v : Value} (given : has v) :
    (Artifact.read now v).Gives (Artifact.Typed (.having has)) := by
  refine Gives.record inherited (fun source fields => ?_) given
  refine Gives.map (fun _ type _ path _ approved _ createdAt _ metadata =>
      ⟨type, path, approved, createdAt, metadata⟩) ?_
    |>.seq ?_ |>.seq ?_ |>.seq ?_ |>.seq ?_
  · exact Gives.field fields fun _ _ => .anything _
  · exact Gives.field fields fun _ _ => .anything _
  · exact Gives.fieldOr fields True.intro fun _ _ => .anything _
  · exact Gives.fieldOr fields proper fun v _ => .time v
  · exact Gives.fieldOr fields inherited.empty fun _ given => .anyMap given

theorem Artifact.readList_typed {v : Value} (given : has v) :
    (list (Artifact.read now) v).Gives fun slots =>
      ∀ s ∈ slots, s.Holds (Artifact.Typed (.having has)) :=
  .list inherited (fun _ => Artifact.read_typed inherited proper) given

include counts one in
theorem Task.read_typed {v : Value} (given : has v) :
    (Task.read now v).Gives fun t => t.Typed (.having has) ∧ t.iteration.Holds number := by
  refine Gives.record inherited (fun source fields => ?_) given
  refine Gives.map (fun _ id _ name _ phase _ status _ createdAt _ updatedAt _ startedAt
      _ completedAt _ iteration _ agent _ inputs _ outputs _ metadata =>
      ⟨⟨id, name, phase, status, createdAt, updatedAt, startedAt, completedAt,
        iteration.mono fun _ _ => True.intro, agent, inputs, outputs, metadata⟩, iteration⟩) ?_
    |>.seq ?_ |>.seq ?_ |>.seq ?_ |>.seq ?_ |>.seq ?_ |>.seq ?_ |>.seq ?_ |>.seq ?_ |>.seq ?_
    |>.seq ?_ |>.seq ?_ |>.seq ?_
  · exact Gives.field fields fun _ _ => .anything _
  · exact Gives.field fields fun _ _ => .anything _
  · exact Gives.field fields fun _ _ => .anything _
  · exact Gives.fieldOr fields True.intro fun _ _ => .anything _
  · exact Gives.fieldOr fields proper fun v _ => .time v
  · exact Gives.fieldOr fields proper fun v _ => .time v
  · exact Gives.fieldOr fields (by simp [ProperIfAny]) fun v _ => .optionalTime v
  · exact Gives.fieldOr fields (by simp [ProperIfAny]) fun v _ => .optionalTime v
  · exact Gives.fieldOr fields one fun v given => .require (counts v given)
  · exact Gives.fieldOr fields True.intro fun _ _ => .anything _
  · exact Gives.fieldOr fields (by simp) fun _ => Artifact.readList_typed inherited proper
  · exact Gives.fieldOr fields (by simp) fun _ => Artifact.readList_typed inherited proper
  · exact Gives.fieldOr fields inherited.empty fun _ given => .anyMap given

include counts zero one in
theorem Phase.read_typed {v : Value} (given : has v) :
    (Phase.read now v).Gives fun p => p.Typed (.having has) ∧ p.Counts number := by
  refine Gives.record inherited (fun source fields => ?_) given
  refine Gives.map (fun _ status _ enabled _ createdAt _ startedAt _ completedAt _ failedAt
      _ iteration _ inputs _ outputs _ tasks _ metadata =>
      ⟨⟨status, enabled, createdAt, startedAt, completedAt, failedAt,
        iteration.mono fun _ _ => True.intro, inputs, outputs,
        Many.Holds.mono tasks fun _ => And.left, metadata⟩,
        ⟨iteration, Many.Holds.mono tasks fun _ => And.right⟩⟩) ?_
    |>.seq ?_ |>.seq ?_ |>.seq ?_ |>.seq ?_ |>.seq ?_ |>.seq ?_ |>.seq ?_ |>.seq ?_ |>.seq ?_
    |>.seq ?_
  · exact Gives.fieldOr fields True.intro fun _ _ => .anything _
  · exact Gives.fieldOr fields True.intro fun _ _ => .anything _
  · exact Gives.fieldOr fields proper fun v _ => .time v
  · exact Gives.fieldOr fields (by simp [ProperIfAny]) fun v _ => .optionalTime v
  · exact Gives.fieldOr fields (by simp [ProperIfAny]) fun v _ => .optionalTime v
  · exact Gives.fieldOr fields (by simp [ProperIfAny]) fun v _ => .optionalTime v
  · exact Gives.fieldOr fields zero fun v given => .require (counts v given)
  · exact Gives.fieldOr fields (by simp) fun _ => Artifact.readList_typed inherited proper
  · exact Gives.fieldOr fields (by simp) fun _ => Artifact.readList_typed inherited proper
  · exact Gives.fieldOr fields (by simp) fun _ given =>
      .list inherited (fun _ => Task.read_typed inherited counts one proper) given
  · exact Gives.fieldOr fields inherited.empty fun _ given => .anyMap given

theorem Statechart.read_typed {v : Value} (given : has v) :
    (Statechart.read now v).Gives Statechart.Typed := by
  refine Gives.record inherited (fun source fields => ?_) given
  refine Gives.map (fun _ current _ updatedAt => ⟨current, updatedAt⟩) ?_ |>.seq ?_
  · exact Gives.field fields fun _ _ => .anything _
  · exact Gives.fieldOr fields proper fun v _ => .time v

include counts zero one in
/-- Everything in a document that was read is what belongs in its place, and what was read from hands on
what it has. -/
theorem Document.read_typed {v : Value} (given : has v) :
    (Document.read now v).Gives fun d => d.Typed (.having has) ∧ d.Counts number := by
  refine Gives.record inherited (fun source fields => ?_) given
  refine Gives.map (fun _ name _ type _ branch _ description _ createdAt _ updatedAt _ phases
      _ statechart _ agentSessions =>
      ⟨⟨name, type, branch, description, createdAt, updatedAt,
        Table.Holds.mono phases fun _ => And.left, statechart, agentSessions⟩,
        Table.Holds.mono phases fun _ => And.right⟩) ?_
    |>.seq ?_ |>.seq ?_ |>.seq ?_ |>.seq ?_ |>.seq ?_ |>.seq ?_ |>.seq ?_ |>.seq ?_
  · exact Gives.field fields fun _ _ => .anything _
  · exact Gives.field fields fun _ _ => .anything _
  · exact Gives.fieldOr fields True.intro fun _ _ => .anything _
  · exact Gives.fieldOr fields True.intro fun _ _ => .anything _
  · exact Gives.fieldOr fields proper fun v _ => .time v
  · exact Gives.fieldOr fields proper fun v _ => .time v
  · exact Gives.fieldOr fields ⟨by decide, by simp⟩ fun _ given =>
      .table inherited (fun _ => Phase.read_typed inherited counts zero one proper) given
  · exact Gives.field fields fun _ given => Statechart.read_typed inherited proper given
  · exact Gives.fieldOr fields ⟨by decide, by simp⟩ fun _ given =>
      .table inherited (fun _ _ => .anything _) given

end

theorem Reading.value_of_result {α : Type} {r : Reading α} {a : α} (read : r.result = .ok a) :
    r.value? = some a := by
  unfold result at read
  split at read
  · next given =>
      cases read
      exact given
  · cases read

namespace FileStore

/-- In a document that is read from data everything is what belongs in its place, and no real stands in it
that is not in the data. -/
theorem decode_data {real : Decimal.Binary64 → Bool} {now : Timestamp} (proper : now.Proper)
    {path text : String} {v : Value} (parsed : Json.parse text = .ok v) (data : v.isData real = true)
    {d : Document} (decoded : decode path now text = .ok d) :
    d.Typed fun _ m => (Value.map m).isData real = true := by
  have typed := Document.read_typed (Reading.inherited_data real) (fun _ _ => .anything _) True.intro
    True.intro proper data
  rw [decode, parsed] at decoded
  simp only at decoded
  split at decoded
  · cases decoded
  · exact (typed d (Reading.value_of_result decoded)).1

theorem decode_typed {now : Timestamp} (proper : now.Proper) {path text : String} {d : Document}
    (decoded : decode path now text = .ok d) : d.Typed .json := by
  rcases parsed : Json.parse text with (fault | which) | v
  · rw [decode, parsed] at decoded
    cases decoded
  · rw [decode, parsed] at decoded
    cases decoded
  · exact decode_data proper parsed (Json.received_data.parse parsed) decoded

variable {φ : Type} [FileSystem φ]

/-- Whatever a file holds, in a document that is loaded from it everything is what belongs in its
place. -/
theorem load_typed {now : Timestamp} (proper : now.Proper) {store : FileStore φ} {d : Document}
    (loaded : (load now store).1 = .ok d) : d.Typed .json := by
  rw [load, Attempt.run_bind_ok (Attempt.run_get store)] at loaded
  obtain ⟨text, after, _, decoded⟩ := Attempt.ok_of_bind loaded
  exact decode_typed proper decoded

end FileStore

/-- A project that is loaded from a file is of the type registered for it, and everything in its
document is what belongs in its place. -/
theorem Project.load_typed {φ : Type} [FileSystem φ] {registry : Registry} {now : Timestamp}
    (proper : now.Proper) {archive : Archive (FileStore φ)} {p : Project}
    (loaded : (Project.load registry now archive).1 = .ok p) :
    p.document.Typed .json ∧ registry.get p.document.type.display = .ok p.blueprint := by
  obtain ⟨d, _, read, loaded⟩ := Attempt.ok_of_bind loaded
  obtain ⟨_, _, _, loaded⟩ := Attempt.ok_of_bind loaded
  obtain ⟨b, _, registered, loaded⟩ := Attempt.ok_of_bind loaded
  obtain ⟨state, _, _, loaded⟩ := Attempt.ok_of_bind loaded
  obtain ⟨_, _, _, loaded⟩ := Attempt.ok_of_bind loaded
  cases loaded
  have found : (FileStore.load now archive.store).1 = .ok d := congrArg Prod.fst read
  exact ⟨FileStore.load_typed proper found, congrArg Prod.fst registered⟩

end Lifecycle
