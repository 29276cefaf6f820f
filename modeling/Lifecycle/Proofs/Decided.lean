import Lifecycle.Proofs.Legible
/-!
Readings give something or problems, never both and never neither. So a document that cannot be read is
refused for at least one reason, and one that is read was free of problems. -/

namespace Lifecycle

namespace Reading

variable {α β : Type}

/-- Something was read just if there is no problem. -/
def Decided (r : Reading α) : Prop := r.problems = [] ↔ r.value?.isSome = true

namespace Decided

theorem good (a : α) : (good a).Decided := iff_of_true rfl rfl

theorem bad (why : Misfit) : (bad why : Reading α).Decided :=
  iff_of_false (List.cons_ne_nil _ _) Bool.false_ne_true

theorem map {r : Reading α} (decided : r.Decided) (f : α → β) : (f <$> r).Decided := by
  have same : (f <$> r).value?.isSome = r.value?.isSome := Option.isSome_map
  rw [Decided, problems_map, same]
  exact decided

theorem seq {f : Reading (α → β)} {r : Reading α} (left : f.Decided) (right : r.Decided) :
    (f <*> r).Decided := by
  unfold Decided at left right
  rw [Decided, problems_seq, List.append_eq_nil_iff, left, right]
  show _ ↔ (f.value?.bind fun g => r.value?.map g).isSome = true
  cases f.value? with
  | none => exact iff_of_false (fun both => Bool.false_ne_true both.1) Bool.false_ne_true
  | some g =>
      rw [Option.bind_some, Option.isSome_map]
      exact and_iff_right rfl

theorem under {r : Reading α} (decided : r.Decided) (step : String) : (under step r).Decided :=
  (under_nil_iff step r).trans decided

theorem placed {r : Reading α} (decided : r.Decided) : (placed r).Decided := decided.map Slot.proper

theorem require {r : Reading α} (decided : r.Decided) (condition : α → Bool) (why : Misfit) :
    (require condition why r).Decided := by
  unfold Reading.require
  split
  · split
    · exact decided
    · exact bad why
  · exact decided

theorem field {read : Value → Reading α} (each : ∀ v, (read v).Decided)
    (source : List (String × Value)) (name : String) : (field source name read).Decided := by
  unfold Reading.field
  split
  · exact (each _).placed.under name
  · exact (bad _).under name

theorem fieldOr {read : Value → Reading α} (each : ∀ v, (read v).Decided)
    (source : List (String × Value)) (name : String) (default : α) :
    (fieldOr source name default read).Decided := by
  unfold Reading.fieldOr
  split
  · exact (each _).placed.under name
  · exact good _

theorem record {read : List (String × Value) → Reading α} (each : ∀ source, (read source).Decided)
    (kind : String) (v : Value) : (record kind read v).Decided := by
  cases v with
  | map source => exact each source
  | _ => exact bad _

theorem items {read : Value → Reading α} (each : ∀ v, (read v).Decided) (first : Nat)
    (list : List Value) : (items read first list).Decided := by
  induction list generalizing first with
  | nil => exact good []
  | cons v rest ih => exact (((each v).under (toString first)).map List.cons).seq (ih (first + 1))

theorem entries {read : Value → Reading α} (each : ∀ v, (read v).Decided)
    (table : List (String × Value)) : (entries read table).Decided := by
  induction table with
  | nil => exact good []
  | cons entry rest ih =>
      exact (((each entry.2).under entry.1).map fun a more => (entry.1, a) :: more).seq ih

theorem list {read : Value → Reading α} (each : ∀ v, (read v).Decided) (v : Value) :
    (list read v).Decided := by
  cases v with
  | list vs => exact items (fun v => (each v).placed) 0 vs
  | _ => exact bad _

theorem table {read : Value → Reading α} (each : ∀ v, (read v).Decided) (v : Value) :
    (table read v).Decided := by
  cases v with
  | map source => exact entries (fun v => (each v).placed) source
  | _ => exact bad _

theorem ofExcept (r : Except Misfit α) : (ofExcept r).Decided := by
  cases r with
  | ok a => exact good a
  | error why => exact bad why

theorem text (v : Value) : (text v).Decided := by
  cases v with
  | text s => exact good s
  | _ => exact bad _

theorem nonEmptyText (v : Value) : ((nonEmpty ∘ Reading.text) v).Decided := (text v).require _ _

theorem integer (v : Value) : (integer v).Decided := by
  unfold Reading.integer
  split
  · exact good _
  · exact good _
  · unfold integerText
    split
    · exact bad _
    · split
      · exact good _
      · exact bad _
  · split
    · exact bad _
    · split
      · split
        · exact good _
        · exact bad _
      · exact bad _
  · exact bad _

theorem leastInteger (least : Int) (v : Value) : ((atLeast least ∘ Reading.integer) v).Decided :=
  (integer v).require _ _

theorem inCalendar (t : Timestamp) : (inCalendar t).Decided := by
  unfold Reading.inCalendar
  split
  · exact bad _
  · exact good t

theorem count (r : Except Misdating Timestamp) : (count r).Decided := by
  cases r with
  | ok t => exact inCalendar t
  | error why => exact bad _

theorem time (v : Value) : (time v).Decided := by
  unfold Reading.time
  split
  · split
    · exact inCalendar _
    · exact bad _
  · split
    · exact count _
    · exact bad _
  · exact count _
  · exact bad _

theorem optionalTime (v : Value) : (optionalTime v).Decided := by
  cases v with
  | null => exact good none
  | _ => exact (time _).map some

theorem anyMap (v : Value) : (anyMap v).Decided := by
  cases v with
  | map source => exact good source
  | _ => exact bad _

theorem named (ofText? : String → Option α) (why : Misfit) (v : Value) :
    (named ofText? why v).Decided := by
  cases v with
  | text s =>
      rw [Reading.named]
      cases ofText? s with
      | some a => exact good a
      | none => exact bad why
  | _ => exact bad _

/-- Where there are problems they are the result, and all of them. -/
theorem outcome {r : Reading α} (decided : r.Decided) :
    (∃ a, r = Reading.good a) ∨ r.problems ≠ [] ∧ r.result = .error (.malformed r.problems) := by
  obtain ⟨value?, problems⟩ := r
  cases problems with
  | nil =>
      obtain ⟨a, rfl⟩ := Option.isSome_iff_exists.mp (decided.mp rfl)
      exact .inl ⟨a, rfl⟩
  | cons first rest => exact .inr ⟨List.cons_ne_nil _ _, rfl⟩

end Decided

end Reading

open Reading

theorem Artifact.read_decided (now : Timestamp) (v : Value) : (Artifact.read now v).Decided := by
  refine Decided.record (fun source => ?_) _ v
  iterate 4 refine Decided.seq ?_ ?_
  refine Decided.map ?_ _
  · exact Decided.field Decided.nonEmptyText source _
  · exact Decided.field Decided.nonEmptyText source _
  · exact Decided.fieldOr (fun v => .ofExcept (flag? v)) source _ _
  · exact Decided.fieldOr Decided.time source _ _
  · exact Decided.fieldOr Decided.anyMap source _ _

theorem Task.read_decided (now : Timestamp) (v : Value) : (Task.read now v).Decided := by
  refine Decided.record (fun source => ?_) _ v
  iterate 12 refine Decided.seq ?_ ?_
  refine Decided.map ?_ _
  · exact Decided.field Decided.nonEmptyText source _
  · exact Decided.field Decided.nonEmptyText source _
  · exact Decided.field Decided.nonEmptyText source _
  · exact Decided.fieldOr (Decided.named _ _) source _ _
  · exact Decided.fieldOr Decided.time source _ _
  · exact Decided.fieldOr Decided.time source _ _
  · exact Decided.fieldOr Decided.optionalTime source _ _
  · exact Decided.fieldOr Decided.optionalTime source _ _
  · exact Decided.fieldOr (Decided.leastInteger 1) source _ _
  · exact Decided.fieldOr Decided.text source _ _
  · exact Decided.fieldOr (Decided.list (Artifact.read_decided now)) source _ _
  · exact Decided.fieldOr (Decided.list (Artifact.read_decided now)) source _ _
  · exact Decided.fieldOr Decided.anyMap source _ _

theorem Phase.read_decided (now : Timestamp) (v : Value) : (Phase.read now v).Decided := by
  refine Decided.record (fun source => ?_) _ v
  iterate 10 refine Decided.seq ?_ ?_
  refine Decided.map ?_ _
  · exact Decided.fieldOr (Decided.named _ _) source _ _
  · exact Decided.fieldOr (fun v => .ofExcept (flag? v)) source _ _
  · exact Decided.fieldOr Decided.time source _ _
  · exact Decided.fieldOr Decided.optionalTime source _ _
  · exact Decided.fieldOr Decided.optionalTime source _ _
  · exact Decided.fieldOr Decided.optionalTime source _ _
  · exact Decided.fieldOr (Decided.leastInteger 0) source _ _
  · exact Decided.fieldOr (Decided.list (Artifact.read_decided now)) source _ _
  · exact Decided.fieldOr (Decided.list (Artifact.read_decided now)) source _ _
  · exact Decided.fieldOr (Decided.list (Task.read_decided now)) source _ _
  · exact Decided.fieldOr Decided.anyMap source _ _

theorem Statechart.read_decided (now : Timestamp) (v : Value) : (Statechart.read now v).Decided := by
  refine Decided.record (fun source => ?_) _ v
  refine Decided.seq (Decided.map ?_ _) ?_
  · exact Decided.field Decided.nonEmptyText source _
  · exact Decided.fieldOr Decided.time source _ _

/-- A document is read, or there is a problem with it. -/
theorem Document.read_decided (now : Timestamp) (v : Value) : (Document.read now v).Decided := by
  refine Decided.record (fun source => ?_) _ v
  iterate 8 refine Decided.seq ?_ ?_
  refine Decided.map ?_ _
  · exact Decided.field (fun v => (Decided.text v).require _ _) source _
  · exact Decided.field (fun v => (Decided.text v).require _ _) source _
  · exact Decided.fieldOr Decided.nonEmptyText source _ _
  · exact Decided.fieldOr Decided.text source _ _
  · exact Decided.fieldOr Decided.time source _ _
  · exact Decided.fieldOr Decided.time source _ _
  · exact Decided.fieldOr (Decided.table (Phase.read_decided now)) source _ _
  · exact Decided.field (Statechart.read_decided now) source _
  · exact Decided.fieldOr (Decided.table Decided.text) source _ _

end Lifecycle
