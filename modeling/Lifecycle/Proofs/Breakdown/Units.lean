import Lifecycle.Proofs.Codec
import Lifecycle.Proofs.Dependencies
import Lifecycle.Types.Breakdown
/-!
The completed units of a breakdown and what they depend on. Of units with one id the last one counts:
the graph has what that unit lists, and the dependencies are valid exactly if these lead to completed
units only and never back. -/

namespace Lifecycle.Breakdown

open Relation (TransGen)

/-- A text is among the dependencies in the metadata of a unit. -/
def Lists (t : Task) (next : String) : Prop :=
  ∃ m items, t.metadata = .proper m ∧ Keyed.find? m "dependencies" = some (.list items) ∧
    .text next ∈ items

/-- Whether two ids are one. -/
def sameId : Slot String → Slot String → Bool
  | .proper name, .proper other => name = other
  | .stray v, .stray w => v.same w
  | _, _ => false

/-- A unit is the last one with its id. -/
def Counts (units : List Task) (t : Task) : Prop :=
  ∃ before after, units = before ++ t :: after ∧ ∀ u ∈ after, sameId t.id u.id = false

def Known (units : List Task) (name : String) : Prop := ∃ t ∈ units, t.id = .proper name

/-- The last unit with an id lists a text. -/
def Needs (units : List Task) (name next : String) : Prop :=
  ∃ t, Counts units t ∧ t.id = .proper name ∧ Lists t next

section

variable {units : List Task} {t last : Task} {name : String} {after : List String}

theorem mem_of_counts (counts : Counts units t) : t ∈ units := by
  obtain ⟨before, after, rfl, _⟩ := counts
  exact List.mem_append_right _ List.mem_cons_self

theorem counts_append :
    Counts (units ++ [last]) t ↔ t = last ∨ Counts units t ∧ sameId t.id last.id = false := by
  simp only [Counts, append_singleton_eq_iff]
  constructor
  · rintro ⟨before, after, ⟨_, here, _⟩ | ⟨rest, rfl, split⟩, others⟩
    · exact .inl here
    · refine .inr ⟨⟨before, rest, split, fun u member => ?_⟩, ?_⟩
      · exact others u (List.mem_append_left _ member)
      · exact others last (List.mem_append_right _ List.mem_cons_self)
  · rintro (rfl | ⟨⟨before, rest, split, others⟩, other⟩)
    · exact ⟨units, [], .inl ⟨rfl, rfl, rfl⟩, fun _ member => absurd member List.not_mem_nil⟩
    · refine ⟨before, rest ++ [last], .inr ⟨rest, rfl, split⟩, fun u member => ?_⟩
      rcases List.mem_append.mp member with within | here
      · exact others u within
      · rwa [List.mem_singleton.mp here]

/-- Of the units with an id there is a last one. -/
theorem known_iff : Known units name ↔ ∃ t, Counts units t ∧ t.id = .proper name := by
  constructor
  · intro known
    induction units using List.reverseRecOn with
    | nil =>
        obtain ⟨t, member, _⟩ := known
        cases member
    | append_singleton units last ih =>
        by_cases here : last.id = .proper name
        · exact ⟨last, counts_append.mpr (.inl rfl), here⟩
        · obtain ⟨t, member, named⟩ := known
          rcases List.mem_append.mp member with before | single
          · obtain ⟨u, counts, named⟩ := ih ⟨t, before, named⟩
            refine ⟨u, counts_append.mpr (.inr ⟨counts, ?_⟩), named⟩
            rw [named]
            cases other : last.id with
            | proper name' => simpa [sameId, other, eq_comm] using here
            | stray v => rfl
          · exact absurd (List.mem_singleton.mp single ▸ named) here
  · rintro ⟨t, counts, named⟩
    exact ⟨t, mem_of_counts counts, named⟩

theorem dependencies_proper {m : Metadata} (held : t.metadata = .proper m) :
    dependencies t =
      .ok (((Keyed.find? m "dependencies").getD .null).items.filterMap Value.asText?) := by
  rw [dependencies, held]
  simp only [Slot.entry, Slot.entryOr, bind, Except.bind, pure, Except.pure]
  cases (Keyed.find? m "dependencies").getD .null <;> rfl

theorem asText?_eq_some_iff {v : Value} {s : String} : v.asText? = some s ↔ v = .text s := by
  cases v <;> simp [Value.asText?]

/-- The dependencies of a unit, where they can be told, are those that it lists. -/
theorem mem_dependencies_iff (told : dependencies t = .ok after) {next : String} :
    next ∈ after ↔ Lists t next := by
  cases held : t.metadata with
  | stray v =>
      rw [dependencies, held] at told
      cases told
  | proper m =>
      rw [dependencies_proper held] at told
      obtain rfl := Except.ok.inj told
      simp only [Lists, held, List.mem_filterMap, asText?_eq_some_iff, exists_eq_right]
      cases found : Keyed.find? m "dependencies" with
      | none => simp [Value.items, found]
      | some v => cases v <;> simp [Value.items, found]

/-- The last unit with an id depends on what is given. -/
def Entry (units : List Task) (id : Slot String) (after : List String) : Prop :=
  ∃ t, Counts units t ∧ t.id = id ∧ dependencies t = .ok after

theorem entry_append {id : Slot String} {others : List String} (told : dependencies last = .ok after) :
    Entry (units ++ [last]) id others ↔
      last.id = id ∧ after = others ∨ sameId id last.id = false ∧ Entry units id others := by
  constructor
  · rintro ⟨t, counts, rfl, here⟩
    rcases counts_append.mp counts with rfl | ⟨counts, other⟩
    · exact .inl ⟨rfl, Except.ok.inj (told.symm.trans here)⟩
    · exact .inr ⟨other, t, counts, rfl, here⟩
  · rintro (⟨rfl, rfl⟩ | ⟨other, t, counts, rfl, here⟩)
    · exact ⟨last, counts_append.mpr (.inl rfl), rfl, told⟩
    · exact ⟨t, counts_append.mpr (.inr ⟨counts, other⟩), rfl, here⟩

/-- What a graph has once units were added to it. -/
structure Describes (units : List Task) (g : Graph) : Prop where
  told : ∀ t ∈ units, ∃ after, dependencies t = .ok after
  distinct : Keyed.Distinct g.named
  named : ∀ name after, Keyed.find? g.named name = some after ↔ Entry units (.proper name) after
  strays : ∀ v after, (v, after) ∈ g.strays ↔ Entry units (.stray v) after

theorem Describes.add {g next : Graph} (describes : Describes units g)
    (told : dependencies last = .ok after) (adds : g.add last.id after = .ok next) :
    Describes (units ++ [last]) next := by
  have all : ∀ t ∈ units ++ [last], ∃ after, dependencies t = .ok after := by
    intro t member
    rcases List.mem_append.mp member with before | single
    · exact describes.told t before
    · exact ⟨after, List.mem_singleton.mp single ▸ told⟩
  unfold Graph.add at adds
  cases id : last.id with
  | proper key =>
      rw [id] at adds
      obtain rfl := Except.ok.inj adds
      refine ⟨all, Keyed.distinct_put describes.distinct key after, fun name others => ?_,
        fun v others => ?_⟩
      · rw [entry_append told, id, Keyed.find?_put]
        by_cases same : key = name
        · simp [same, sameId]
        · simp [same, sameId, describes.named, Ne.symm same]
      · rw [entry_append told, id, describes.strays]
        simp [sameId]
  | stray w =>
      rw [id] at adds
      obtain ⟨_, _, same⟩ := Except.bind_eq_ok.mp adds
      obtain rfl := Except.ok.inj same
      refine ⟨all, describes.distinct, fun name others => ?_, fun v others => ?_⟩
      · rw [entry_append told, id, describes.named]
        simp [sameId]
      · rw [entry_append told, id, List.mem_append, List.mem_filter, describes.strays]
        simp only [sameId, List.mem_singleton, Prod.mk.injEq, Slot.stray.injEq, Bool.not_eq_true']
        rw [or_comm, and_comm (a := Entry _ _ _), eq_comm (a := v), eq_comm (a := others)]

/-- The graph of units has what the last unit with each id depends on. -/
theorem describes_units {g : Graph} (gathered : units.foldlM Graph.addUnit ⟨[], []⟩ = .ok g) :
    Describes units g := by
  induction units using List.reverseRecOn generalizing g with
  | nil =>
      obtain rfl := Except.ok.inj gathered
      refine ⟨fun _ member => absurd member List.not_mem_nil, List.nodup_nil, fun name after => ?_,
        fun v after => ?_⟩
      · exact ⟨nofun, fun ⟨_, counts, _⟩ => absurd (mem_of_counts counts) List.not_mem_nil⟩
      · exact ⟨nofun, fun ⟨_, counts, _⟩ => absurd (mem_of_counts counts) List.not_mem_nil⟩
  | append_singleton units last ih =>
      rw [List.foldlM_append, Except.bind_eq_ok] at gathered
      obtain ⟨before, earlier, added⟩ := gathered
      rw [List.foldlM_cons, Except.bind_eq_ok] at added
      obtain ⟨next, added, ends⟩ := added
      obtain rfl := Except.ok.inj ends
      rw [Graph.addUnit, Except.bind_eq_ok] at added
      obtain ⟨after, told, added⟩ := added
      exact (ih earlier).add told added

/-- A unit that a graph can take. -/
structure Usable (t : Task) : Prop where
  metadata : ∃ m, t.metadata = .proper m
  key : ∀ v, t.id = .stray v → v.mustBeKey = .ok ()

theorem Usable.taken (usable : Usable t) (g : Graph) : ∃ next, g.addUnit t = .ok next := by
  obtain ⟨⟨m, held⟩, key⟩ := usable
  unfold Graph.addUnit Graph.add
  rw [dependencies_proper held]
  cases id : t.id with
  | proper name => exact ⟨_, rfl⟩
  | stray v =>
      refine ⟨_, Except.bind_eq_ok.mpr ⟨_, rfl, Except.bind_eq_ok.mpr ⟨(), key v id, rfl⟩⟩⟩

theorem gathered_of_usable (usable : ∀ t ∈ units, Usable t) (g : Graph) :
    ∃ next, units.foldlM Graph.addUnit g = .ok next := by
  induction units generalizing g with
  | nil => exact ⟨g, rfl⟩
  | cons t rest ih =>
      have ⟨middle, taken⟩ := (usable t List.mem_cons_self).taken g
      have ⟨next, done⟩ := ih (fun u member => usable u (List.mem_cons_of_mem _ member)) middle
      exact ⟨next, List.foldlM_cons.trans (Except.bind_eq_ok.mpr ⟨middle, taken, done⟩)⟩

namespace Describes

variable {g : Graph} {next : String} (describes : Describes units g)

include describes

theorem has_iff : Keyed.has g.named name = true ↔ Known units name := by
  rw [Keyed.has, Option.isSome_iff_exists, known_iff]
  simp only [describes.named]
  constructor
  · rintro ⟨_, t, counts, id, _⟩
    exact ⟨t, counts, id⟩
  · rintro ⟨t, counts, id⟩
    obtain ⟨after, told⟩ := describes.told t (mem_of_counts counts)
    exact ⟨after, t, counts, id, told⟩

theorem dependsOn_iff : DependsOn g.named name next ↔ Needs units name next := by
  have found : DependsOn g.named name next ↔
      ∃ after, Keyed.find? g.named name = some after ∧ next ∈ after := by
    rw [DependsOn, Dependencies.of]
    cases Keyed.find? g.named name <;> simp
  rw [found]
  simp only [describes.named]
  constructor
  · rintro ⟨after, ⟨t, counts, id, told⟩, member⟩
    exact ⟨t, counts, id, (mem_dependencies_iff told).mp member⟩
  · rintro ⟨t, counts, id, lists⟩
    obtain ⟨after, told⟩ := describes.told t (mem_of_counts counts)
    exact ⟨after, ⟨t, counts, id, told⟩, (mem_dependencies_iff told).mpr lists⟩

/-- A graph knows all exactly if the units that count list nothing but completed units. -/
theorem knowsAll_iff :
    g.knowsAll = true ↔ ∀ t, Counts units t → ∀ next, Lists t next → Known units next := by
  have named (key : String) (after : List String) :
      (key, after) ∈ g.named ↔ Entry units (.proper key) after := by
    rw [← Keyed.find?_eq_some_iff describes.distinct, describes.named]
  simp only [Graph.knowsAll, Bool.and_eq_true, List.all_eq_true, Prod.forall, named,
    describes.strays, describes.has_iff]
  constructor
  · rintro ⟨proper, stray⟩ t counts next lists
    obtain ⟨after, told⟩ := describes.told t (mem_of_counts counts)
    have member := (mem_dependencies_iff told).mpr lists
    cases id : t.id with
    | proper key => exact proper key after ⟨t, counts, id, told⟩ next member
    | stray v => exact stray v after ⟨t, counts, id, told⟩ next member
  · intro known
    constructor
    · rintro key after ⟨t, counts, _, told⟩ next member
      exact known t counts next ((mem_dependencies_iff told).mp member)
    · rintro v after ⟨t, counts, _, told⟩ next member
      exact known t counts next ((mem_dependencies_iff told).mp member)

theorem isAcyclic_iff :
    g.isAcyclic = true ↔ ∀ name, ¬TransGen (Needs units) name name := by
  have same : DependsOn g.named = Needs units := by
    funext name next
    exact propext describes.dependsOn_iff
  rw [Graph.isAcyclic, Bool.not_eq_true', ← Bool.not_eq_true, Graph.search,
    Search.circular_finish_iff, same, not_exists]

end Describes

end

theorem filter_proper {α : Type} (part : String) (test : α → Bool) (list : List α) :
    Slot.filter part (fun a => .ok (test a)) (list.map .proper) = .ok (list.filter test) := by
  induction list with
  | nil => rfl
  | cons a rest ih =>
      rw [List.map_cons, Slot.filter, ih, List.filter_cons]
      rfl

theorem completedUnits_of_tasks {d : Document} {ts : List Task}
    (tasks : d.tasks "breakdown" = .ok (ts.map .proper)) :
    completedUnits d = .ok (ts.filter Task.isCompleted) := by
  rw [completedUnits, tasks]
  exact filter_proper "status" Task.isCompleted ts

/-- Dependencies are judged in finitely many rounds. They are valid exactly if what is listed by the last
completed unit with each id has the id of a completed unit, and nothing leads back to where it started. -/
theorem dependenciesValid_iff {d : Document} {ts : List Task}
    (tasks : d.tasks "breakdown" = .ok (ts.map .proper))
    (usable : ∀ t ∈ ts, t.isCompleted = true → Usable t) :
    ∃ g rounds valid, graph d = .ok g ∧
      ((Search.step g.named)^[rounds] (.start (Keyed.keys g.named))).isOver = true ∧
      g.search = (Search.step g.named)^[rounds] (.start (Keyed.keys g.named)) ∧
      dependenciesValid d = .ok valid ∧
      (valid = true ↔
        (∀ t, Counts (ts.filter Task.isCompleted) t → ∀ next, Lists t next →
          Known (ts.filter Task.isCompleted) next) ∧
        ∀ name, ¬TransGen (Needs (ts.filter Task.isCompleted)) name name) := by
  have taken : ∀ t ∈ ts.filter Task.isCompleted, Usable t := by
    intro t member
    obtain ⟨inside, completed⟩ := List.mem_filter.mp member
    exact usable t inside completed
  obtain ⟨g, gathered⟩ := gathered_of_usable taken ⟨[], []⟩
  have describes := describes_units gathered
  have made : graph d = .ok g := by
    rw [graph, completedUnits_of_tasks tasks]
    exact gathered
  obtain ⟨rounds, _, ended, same⟩ := Search.finish_ends g.named (.start (Keyed.keys g.named))
  refine ⟨g, rounds, g.knowsAll && g.isAcyclic, made, ended, same, ?_, ?_⟩
  · rw [dependenciesValid, made]
    rfl
  · rw [Bool.and_eq_true, describes.knowsAll_iff, describes.isAcyclic_iff]

/-- A unit with the dependencies given. -/
def unit (id : String) (status : TaskStatus) (after : List Value) : Task :=
  ⟨.proper id, .proper id, .proper "breakdown", .proper status, .proper newYear, .proper newYear,
    .proper none, .proper none, .proper 1, .proper "", .none, .none,
    .proper [("dependencies", .list after)]⟩

/-- A document with the units given. -/
def brokenDown (units : List Task) : Document :=
  { Document.sample [] with
    type := .proper "breakdown"
    phases := .ofEntries [("breakdown", { Phase.fresh newYear [] with tasks := .ofList units })]
    statechart := .proper (.noted "Active" newYear) }

theorem tasks_brokenDown (units : List Task) :
    (brokenDown units).tasks "breakdown" = .ok (units.map .proper) := rfl

theorem usable_unit (id : String) (status : TaskStatus) (after : List Value) :
    Usable (unit id status after) :=
  ⟨⟨_, rfl⟩, nofun⟩

/-- Two units depend on a third, one of them twice. The first unit called b would close a circle. -/
def shared : List Task := [
  unit "a" .completed [.text "b", .integer 5, .text "c", .text "b"],
  unit "b" .completed [.text "a"],
  unit "d" .pending [.text "nothing"],
  unit "b" .completed [.text "c"],
  unit "c" .completed []]

theorem dependenciesValid_shared :
    (brokenDown shared).tasks "breakdown" = .ok (shared.map .proper) ∧
      (∀ t ∈ shared, t.isCompleted = true → Usable t) ∧
      dependenciesValid (brokenDown shared) = .ok true ∧
      (∀ t, Counts (shared.filter Task.isCompleted) t → ∀ next, Lists t next →
        Known (shared.filter Task.isCompleted) next) ∧
      ∀ name, ¬TransGen (Needs (shared.filter Task.isCompleted)) name name := by
  have usable : ∀ t ∈ shared, t.isCompleted = true → Usable t := by
    simp [shared, usable_unit]
  obtain ⟨_, _, valid, _, _, _, judged, correct⟩ :=
    dependenciesValid_iff (tasks_brokenDown shared) usable
  have good : valid = true := by
    have known : (dependenciesValid (brokenDown shared)).toOption = some true := by decide +kernel
    rw [judged] at known
    exact Option.some.inj known
  obtain rfl := good
  obtain ⟨known, straight⟩ := correct.mp rfl
  exact ⟨rfl, usable, judged, known, straight⟩

end Lifecycle.Breakdown
