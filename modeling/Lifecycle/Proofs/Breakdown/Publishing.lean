import Lifecycle.Proofs.Breakdown.Units
/-!
The order in which units are published. Where publishing may begin, the completed units can be put in an
order in which dependencies come first, as long as those that do not count depend on completed units
too: they are not looked at. -/

namespace Lifecycle.Breakdown

/-- Whatever a unit lists is the id of one that stands earlier. -/
def InOrder (order : List Task) : Prop :=
  ∀ before t after, order = before ++ t :: after → ∀ next, Lists t next → Known before next

/-- A list can be put in an order in which what ranks lower comes earlier. -/
theorem exists_ranked {α : Type} (rank : α → Nat) (list : List α) :
    ∃ order : List α, order.Perm list ∧ ∀ before a after, order = before ++ a :: after →
      ∀ b ∈ list, rank b < rank a → b ∈ before := by
  let le (a b : α) : Bool := rank a ≤ rank b
  have perm := List.mergeSort_perm list le
  refine ⟨list.mergeSort le, perm, fun before a after split b member lower => ?_⟩
  have sorted : (list.mergeSort le).Pairwise fun a b => le a b :=
    List.pairwise_mergeSort (fun a b c => by simp only [le, decide_eq_true_eq]; omega)
      (fun a b => by simp only [le, Bool.or_eq_true, decide_eq_true_eq]; omega) list
  rw [split] at sorted perm
  rcases List.mem_append.mp (perm.mem_iff.mpr member) with earlier | here
  · exact earlier
  · rcases List.mem_cons.mp here with rfl | later
    · exact absurd lower (Nat.lt_irrefl _)
    · have above := List.rel_of_pairwise_cons (List.pairwise_append.mp sorted).2.1 later
      exact absurd lower (Nat.not_lt.mpr (of_decide_eq_true above))

namespace Graph

/-- The name that a unit stands for in the graph: its own, if the graph has what the unit depends on. -/
def standsFor (g : Graph) (t : Task) : Option String :=
  match t.id with
  | .proper name =>
    if Keyed.find? g.named name = (dependencies t).toOption then some name else none
  | .stray _ => none

/-- The place of what a unit stands for in the order of the search; what stands for nothing is last. -/
def rank (g : Graph) (t : Task) : Nat :=
  match g.standsFor t with
  | some name => g.search.done.idxOf name
  | none => g.search.done.length

theorem standsFor_eq_some {g : Graph} {t : Task} {name : String} :
    g.standsFor t = some name ↔
      t.id = .proper name ∧ Keyed.find? g.named name = (dependencies t).toOption := by
  unfold standsFor
  cases t.id with
  | proper other =>
      by_cases same : other = name
      · subst same
        simp
      · simp [same]
  | stray v => simp

end Graph

section

variable {units : List Task} {g : Graph} {t : Task} {name next : String}

theorem Describes.standsFor (describes : Describes units g) (counts : Counts units t)
    (id : t.id = .proper name) : g.standsFor t = some name := by
  obtain ⟨after, told⟩ := describes.told t (mem_of_counts counts)
  rw [Graph.standsFor_eq_some, told]
  exact ⟨id, (describes.named name after).mpr ⟨t, counts, id, told⟩⟩

/-- The last unit with an id that another unit lists has the lower rank. -/
theorem Describes.rank_lt (describes : Describes units g) (acyclic : g.isAcyclic = true)
    {u : Task} (member : t ∈ units) (lists : Lists t next) (counts : Counts units u)
    (id : u.id = .proper next) : g.rank u < g.rank t := by
  obtain ⟨known, ordered⟩ := Search.finish_ordered ((Bool.not_eq_true' _).mp acyclic)
  rw [Graph.rank, describes.standsFor counts id]
  cases stands : g.standsFor t with
  | none =>
      have named : next ∈ Keyed.keys g.named :=
        Keyed.has_iff.mp (describes.has_iff.mpr ⟨u, mem_of_counts counts, id⟩)
      rw [Graph.rank, stands]
      exact List.idxOf_lt_length_of_mem (known next named)
  | some name =>
      obtain ⟨after, told⟩ := describes.told t member
      have found := (Graph.standsFor_eq_some.mp stands).2
      rw [told] at found
      rw [Graph.rank, stands]
      refine ordered name next ?_
      rw [DependsOn, Dependencies.of, found]
      exact (mem_dependencies_iff told).mpr lists

theorem exists_inOrder (describes : Describes units g) (acyclic : g.isAcyclic = true)
    (known : ∀ t ∈ units, ∀ next, Lists t next → Known units next) :
    ∃ order, order.Perm units ∧ InOrder order := by
  obtain ⟨order, perm, ranked⟩ := exists_ranked g.rank units
  refine ⟨order, perm, fun before t after split next lists => ?_⟩
  have member : t ∈ units := by
    rw [← perm.mem_iff, split]
    exact List.mem_append_right _ List.mem_cons_self
  obtain ⟨u, counts, id⟩ := known_iff.mp (known t member next lists)
  have lower := describes.rank_lt acyclic member lists counts id
  exact ⟨u, ranked before t after split u (mem_of_counts counts) lower, id⟩

/-- What is listed in an order stands in it. -/
theorem InOrder.known {order : List Task} (ordered : InOrder order) (perm : order.Perm units) :
    ∀ t ∈ units, ∀ next, Lists t next → Known units next := by
  intro t member next lists
  obtain ⟨before, after, split⟩ := List.append_of_mem (perm.mem_iff.mpr member)
  obtain ⟨u, earlier, id⟩ := ordered before t after split next lists
  refine ⟨u, ?_, id⟩
  rw [← perm.mem_iff, split]
  exact List.mem_append_left _ earlier

/-- Where no id comes twice, every unit counts. -/
theorem counts_of_pairwise (apart : units.Pairwise fun t u => sameId t.id u.id = false)
    (member : t ∈ units) : Counts units t := by
  obtain ⟨before, after, rfl⟩ := List.append_of_mem member
  have others := (List.pairwise_append.mp apart).2.1
  exact ⟨before, after, rfl, fun u later => List.rel_of_pairwise_cons others later⟩

end

theorem ready_dependencies {d : Document} (ready : readyToPublish d = .ok true) :
    dependenciesValid d = .ok true := by
  obtain ⟨approved, _, rest⟩ := Except.bind_eq_ok.mp ready
  cases approved
  · cases rest
  · exact rest

/-- When publishing may begin, the completed units can be put in an order in which what a unit lists comes
before it exactly if every one of them lists ids of completed units only. That is so wherever no id comes
twice. -/
theorem publishing_order {d : Document} (ready : readyToPublish d = .ok true) :
    ∃ units, completedUnits d = .ok units ∧
      ((∃ order, order.Perm units ∧ InOrder order) ↔
        ∀ t ∈ units, ∀ next, Lists t next → Known units next) ∧
      (units.Pairwise (fun t u => sameId t.id u.id = false) →
        ∃ order, order.Perm units ∧ InOrder order) := by
  obtain ⟨g, made, judged⟩ := Except.bind_eq_ok.mp (ready_dependencies ready)
  obtain ⟨units, completed, gathered⟩ := Except.bind_eq_ok.mp made
  have describes := describes_units gathered
  obtain ⟨knowsAll, acyclic⟩ := Bool.and_eq_true_iff.mp (Except.ok.inj judged)
  refine ⟨units, completed, ⟨?_, exists_inOrder describes acyclic⟩, fun apart => ?_⟩
  · rintro ⟨order, perm, ordered⟩
    exact ordered.known perm
  · refine exists_inOrder describes acyclic fun t member => ?_
    exact describes.knowsAll_iff.mp knowsAll t (counts_of_pairwise apart member)

/-- Two units of one id, the first of which depends on a unit that is not there. -/
def shadowed : List Task := [
  unit "a" .completed [.text "b"],
  unit "a" .completed []]

/-- Publishing may begin in a valid document although no order would do. -/
theorem publishing_shadowed :
    readyToPublish (brokenDown shadowed) = .ok true ∧
      (blueprint.findings (brokenDown shadowed) []).1 = .ok [] ∧
      (Machine.start blueprint "Active").canFire (brokenDown shadowed) "begin_publishing" = .ok true ∧
      completedUnits (brokenDown shadowed) = .ok shadowed ∧
      ¬∃ order, order.Perm shadowed ∧ InOrder order := by
  have ready : readyToPublish (brokenDown shadowed) = .ok true := ok_of_toOption (by decide +kernel)
  have completed : completedUnits (brokenDown shadowed) = .ok shadowed := rfl
  refine ⟨ready, ok_of_toOption (by decide +kernel), ok_of_toOption (by decide +kernel), completed, ?_⟩
  obtain ⟨units, same, exactly, _⟩ := publishing_order ready
  obtain rfl := Except.ok.inj (same.symm.trans completed)
  intro exists_order
  have lists : Lists (unit "a" .completed [.text "b"]) "b" :=
    ⟨_, _, rfl, rfl, List.mem_cons_self⟩
  obtain ⟨u, member, id⟩ := exactly.mp exists_order _ List.mem_cons_self "b" lists
  have named : ∀ t ∈ shadowed, t.id.holds "b" = false := by decide
  have other := named u member
  rw [id] at other
  cases other

end Lifecycle.Breakdown
