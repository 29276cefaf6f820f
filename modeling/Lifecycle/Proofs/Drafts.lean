import Lifecycle.Proofs.Accepted
import Lifecycle.Proofs.Sorting
import Lifecycle.Proofs.Walk
import Mathlib.Data.List.Induction
import Mathlib.Data.String.Basic
/-!
Which drafts are accepted. A draft is what a list of calls makes of an empty one; what is asked of it is
asked here of the calls, and the states that can be reached are those that a path leads to. -/

namespace Lifecycle

/-- Where a list that ends in `x` can be split: at its end or before. -/
theorem append_singleton_eq_iff {α : Type} {list before after : List α} {x y : α} :
    list ++ [x] = before ++ y :: after ↔
      (before = list ∧ y = x ∧ after = []) ∨ ∃ rest, after = rest ++ [x] ∧ list = before ++ y :: rest := by
  constructor
  · intro same
    rcases List.eq_nil_or_concat after with rfl | ⟨rest, last, rfl⟩
    · obtain ⟨rfl, here⟩ := List.append_inj' same rfl
      exact .inl ⟨rfl, (List.singleton_inj.mp here).symm, rfl⟩
    · rw [List.concat_eq_append, ← List.cons_append, ← List.append_assoc] at same
      obtain ⟨rfl, here⟩ := List.append_inj' same rfl
      obtain rfl := List.singleton_inj.mp here
      exact .inr ⟨rest, List.concat_eq_append, rfl⟩
  · rintro (⟨rfl, rfl, rfl⟩ | ⟨rest, rfl, rfl⟩)
    · rfl
    · rw [List.append_assoc, List.cons_append]

namespace Keyed

variable {κ α : Type} [DecidableEq κ]

theorem ofList_append (entries : List (κ × α)) (last : κ × α) :
    ofList (entries ++ [last]) = put (ofList entries) last.1 last.2 := by
  rw [ofList, List.foldl_append, List.foldl_cons, List.foldl_nil, ← ofList]

/-- Of the entries for a key a table takes the last one. -/
theorem find?_ofList (entries : List (κ × α)) (k : κ) :
    find? (ofList entries) k = find? entries.reverse k := by
  induction entries using List.reverseRecOn with
  | nil => rfl
  | append_singleton before last ih =>
      rw [List.reverse_append, List.reverse_singleton, List.singleton_append, find?, ← ih,
        ofList_append, find?_put]

theorem distinct_ofList (entries : List (κ × α)) : Distinct (ofList entries) := by
  induction entries using List.reverseRecOn with
  | nil => exact List.nodup_nil
  | append_singleton before last ih =>
      rw [ofList_append]
      exact distinct_put ih _ _

theorem has_iff {table : Keyed κ α} {k : κ} : has table k = true ↔ k ∈ keys table := by
  induction table with
  | nil => simp [has, keys]
  | cons entry rest ih =>
      rw [has, find?, keys_cons, List.mem_cons, ← ih]
      split
      · next same => simp [same]
      · next other => simp [has, Ne.symm other]

theorem ne_nil_iff {table : Keyed κ α} : table ≠ [] ↔ ∃ k, has table k = true := by
  cases table with
  | nil => simp [has]
  | cons entry rest => simp [has_iff, keys]

end Keyed

namespace Text

theorem distinct_append (names : List String) (last : String) :
    distinct (names ++ [last]) =
      if last ∈ distinct names then distinct names else distinct names ++ [last] := by
  rw [distinct, List.foldl_append, List.foldl_cons, List.foldl_nil, ← distinct]

theorem keys_ofList {α : Type} (entries : List (String × α)) :
    Keyed.keys (Keyed.ofList entries) = distinct (entries.map Prod.fst) := by
  induction entries using List.reverseRecOn with
  | nil => rfl
  | append_singleton before last ih =>
      rw [Keyed.ofList_append, Keyed.keys_put, ih, List.map_append, List.map_singleton,
        distinct_append]

theorem mem_sorted {names : List String} {name : String} : name ∈ sorted names ↔ name ∈ names :=
  (List.mergeSort_perm names _).mem_iff

theorem sorted_increasing {names : List String} (distinct : names.Nodup) :
    (sorted names).Pairwise (· < ·) := by
  have ordered : (sorted names).Pairwise fun a b => decide (a ≤ b) = true := by
    apply List.pairwise_mergeSort
    · intro a b c first second
      exact decide_eq_true (le_trans (of_decide_eq_true first) (of_decide_eq_true second))
    · intro a b
      simpa using le_total a b
  have different : (sorted names).Nodup := (List.mergeSort_perm names _).nodup_iff.mpr distinct
  apply (ordered.and different).imp
  intro a b both
  exact lt_of_le_of_ne (of_decide_eq_true both.1) both.2

end Text

/-- One of the options of a branch. -/
inductive Clause where
  | on (discriminator : Sight → Except Fault String)
  | route (value event target : String) (options : List TransitionOption)

namespace Clause

def option : Clause → BranchOption
  | .on discriminator => .on discriminator
  | .route value event target options => .route value event target options

/-- A value, and the transition that it leads along out of a state. -/
def route? (source : String) : Clause → Option (String × Transition)
  | .on _ => none
  | .route value event target options =>
      some (value, { Transition.make source target event options with source })

def routes (source : String) (clauses : List Clause) : List (String × Transition) :=
  clauses.filterMap (route? source)

/-- Where a value leads: of the routes for it the last one counts. -/
def routeFor? (source : String) (clauses : List Clause) (value : String) : Option Transition :=
  Keyed.find? (routes source clauses).reverse value

/-- The values that have routes, each of them once, in order. -/
def values (source : String) (clauses : List Clause) : List String :=
  Text.sorted (Text.distinct ((routes source clauses).map Prod.fst))

/-- The routes that a branch ends up with, by increasing value: for each value the one that counts. -/
structure Paths (source : String) (clauses : List Clause) (paths : List (String × Transition)) :
    Prop where
  increasing : (paths.map Prod.fst).Pairwise (· < ·)
  mem_iff : ∀ value t, (value, t) ∈ paths ↔ routeFor? source clauses value = some t

theorem values_increasing (source : String) (clauses : List Clause) :
    (values source clauses).Pairwise (· < ·) := by
  rw [values, ← Text.keys_ofList]
  exact Text.sorted_increasing (Keyed.distinct_ofList _)

theorem mem_values {source value : String} {clauses : List Clause} {t : Transition}
    (leads : routeFor? source clauses value = some t) : value ∈ values source clauses := by
  rw [values, Text.mem_sorted, ← Text.keys_ofList, ← Keyed.has_iff, Keyed.has, Keyed.find?_ofList,
    ← routeFor?, leads]
  rfl

/-- The transitions of a branch are its routes by increasing value, and none of them is lost. -/
theorem exists_paths (source : String) (clauses : List Clause) :
    ∃ paths, Paths source clauses paths ∧
      (values source clauses).filterMap (routeFor? source clauses) = paths.map Prod.snd := by
  refine ⟨(values source clauses).filterMap fun value =>
    (routeFor? source clauses value).map (Prod.mk value), ⟨?_, ?_⟩, ?_⟩
  · rw [List.pairwise_map, List.pairwise_filterMap]
    apply (values_increasing source clauses).imp
    intro first second less entry here other there
    obtain ⟨_, _, rfl⟩ := Option.map_eq_some_iff.mp here
    obtain ⟨_, _, rfl⟩ := Option.map_eq_some_iff.mp there
    exact less
  · intro value t
    rw [List.mem_filterMap]
    constructor
    · rintro ⟨_, _, entry⟩
      obtain ⟨_, leads, same⟩ := Option.map_eq_some_iff.mp entry
      cases same
      exact leads
    · intro leads
      exact ⟨value, mem_values leads, by rw [leads, Option.map_some]⟩
  · rw [List.map_filterMap]
    apply List.filterMap_congr
    intro value _
    rw [Option.map_map]
    exact Option.map_id'.symm

end Clause

/-- One of the calls that describe a project type. -/
inductive Declaration where
  | phase (name : String) (options : List PhaseOption)
  | startAt (state : String)
  | transition (source target event : String) (options : List TransitionOption)
  | branch (source : String) (clauses : List Clause)
  | onAdvance (state : String) (choose : Sight → Except Fault String)
  | prompt (state : String) (p : Prompt)
  | orchestratorPrompt (p : Prompt)
  | initializeWith (i : Initializer)

namespace Declaration

def apply : Declaration → Draft → Draft
  | .phase name options => .phase name options
  | .startAt state => .startAt state
  | .transition source target event options => .transition source target event options
  | .branch source clauses => .branch source (clauses.map Clause.option)
  | .onAdvance state choose => .onAdvance state choose
  | .prompt state p => .prompt state p
  | .orchestratorPrompt p => .orchestratorPrompt p
  | .initializeWith i => .initializeWith i

def start? : Declaration → Option String
  | .startAt state => some state
  | _ => none

def branch? : Declaration → Option (String × List Clause)
  | .branch source clauses => some (source, clauses)
  | _ => none

/-- The transitions that a call declares: its own, or one for each value of a branch. -/
def transitions : Declaration → List Transition
  | .transition source target event options => [.make source target event options]
  | .branch source clauses => (Clause.values source clauses).filterMap (Clause.routeFor? source clauses)
  | _ => []

end Declaration

/-- What is asked of a list of calls, with the initial state and the transitions that it declares. -/
structure WellFormed (calls : List Declaration) (initial : String) : Prop where
  starts : (calls.filterMap Declaration.start?).getLast? = some initial
  named : initial ≠ ""
  chooses : ∀ source clauses, .branch source clauses ∈ calls → ∃ discriminator, .on discriminator ∈ clauses
  leads : ∀ source clauses, .branch source clauses ∈ calls →
    ∃ value event target options, .route value event target options ∈ clauses
  valued : ∀ source clauses, .branch source clauses ∈ calls →
    ∀ event target options, .route "" event target options ∉ clauses
  once : ((calls.filterMap Declaration.branch?).map Prod.fst).Nodup
  either : ∀ source clauses choose,
    .branch source clauses ∈ calls → .onAdvance source choose ∉ calls
  distinct : ((calls.flatMap Declaration.transitions).map Transition.trigger).Nodup
  reached : ∀ t ∈ calls.flatMap Declaration.transitions,
    Relation.ReflTransGen (LeadsTo (calls.flatMap Declaration.transitions)) initial t.source

namespace Draft

/-- What calls make of an empty draft. -/
def declared (name : String) (calls : List Declaration) : Draft :=
  calls.foldl (fun d call => call.apply d) (.empty name)

/-- The branch that a call declares. -/
def branchOf (source : String) (clauses : List Clause) : Branch :=
  (clauses.map Clause.option).foldl (fun b option => option b) ⟨source, none, []⟩

theorem branchOf_append (source : String) (clauses : List Clause) (last : Clause) :
    branchOf source (clauses ++ [last]) = last.option (branchOf source clauses) := by
  simp only [branchOf, List.map_append, List.map_singleton, List.foldl_append, List.foldl_cons,
    List.foldl_nil]

theorem branchOf_source (source : String) (clauses : List Clause) :
    (branchOf source clauses).source = source := by
  induction clauses using List.reverseRecOn with
  | nil => rfl
  | append_singleton before last ih =>
      rw [branchOf_append]
      cases last with
      | on => exact ih
      | route => exact ih

theorem branchOf_routes (source : String) (clauses : List Clause) :
    (branchOf source clauses).routes = Keyed.ofList (Clause.routes source clauses) := by
  induction clauses using List.reverseRecOn with
  | nil => rfl
  | append_singleton before last ih =>
      rw [branchOf_append, Clause.routes, List.filterMap_append, ← Clause.routes]
      cases last with
      | on discriminator =>
          have none : [Clause.on discriminator].filterMap (Clause.route? source) = [] := rfl
          rw [none, List.append_nil]
          exact ih
      | route value event target options =>
          have same := branchOf_source source before
          simp [Clause.route?, Keyed.ofList_append, ← ih, Clause.option, BranchOption.route, same]

theorem branchOf_chooses (source : String) (clauses : List Clause) :
    (branchOf source clauses).discriminator.isSome ↔
      ∃ discriminator, .on discriminator ∈ clauses := by
  induction clauses using List.reverseRecOn with
  | nil => simp [branchOf]
  | append_singleton before last ih =>
      rw [branchOf_append]
      cases last with
      | on => simp [Clause.option, BranchOption.on]
      | route => simpa [Clause.option, BranchOption.route] using ih

theorem branchOf_has (source : String) (clauses : List Clause) {value : String} :
    Keyed.has (branchOf source clauses).routes value = true ↔
      ∃ event target options, .route value event target options ∈ clauses := by
  induction clauses using List.reverseRecOn with
  | nil => simp [branchOf, Keyed.has]
  | append_singleton before last ih =>
      rw [branchOf_append]
      cases last with
      | on => simpa [Clause.option, BranchOption.on] using ih
      | route other event target options =>
          rw [Clause.option, BranchOption.route, Keyed.has, Keyed.find?_put]
          by_cases same : other = value
          · rw [if_pos same, ← same]
            simp only [Option.isSome_some, true_iff]
            exact ⟨event, target, options, List.mem_append_right _ (List.mem_singleton_self _)⟩
          · simpa [same, Ne.symm same, Keyed.has] using ih

theorem branchOf_complete (source : String) (clauses : List Clause) :
    Complete (branchOf source clauses) ↔
      (∃ discriminator, .on discriminator ∈ clauses) ∧
        (∃ value event target options, .route value event target options ∈ clauses) ∧
          ∀ event target options, .route "" event target options ∉ clauses := by
  simp only [Complete, branchOf_chooses, Keyed.ne_nil_iff, branchOf_has, ← Bool.not_eq_true,
    not_exists]

theorem routesOf_branchOf (source : String) (clauses : List Clause) :
    routesOf (branchOf source clauses) = (Declaration.branch source clauses).transitions := by
  rw [routesOf, Branch.values, branchOf_routes, Text.keys_ofList]
  exact List.filterMap_congr fun value _ => Keyed.find?_ofList _ value

variable (name : String) (calls : List Declaration)

theorem declared_append (last : Declaration) :
    declared name (calls ++ [last]) = last.apply (declared name calls) := by
  rw [declared, List.foldl_append, List.foldl_cons, List.foldl_nil, ← declared]

theorem initial_apply (call : Declaration) (d : Draft) :
    (call.apply d).initial = call.start?.or d.initial := by
  cases call <;> rfl

theorem declared_initial :
    (declared name calls).initial = (calls.filterMap Declaration.start?).getLast? := by
  induction calls using List.reverseRecOn with
  | nil => rfl
  | append_singleton before last ih =>
      rw [declared_append, initial_apply, ih, List.filterMap_append, List.getLast?_append]
      cases last <;> rfl

theorem transitions_apply (call : Declaration) (d : Draft) :
    (call.apply d).transitions = d.transitions ++ call.transitions := by
  cases call with
  | transition source target event options =>
      exact List.flatMap_append
  | branch source clauses =>
      rw [← routesOf_branchOf, Declaration.apply, branch, Draft.transitions, List.flatMap_append,
        List.flatMap_singleton]
      rfl
  | _ => exact (List.append_nil _).symm

theorem declared_transitions :
    (declared name calls).transitions = calls.flatMap Declaration.transitions := by
  induction calls using List.reverseRecOn with
  | nil => rfl
  | append_singleton before last ih =>
      rw [declared_append, transitions_apply, ih, List.flatMap_append, List.flatMap_singleton]

theorem branches_apply (call : Declaration) (d : Draft) :
    (call.apply d).branches =
      d.branches ++ (call.branch?.map fun entry => branchOf entry.1 entry.2).toList := by
  cases call with
  | transition source target event options =>
      exact List.filterMap_append
  | branch source clauses =>
      exact List.filterMap_append
  | _ => exact (List.append_nil _).symm

theorem declared_branches :
    (declared name calls).branches =
      (calls.filterMap Declaration.branch?).map fun entry => branchOf entry.1 entry.2 := by
  induction calls using List.reverseRecOn with
  | nil => rfl
  | append_singleton before last ih =>
      rw [declared_append, branches_apply, ih, List.filterMap_append, List.map_append]
      cases last <;> rfl

theorem determiners_apply (call : Declaration) (d : Draft) {state : String} :
    Keyed.has (call.apply d).determiners state = true ↔
      Keyed.has d.determiners state = true ∨ ∃ choose, call = .onAdvance state choose := by
  cases call with
  | onAdvance other choose =>
      rw [Declaration.apply, Draft.onAdvance, Keyed.has, Keyed.find?_put]
      by_cases same : other = state
      · simp [same]
      · simp [same, Keyed.has]
  | _ => simp [Declaration.apply, phase, startAt, transition, branch, prompt, orchestratorPrompt,
      initializeWith]

theorem declared_determiners {state : String} :
    Keyed.has (declared name calls).determiners state = true ↔
      ∃ choose, .onAdvance state choose ∈ calls := by
  induction calls using List.reverseRecOn with
  | nil => simp [declared, empty, Keyed.has]
  | append_singleton before last ih =>
      rw [declared_append, determiners_apply, ih, ← exists_or]
      simp only [List.mem_append, List.mem_singleton, eq_comm]


theorem mem_branches_iff {source : String} {clauses : List Clause} :
    (source, clauses) ∈ calls.filterMap Declaration.branch? ↔ .branch source clauses ∈ calls := by
  rw [List.mem_filterMap]
  constructor
  · rintro ⟨call, member, is⟩
    cases call with
    | branch =>
        cases is
        exact member
    | _ => cases is
  · exact fun member => ⟨_, member, rfl⟩

theorem forall_declared_branches {property : Branch → Prop} :
    (∀ b ∈ (declared name calls).branches, property b) ↔
      ∀ source clauses, .branch source clauses ∈ calls → property (branchOf source clauses) := by
  simp only [declared_branches, List.forall_mem_map, Prod.forall, mem_branches_iff]

theorem checkBranches_declared :
    (declared name calls).checkBranches [] (declared name calls).branches = .ok () ↔
      (∀ source clauses, .branch source clauses ∈ calls →
        Complete (branchOf source clauses) ∧ ∀ choose, .onAdvance source choose ∉ calls) ∧
      ((calls.filterMap Declaration.branch?).map Prod.fst).Nodup := by
  have sources : (declared name calls).branches.map Branch.source =
      (calls.filterMap Declaration.branch?).map Prod.fst := by
    rw [declared_branches, List.map_map]
    exact List.map_congr_left fun entry _ => branchOf_source entry.1 entry.2
  rw [checkBranches_eq_ok, sources, forall_declared_branches]
  simp only [← Bool.not_eq_true, declared_determiners, branchOf_source, not_exists,
    List.not_mem_nil, not_false_eq_true, implies_true, and_true]

theorem checkTransitions_declared {initial : String} :
    (declared name calls).checkTransitions initial
        (reachable (declared name calls).transitions initial) (declared name calls).transitions [] =
          .ok () ↔
      ((calls.flatMap Declaration.transitions).map Transition.trigger).Nodup ∧
      ∀ t ∈ calls.flatMap Declaration.transitions,
        Relation.ReflTransGen (LeadsTo (calls.flatMap Declaration.transitions)) initial t.source := by
  rw [checkTransitions_eq_ok, declared_transitions]
  simp only [reachable, (Walk.start_sound _ initial).mem_finish_iff, List.not_mem_nil,
    not_false_eq_true, implies_true, true_and]

theorem declared_build {b : Blueprint} :
    (declared name calls).build = .ok b ↔
      ∃ initial, WellFormed calls initial ∧ b = (declared name calls).blueprint initial := by
  rw [build_eq_ok]
  apply exists_congr
  intro initial
  rw [declared_initial, checkBranches_declared, checkTransitions_declared]
  simp only [branchOf_complete]
  constructor
  · rintro ⟨starts, named, ⟨complete, once⟩, ⟨distinct, reached⟩, same⟩
    refine ⟨⟨starts, named, ?_, ?_, ?_, once, ?_, distinct, reached⟩, same⟩
    · exact fun source clauses member => (complete source clauses member).1.1
    · exact fun source clauses member => (complete source clauses member).1.2.1
    · exact fun source clauses member => (complete source clauses member).1.2.2
    · exact fun source clauses choose member => (complete source clauses member).2 choose
  · rintro ⟨formed, same⟩
    refine ⟨formed.starts, formed.named, ⟨?_, formed.once⟩, ⟨formed.distinct, formed.reached⟩, same⟩
    intro source clauses member
    exact ⟨⟨formed.chooses _ _ member, formed.leads _ _ member, formed.valued _ _ member⟩,
      fun choose => formed.either _ _ choose member⟩


/-- A failure that says what is wrong with a draft. -/
abbrev Complains {α : Type} (e : Except Fault α) : Prop :=
  FailsAs (fun fault => ∃ text, fault = .configuration text) e

theorem fault_complains {α : Type} (d : Draft) (text : String) :
    Complains (d.fault text : Except Fault α) :=
  .error ⟨_, rfl⟩

variable {d : Draft}

theorem checkBranches_complains (seen : List String) (bs : List Branch) :
    Complains (d.checkBranches seen bs) := by
  induction bs generalizing seen with
  | nil => exact .ok ()
  | cons b rest ih =>
      refine .bind ?_ fun _ => ih _
      unfold checkBranch branchFault
      repeat refine .ite (fault_complains _ _) ?_
      exact .ok ()

theorem checkTransitions_complains {initial : String} {reached : List String}
    (ts : List Transition) (declared : List (String × String)) :
    Complains (d.checkTransitions initial reached ts declared) := by
  induction ts generalizing declared with
  | nil => exact .ok ()
  | cons t rest ih =>
      rw [checkTransitions]
      exact .ite (fault_complains _ _) (.ite (fault_complains _ _) (ih _))

theorem build_complains : Complains d.build := by
  unfold build
  split
  · exact fault_complains d _
  · exact fault_complains d _
  · exact (checkBranches_complains _ _).bind fun _ =>
      (checkTransitions_complains _ _).bind fun _ => .ok _

/-- A list of calls is accepted if it is well-formed, and refused with a complaint if it is not. What is
accepted has the transitions that the calls declare, in their order, those of a branch by value. The walk
that finds the states that can be reached comes to its end over any transitions. -/
theorem build_exactly (name : String) (calls : List Declaration) :
    (∀ b, (declared name calls).build = .ok b ↔
      ∃ initial, WellFormed calls initial ∧ b = (declared name calls).blueprint initial) ∧
    ((∃ initial, WellFormed calls initial) ∨
      ∃ text, (declared name calls).build = .error (.configuration text)) ∧
    (∀ initial, ((declared name calls).blueprint initial).transitions =
      calls.flatMap Declaration.transitions) ∧
    (∀ source clauses, ∃ paths, Clause.Paths source clauses paths ∧
      (Declaration.branch source clauses).transitions = paths.map Prod.snd) ∧
    ∀ ts initial, ∃ rounds, ((Walk.step ts)^[rounds] (.start initial)).waiting = [] ∧
      reachable ts initial = ((Walk.step ts)^[rounds] (.start initial)).seen := by
  refine ⟨fun b => declared_build name calls, ?_, fun _ => declared_transitions name calls,
    Clause.exists_paths, ?_⟩
  · cases built : (declared name calls).build with
    | error fault =>
        obtain ⟨text, rfl⟩ := build_complains fault built
        exact .inr ⟨text, rfl⟩
    | ok b =>
        obtain ⟨initial, formed, _⟩ := (declared_build name calls).mp built
        exact .inl ⟨initial, formed⟩
  · intro ts initial
    obtain ⟨rounds, _, done, same⟩ := Walk.finish_ends ts (.start initial)
    exact ⟨rounds, done, same⟩

example : ((Declaration.branch "Idle" [.route "yes" "old" "Idle" [], .route "no" "stay" "Idle" [],
    .route "yes" "go" "Busy" []]).transitions.map (·.event)) = ["stay", "go"] := by cbv

end Draft

end Lifecycle
