import Lifecycle.Proofs.Blame
import Lifecycle.Proofs.Drafts
/-!
Where branches lead. In a state with a branch the value of its discriminator leads along the route that was
declared for it last, as if its event had been fired, unless that event is empty; a value without a route
is reported, and nothing changes. -/

namespace Lifecycle

namespace Clause

variable {source value : String} {clauses : List Clause} {t : Transition}

def discriminator? : Clause → Option (Sight → Except Fault String)
  | .on discriminator => some discriminator
  | .route .. => none

/-- The discriminator of a branch: of those given the last one counts. -/
def chooser? (clauses : List Clause) : Option (Sight → Except Fault String) :=
  (clauses.filterMap discriminator?).getLast?

/-- A value has a route. -/
def Offers (clauses : List Clause) (value : String) : Prop :=
  ∃ event target options, .route value event target options ∈ clauses

/-- A transition is made from the last route for a value. -/
def Leads (source : String) (clauses : List Clause) (value : String) (t : Transition) : Prop :=
  ∃ before event target options after, clauses = before ++ .route value event target options :: after ∧
    ¬Offers after value ∧ t = { Transition.make source target event options with source }

theorem routeFor?_append (source : String) (clauses : List Clause) (last : Clause) (value : String) :
    routeFor? source (clauses ++ [last]) value =
      match last with
      | .on _ => routeFor? source clauses value
      | .route other event target options =>
        if other = value then some { Transition.make source target event options with source }
        else routeFor? source clauses value := by
  rw [routeFor?, routes, List.filterMap_append, List.reverse_append]
  cases last with
  | on => rfl
  | route => rfl

theorem leads_append {last : Clause} :
    Leads source (clauses ++ [last]) value t ↔
      (∃ event target options, last = .route value event target options ∧
        t = { Transition.make source target event options with source }) ∨
      ¬Offers [last] value ∧ Leads source clauses value t := by
  simp only [Leads, append_singleton_eq_iff]
  constructor
  · rintro ⟨before, event, target, options, after, ⟨_, here, _⟩ | ⟨rest, rfl, split⟩, later, made⟩
    · exact .inl ⟨event, target, options, here.symm, made⟩
    · refine .inr ⟨?_, before, event, target, options, rest, split, ?_, made⟩
      · rintro ⟨e, g, o, member⟩
        exact later ⟨e, g, o, List.mem_append_right _ member⟩
      · rintro ⟨e, g, o, member⟩
        exact later ⟨e, g, o, List.mem_append_left _ member⟩
  · rintro (⟨event, target, options, rfl, made⟩ |
      ⟨other, before, event, target, options, rest, split, later, made⟩)
    · refine ⟨clauses, event, target, options, [], .inl ⟨rfl, rfl, rfl⟩, ?_, made⟩
      rintro ⟨_, _, _, member⟩
      cases member
    · refine ⟨before, event, target, options, rest ++ [last], .inr ⟨rest, rfl, split⟩, ?_, made⟩
      rintro ⟨e, g, o, member⟩
      rcases List.mem_append.mp member with within | here
      · exact later ⟨e, g, o, within⟩
      · exact other ⟨e, g, o, here⟩

theorem routeFor?_eq_some_iff :
    routeFor? source clauses value = some t ↔ Leads source clauses value t := by
  induction clauses using List.reverseRecOn with
  | nil => simp [routeFor?, routes, Leads]
  | append_singleton before last ih =>
      rw [routeFor?_append, leads_append, ← ih]
      cases last with
      | on => simp [Offers]
      | route other event target options =>
          by_cases same : other = value
          · subst same
            simp [Offers, eq_comm]
          · simp [Offers, same, Ne.symm same]

/-- The values of a branch are those that have routes. -/
theorem mem_values_iff : value ∈ values source clauses ↔ Offers clauses value := by
  rw [values, Text.mem_sorted, ← Text.keys_ofList, ← Keyed.has_iff, ← Draft.branchOf_routes,
    Draft.branchOf_has]
  rfl

theorem routeFor?_eq_none (off : ¬Offers clauses value) : routeFor? source clauses value = none := by
  cases leads : routeFor? source clauses value with
  | none => rfl
  | some t => exact absurd (mem_values_iff.mp (mem_values leads)) off

end Clause

namespace Draft

variable {name source : String} {calls : List Declaration} {clauses : List Clause} {b : Blueprint}

theorem branchOf_discriminator (source : String) (clauses : List Clause) :
    (branchOf source clauses).discriminator = Clause.chooser? clauses := by
  induction clauses using List.reverseRecOn with
  | nil => rfl
  | append_singleton before last ih =>
      rw [branchOf_append, Clause.chooser?, List.filterMap_append, List.getLast?_append]
      cases last with
      | on => rfl
      | route => exact ih

theorem find?_addBranch_ne {table : Keyed String Determiner} {branch : Branch} {state : String}
    (other : branch.source ≠ state) :
    Keyed.find? (addBranch table branch) state = Keyed.find? table state := by
  unfold addBranch
  split
  · rw [Keyed.find?_put, if_neg other]
  · rfl

/-- Of branches from different states each one chooses in its own state. -/
theorem find?_addBranches {branches : List Branch} {branch : Branch} {chooses : Determiner}
    (distinct : (branches.map Branch.source).Nodup) (member : branch ∈ branches)
    (complete : branchDeterminer? branch = some chooses) (table : Keyed String Determiner) :
    Keyed.find? (branches.foldl addBranch table) branch.source = some chooses := by
  induction branches using List.reverseRecOn with
  | nil => cases member
  | append_singleton before last ih =>
      rw [List.map_append, List.nodup_append] at distinct
      obtain ⟨distinct, _, apart⟩ := distinct
      rw [List.foldl_append, List.foldl_cons, List.foldl_nil]
      rcases List.mem_append.mp member with earlier | here
      · rw [find?_addBranch_ne, ih distinct earlier]
        exact fun same => apart _ (List.mem_map_of_mem earlier) _ (List.mem_singleton_self _) same.symm
      · obtain rfl := List.mem_singleton.mp here
        rw [addBranch, complete]
        simp only [Keyed.find?_put, if_true]

/-- In a state with a branch, the branch chooses. -/
theorem find?_determiners (built : (declared name calls).build = .ok b)
    (branch : .branch source clauses ∈ calls) {discriminator : Sight → Except Fault String}
    (chooses : Clause.chooser? clauses = some discriminator) :
    Keyed.find? b.determiners source = some (.branch source discriminator
      ((branchOf source clauses).routes.map fun entry => (entry.1, entry.2.event))) := by
  obtain ⟨initial, _, _, checked, _, rfl⟩ := build_eq_ok.mp built
  have member : branchOf source clauses ∈ (declared name calls).branches := by
    rw [declared_branches]
    exact List.mem_map.mpr ⟨_, (mem_branches_iff calls).mpr branch, rfl⟩
  have complete : branchDeterminer? (branchOf source clauses) = some (.branch source discriminator
      ((branchOf source clauses).routes.map fun entry => (entry.1, entry.2.event))) := by
    rw [branchDeterminer?, branchOf_discriminator, chooses, branchOf_source]
    rfl
  have found := find?_addBranches (checkBranches_eq_ok.mp checked).2.1 member complete
    ((declared name calls).determiners.map fun entry => (entry.1, .function entry.2))
  rwa [branchOf_source] at found

/-- In a state with a branch the event is that of the route for the value, if there is one. -/
theorem determineEvent_branch (built : (declared name calls).build = .ok b)
    (branch : .branch source clauses ∈ calls) {discriminator : Sight → Except Fault String}
    (chooses : Clause.chooser? clauses = some discriminator) {sight : Sight} {value : String}
    (looked : discriminator sight = .ok value) :
    b.determineEvent sight source =
      match Clause.routeFor? source clauses value with
      | some t => if t.event = "" then .error (.noEvent source) else .ok t.event
      | none => .error (.unmatched source value (Clause.values source clauses)) := by
  have events : Keyed.find? ((branchOf source clauses).routes.map fun entry => (entry.1, entry.2.event))
      value = (Clause.routeFor? source clauses value).map (·.event) := by
    rw [Keyed.find?_map (fun t : Transition => t.event), branchOf_routes, Keyed.find?_ofList]
    rfl
  have keys : Keyed.keys ((branchOf source clauses).routes.map fun entry => (entry.1, entry.2.event)) =
      Text.distinct ((Clause.routes source clauses).map Prod.fst) := by
    rw [← Text.keys_ofList, ← branchOf_routes, Keyed.keys, List.map_map]
    rfl
  rw [Blueprint.determineEvent, find?_determiners built branch chooses]
  simp only [Determiner.choose, looked, bind, Except.bind, events, keys]
  cases Clause.routeFor? source clauses value <;> rfl

/-- What a branch leads to is declared, and nothing else leaves its state by the same event. -/
theorem leads_declared (built : (declared name calls).build = .ok b)
    (branch : .branch source clauses ∈ calls) {value : String} {t : Transition}
    (leads : Clause.routeFor? source clauses value = some t) :
    t ∈ b.transitionsFrom source ∧
      ∀ u ∈ b.transitions, u.source = source → u.event = t.event → u = t := by
  have leaves : t.source = source := by
    obtain ⟨_, _, _, _, _, _, _, rfl⟩ := Clause.routeFor?_eq_some_iff.mp leads
    rfl
  have member : t ∈ b.transitions := by
    obtain ⟨initial, _, rfl⟩ := (declared_build name calls).mp built
    rw [blueprint, declared_transitions]
    exact List.mem_flatMap.mpr ⟨_, branch, List.mem_filterMap.mpr
      ⟨value, Clause.mem_values leads, leads⟩⟩
  refine ⟨List.mem_filter.mpr ⟨member, decide_eq_true leaves⟩, fun u other from_here same => ?_⟩
  have trigger : u.trigger = t.trigger := Prod.ext (from_here.trans leaves.symm) same
  exact List.inj_on_of_nodup_map (build_distinct built) other member trigger

end Draft

namespace Desk

open Draft (declared)

variable {σ : Type} [Backend σ] {desk : Desk σ} {now : Timestamp}

/-- Whatever goes wrong when a declared event is fired, it is not that the event is not declared. -/
theorem fire_configured (apart : Backend.Apart σ) {event : String} {t : Transition}
    (found : desk.project.machine.transition event = .ok t) (now : Timestamp)
    (state other : String) (available : List String) :
    (fire now event desk).1 ≠ .error (.notConfigured state other available) := by
  intro failed
  rw [run_fire] at failed
  rcases fired : desk.project.fire now event with ⟨fault | u, moved⟩
  · rw [fired] at failed
    obtain rfl := Except.error.inj failed
    have refused := congrArg Prod.fst fired
    rcases passed : desk.project.machine.passes desk.project.document t with cause | _ | _
    · rw [Project.run_fire, found] at refused
      simp only [passed] at refused
      rw [Machine.passes] at passed
      split at passed
      · cases passed
      · split at passed <;> cases passed
        cases refused
    · rw [Project.run_fire, found] at refused
      simp only [passed] at refused
      cases refused
    · cases Project.fire_fails found passed refused
  · rw [fired] at failed
    cases settle_apart apart now _ u _ _ failed

/-- In a state with a branch a call for the next step is the same as firing the event of the last route for
the value that the branch looks at, and that event fires this route alone. A route without an event is
never taken in this way. A value without a route is reported with the values that have one, in order, and
nothing changes. -/
theorem branch_routes {name source : String} {calls : List Declaration} {clauses : List Clause}
    {b : Blueprint} (built : (declared name calls).build = .ok b)
    (branch : .branch source clauses ∈ calls) (machine : desk.project.machine = .start b source)
    {look : Sight → Except Fault Value}
    (chooses : Clause.chooser? clauses = some fun sight => (look sight).map Value.name) {v : Value}
    (looked : look desk.project.sight = .ok v) (now : Timestamp) :
    (∀ t, Clause.Leads source clauses v.name t → t.event ≠ "" →
      desk.project.machine.transition t.event = .ok t ∧
      (∀ u ∈ b.transitions, u.source = source → u.event = t.event → u = t) ∧
      advance now desk = fire now t.event desk ∧
      (Backend.Apart σ → ∀ state event available,
        (advance now desk).1 ≠ .error (.notConfigured state event available))) ∧
    (∀ t, Clause.Leads source clauses v.name t → t.event = "" →
      advance now desk = (.error (.noEvent source), desk)) ∧
    (¬Clause.Offers clauses v.name → ∃ values : List String, values.Pairwise (· < ·) ∧
      (∀ value, value ∈ values ↔ Clause.Offers clauses value) ∧
      advance now desk = (.error (.unmatched source v.name values), desk)) := by
  have asked : desk.project.eventFor none = b.determineEvent desk.project.sight source := by
    rw [Project.eventFor, Project.determineEvent, Project.blueprint, Project.state, machine]
    rfl
  have named : (look desk.project.sight).map Value.name = .ok v.name := by rw [looked]; rfl
  rw [Draft.determineEvent_branch built branch chooses named] at asked
  have proceeds := run_proceed now none desk
  rw [asked] at proceeds
  refine ⟨fun t leads fires => ?_, fun t leads empty => ?_, fun off => ?_⟩
  · rw [← Clause.routeFor?_eq_some_iff] at leads
    obtain ⟨leaves, only⟩ := Draft.leads_declared built branch leads
    have found : desk.project.machine.transition t.event = .ok t := by
      rw [machine, Machine.transition_eq_ok, Machine.lookup_eq_some_iff (Draft.build_distinct built)]
      exact ⟨leaves, rfl⟩
    simp only [leads, if_neg fires] at proceeds
    refine ⟨found, only, proceeds, fun apart state event available => ?_⟩
    rw [show advance now desk = fire now t.event desk from proceeds]
    exact fire_configured apart found now state event available
  · rw [← Clause.routeFor?_eq_some_iff] at leads
    simp only [leads, if_pos empty] at proceeds
    exact proceeds
  · simp only [Clause.routeFor?_eq_none off] at proceeds
    exact ⟨_, Clause.values_increasing source clauses, fun _ => Clause.mem_values_iff, proceeds⟩

/-- A desk with a project of a type, in the state given. -/
def opened (b : Blueprint) (state : String) : Desk MemoryStore :=
  ⟨.start b (.sample []) state, ⟨⟨none, 0⟩, []⟩⟩

/-- A branch with two routes for one of its values. -/
def relaying : List Clause := [
  .on fun _ => .ok "no",
  .route "yes" "again" "Idle" [],
  .route "no" "stay" "Idle" [],
  .on fun _ => (Except.ok (.text "yes") : Except Fault Value).map Value.name,
  .route "yes" "go" "Busy" [.description "on the way"]]

/-- That branch beside a transition from the same state. -/
def relay : List Declaration := [
  .phase "plan" [], .startAt "Idle", .branch "Idle" relaying, .transition "Idle" "Done" "skip" []]

def go : Transition := .make "Idle" "Busy" "go" [.description "on the way"]

theorem build_relay :
    (declared "relay" relay).build = .ok ((declared "relay" relay).blueprint "Idle") := by
  have sorted : Text.sorted ["yes", "no"] = ["no", "yes"] := by simp [Text.sorted, List.mergeSort]
  have transitions : (declared "relay" relay).transitions =
      [.plain "Idle" "Idle" "stay", go, .plain "Idle" "Done" "skip"] := by
    show (Text.sorted ["yes", "no"]).filterMap (fun value =>
      Keyed.find? [("yes", go), ("no", .plain "Idle" "Idle" "stay")] value) ++
        [.plain "Idle" "Done" "skip"] = _
    rw [sorted]
    rfl
  have reached : Draft.reachable [.plain "Idle" "Idle" "stay", go, .plain "Idle" "Done" "skip"] "Idle" =
      ["Idle", "Busy", "Done"] := by
    decide +kernel
  apply Draft.build_eq "Idle" rfl (by decide) rfl
  rw [transitions, reached]
  rfl

theorem branch_relay :
    (declared "relay" relay).build = .ok ((declared "relay" relay).blueprint "Idle") ∧
      Clause.Leads "Idle" relaying "yes" go ∧
      advance newYear (opened ((declared "relay" relay).blueprint "Idle") "Idle") =
        fire newYear "go" (opened ((declared "relay" relay).blueprint "Idle") "Idle") := by
  have leads : Clause.Leads "Idle" relaying "yes" go := by
    refine ⟨relaying.take 4, "go", "Busy", _, [], rfl, ?_, rfl⟩
    rintro ⟨_, _, _, member⟩
    cases member
  have branch : .branch "Idle" relaying ∈ relay := by simp [relay]
  have machine : (opened ((declared "relay" relay).blueprint "Idle") "Idle").project.machine =
      .start ((declared "relay" relay).blueprint "Idle") "Idle" := rfl
  have chooses : Clause.chooser? relaying = some fun _ =>
      (Except.ok (.text "yes") : Except Fault Value).map Value.name := rfl
  obtain ⟨routes, _⟩ := branch_routes build_relay branch machine chooses rfl newYear
  exact ⟨build_relay, leads, (routes go leads (by decide)).2.2.1⟩

/-- A branch whose only route has no event. -/
def unnamed : List Declaration := [
  .phase "plan" [], .startAt "A", .branch "A" [.on fun _ => .ok "x", .route "x" "" "B" []]]

/-- The type that has this branch, with its transition spelled out. -/
def nameless : Blueprint :=
  { (declared "unnamed" unnamed).blueprint "A" with transitions := [.plain "A" "B" ""] }

theorem build_unnamed : (declared "unnamed" unnamed).build = .ok nameless := by
  have transitions : (declared "unnamed" unnamed).transitions = [.plain "A" "B" ""] := by
    show (Text.sorted ["x"]).filterMap (fun value =>
      Keyed.find? [("x", Transition.plain "A" "B" "")] value) ++ [] = _
    rw [show Text.sorted ["x"] = ["x"] by simp [Text.sorted]]
    rfl
  have reached : Draft.reachable [.plain "A" "B" ""] "A" = ["A", "B"] := by
    decide +kernel
  have listed : (declared "unnamed" unnamed).blueprint "A" = nameless := by
    rw [nameless, ← transitions]
    rfl
  rw [← listed]
  apply Draft.build_eq "A" rfl (by decide) rfl
  rw [transitions, reached]
  rfl

/-- Although it can be fired, a route without an event is not taken by itself. -/
theorem branch_unnamed :
    (declared "unnamed" unnamed).build = .ok nameless ∧
      (∃ clauses, unnamed = [.phase "plan" [], .startAt "A", .branch "A" clauses] ∧
        Clause.Leads "A" clauses "x" (.plain "A" "B" "")) ∧
      advance newYear (opened nameless "A") = (.error (.noEvent "A"), opened nameless "A") ∧
      (fire newYear "" (opened nameless "A")).1 = .ok ⟨"A", "B", "", "", true, true, none⟩ := by
  refine ⟨build_unnamed, ⟨_, rfl, ?_⟩, rfl, ok_of_toOption (by decide +kernel)⟩
  refine ⟨[_], "", "B", [], [], rfl, ?_, rfl⟩
  rintro ⟨_, _, _, member⟩
  cases member

end Desk

end Lifecycle
