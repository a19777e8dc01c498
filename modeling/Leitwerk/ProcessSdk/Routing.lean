import Leitwerk.ProcessSdk.Requests
import Leitwerk.Lib.Results
/-!
# Compiled routes and run-time routing agree

`compileDeclarations_ok` turns a compilation that succeeded into what holds of
each declaration; from it come the transitions of a turn (`Compiled`), and from
these what the two matchers of the server find. `routing_agrees_iff` is the
agreement, with the one lookup that inherited names get through.
-/

namespace Leitwerk.ProcessSdk

open Engine (TurnId TerminalStatus TurnTransition)
open StateAction (ok_of_bind ok_of_pure)

section Steps

variable {σ α β : Type}

theorem both_ok {x : Except Errors β} {y : Except Errors (List β)} {bs : List β} (h : both x y = .ok bs) :
    ∃ b bs', x = .ok b ∧ y = .ok bs' ∧ bs = b :: bs' := by
  cases x with
  | error errors => cases y <;> cases h
  | ok b =>
    cases y with
    | error errors => cases h
    | ok bs' =>
      cases h
      exact ⟨b, bs', rfl, rfl, rfl⟩

theorem mem_of_forall₂ {R : α → β → Prop} {l : List α} {l' : List β} (h : List.Forall₂ R l l') {b : β} (hb : b ∈ l') :
    ∃ a ∈ l, R a b := by
  induction h with
  | nil => cases hb
  | cons hab _ ih =>
    rcases List.mem_cons.1 hb with rfl | hb
    · exact ⟨_, List.mem_cons_self, hab⟩
    · obtain ⟨a, ha, h⟩ := ih hb
      exact ⟨a, List.mem_cons_of_mem _ ha, h⟩

theorem mem_of_forall₂_left {R : α → β → Prop} {l : List α} {l' : List β} (h : List.Forall₂ R l l') {a : α} (ha : a ∈ l) :
    ∃ b ∈ l', R a b :=
  mem_of_forall₂ h.flip ha

/-- Every declaration of a compilation that succeeded was compiled. -/
theorem compileDeclarations_ok {compile : α → Compile σ β} {l : List α} {s : σ} {bs : List β}
    (h : (compileDeclarations compile l s).1 = .ok bs) :
    List.Forall₂ (fun a b => ∃ s s', compile a s = (.ok b, s')) l bs := by
  induction l generalizing s bs with
  | nil =>
    cases h
    exact .nil
  | cons a l ih =>
    obtain ⟨b, bs', hfirst, hrest, rfl⟩ := both_ok h
    exact .cons ⟨s, (compile a s).2, Prod.ext hfirst rfl⟩ (ih hrest)

theorem ok_of_failIf {c : Prop} [Decidable c] {message : String} {s s' : σ} {u : Unit}
    (h : (failIf c message : Compile σ Unit) s = (.ok u, s')) : ¬ c ∧ s = s' := by
  unfold failIf at h
  split at h
  · cases h
  · rename_i hc
    exact ⟨hc, (ok_of_pure h).2⟩

theorem ok_of_lift {x : Except Errors α} {s s' : σ} {a : α} (h : (lift x : Compile σ α) s = (.ok a, s')) : x = .ok a ∧ s = s' := by
  cases h
  exact ⟨rfl, rfl⟩

end Steps

/-! ## Routes -/

/-- What a target that is accepted becomes. -/
structure Normalized (known : List TurnId) (target : RouteTarget) (route : TurnTransition) : Prop where
  declared : hasDeclaredStaticRouteTarget target = true
  nextTurnId : route.nextTurnId = target.toTurn
  lifecycleStatus : route.lifecycleStatus = if target.complete then some .completed else target.lifecycleStatus
  outcome : route.outcome = none
  trigger : route.trigger = none
  one : route.nextTurnId = none ↔ route.lifecycleStatus ≠ none
  known : ∀ next, route.nextTurnId = some next → next ∈ known

theorem normalizeStaticRouteTarget_ok {context : String} {target : RouteTarget} {known : List TurnId} {route : TurnTransition}
    (h : normalizeStaticRouteTarget context target known = .ok route) : Normalized known target route := by
  obtain ⟨toTurn, complete, lifecycleStatus⟩ := target
  unfold normalizeStaticRouteTarget at h
  rcases toTurn with _ | toTurn <;> rcases complete with _ | _ <;> rcases lifecycleStatus with _ | lifecycleStatus
  · cases h
  · cases h
    exact ⟨rfl, rfl, rfl, rfl, rfl, by simp, by simp⟩
  · cases h
    exact ⟨rfl, rfl, rfl, rfl, rfl, by simp, by simp⟩
  · cases h
  · dsimp only at h
    split at h
    · rename_i hknown
      cases h
      exact ⟨rfl, rfl, rfl, rfl, rfl, by simp, by simpa using hknown⟩
    · cases h
  · cases h
  · cases h
  · cases h

/-- The route as it is declared. -/
theorem Normalized.eq {known : List TurnId} {target : RouteTarget} {route : TurnTransition} (h : Normalized known target route)
    (turnId : TurnId) : route = declaredTarget turnId target := by
  obtain ⟨nextTurnId, lifecycleStatus, outcome, trigger⟩ := route
  obtain ⟨hdeclared, hnext, hlifecycle, houtcome, htrigger, -, -⟩ := h
  dsimp only at hnext hlifecycle houtcome htrigger
  rw [declaredTarget, if_pos hdeclared, hnext, hlifecycle, houtcome, htrigger]

theorem buildOutcomeTransition_ok {known : List TurnId} {turnId : TurnId} {outcome : String} {target : RouteTarget}
    {route : TurnTransition} (h : buildOutcomeTransition known turnId outcome target = .ok route) :
    route = declaredTarget turnId target := by
  unfold buildOutcomeTransition at h
  by_cases hdeclared : hasDeclaredStaticRouteTarget target = true
  · rw [if_pos hdeclared] at h
    exact (normalizeStaticRouteTarget_ok h).eq turnId
  · rw [if_neg hdeclared] at h
    cases h
    rw [declaredTarget, if_neg hdeclared]

/-- A compiled route: one target, and a trigger. -/
structure Route (known : List TurnId) (route : TurnTransition) : Prop where
  one : route.nextTurnId = none ↔ route.lifecycleStatus ≠ none
  known : ∀ next, route.nextTurnId = some next → next ∈ known
  triggered : route.trigger ≠ none

theorem Normalized.route {known : List TurnId} {target : RouteTarget} {route : TurnTransition} (h : Normalized known target route)
    (trigger : String) : Route known { route with trigger := some trigger } :=
  ⟨h.one, h.known, by simp⟩

theorem compileBranchRoutes_ok {known : List TurnId} {context : String} {branches : Table String BranchRouteSpec} {routes : Routes}
    (h : compileBranchRoutes known context branches = .ok routes) : ∀ route ∈ routes, Route known route.2 := by
  unfold compileBranchRoutes at h
  split at h
  · cases h
  intro route hroute
  obtain ⟨entry, -, s, s', hcompile⟩ := mem_of_forall₂ (compileDeclarations_ok h) hroute
  obtain ⟨_, _, -, hcompile⟩ := ok_of_bind hcompile
  obtain ⟨target, _, hlift, hcompile⟩ := ok_of_bind hcompile
  obtain ⟨_, _, -, hcompile⟩ := ok_of_bind hcompile
  obtain ⟨rfl, -⟩ := ok_of_pure hcompile
  exact (normalizeStaticRouteTarget_ok (ok_of_lift hlift).1).route _

/-! ## Outcomes -/

/-- What an outcome is compiled to. -/
structure CompiledFrom (known : List TurnId) (turnId : TurnId) (entry : String × OutcomeSpec) (compiled : CompiledOutcome) : Prop where
  outcome : compiled.outcome = entry.1
  static : ∀ target, entry.2 = .static target →
    compiled.routing = none ∧ compiled.transitions = [{ declaredTarget turnId target with outcome := some entry.1 }]
  branches : ∀ branches, entry.2 = .branches branches → ∃ routes, compiled.routing = some routes ∧
    (∀ route ∈ routes, Route known route.2) ∧ compiled.transitions = routes.map fun route => { route.2 with outcome := some entry.1 }

theorem compileOutcome_ok {known : List TurnId} {turnId : TurnId} {entry : String × OutcomeSpec} {compiled : CompiledOutcome} {s s' : Unit}
    (h : compileOutcome known turnId entry s = (.ok compiled, s')) : CompiledFrom known turnId entry compiled := by
  obtain ⟨outcome, spec⟩ := entry
  obtain ⟨_, _, -, h⟩ := ok_of_bind h
  cases spec with
  | static target =>
    obtain ⟨transition, _, hlift, h⟩ := ok_of_bind h
    obtain ⟨rfl, -⟩ := ok_of_pure h
    obtain rfl := buildOutcomeTransition_ok (ok_of_lift hlift).1
    refine ⟨rfl, fun target' h' => ?_, fun branches h' => ?_⟩
    · cases h'
      exact ⟨rfl, rfl⟩
    · cases h'
  | branches branches =>
    obtain ⟨routes, _, hlift, h⟩ := ok_of_bind h
    obtain ⟨rfl, -⟩ := ok_of_pure h
    refine ⟨rfl, fun target h' => ?_, fun branches' h' => ?_⟩
    · cases h'
    · exact ⟨routes, rfl, compileBranchRoutes_ok (ok_of_lift hlift).1, rfl⟩

/-- The transition at the end of a turn, when the turn declares one. -/
def endingOf (turnId : TurnId) (turnEnd : Option ProcessTurnEndSpec) : List TurnTransition :=
  turnEnd.toList.map fun spec => { declaredTarget turnId spec.target with outcome := some spec.outcome }

theorem compileTurnOutcomeDefinitions_ok {known : List TurnId} {turnId : TurnId} {outcomes : Table String OutcomeSpec}
    {turnEnd : Option ProcessTurnEndSpec} {compiled : List CompiledOutcome} {ending : List TurnTransition}
    (h : compileTurnOutcomeDefinitions known turnId outcomes turnEnd = .ok (compiled, ending)) :
    List.Forall₂ (CompiledFrom known turnId) outcomes.rows compiled ∧ ending = endingOf turnId turnEnd := by
  unfold compileTurnOutcomeDefinitions at h
  cases hcompile : (compileDeclarations (compileOutcome known turnId) outcomes.rows ()).1 with
  | error errors =>
    rw [hcompile] at h
    cases h
  | ok compiled' =>
    rw [hcompile] at h
    have hall := (compileDeclarations_ok hcompile).imp fun entry c hc => compileOutcome_ok hc.choose_spec.choose_spec
    cases turnEnd with
    | none =>
      cases h
      exact ⟨hall, rfl⟩
    | some spec =>
      simp only [bind, Except.bind, compileTurnEnd] at h
      by_cases hblank : trim spec.outcome = ""
      · rw [if_pos hblank] at h
        cases h
      · rw [if_neg hblank] at h
        cases hbuild : buildOutcomeTransition known turnId spec.outcome spec.target with
        | error errors =>
          rw [hbuild] at h
          cases h
        | ok transition =>
          rw [hbuild] at h
          cases h
          obtain rfl := buildOutcomeTransition_ok hbuild
          exact ⟨hall, rfl⟩

/-- The transitions that `findOutcomeTransition` picks from. -/
def outcomeMatches (outcome : String) (transitions : List TurnTransition) : List TurnTransition :=
  transitions.filter fun t => t.trigger.isNone && (t.outcome.isNone || t.outcome == some outcome)

theorem outcomeMatches_append (outcome : String) (l l' : List TurnTransition) :
    outcomeMatches outcome (l ++ l') = outcomeMatches outcome l ++ outcomeMatches outcome l' := List.filter_append ..

theorem outcomeMatches_triggered {outcome : String} {l : List TurnTransition} (h : ∀ t ∈ l, t.trigger ≠ none) :
    outcomeMatches outcome l = [] := by
  rw [outcomeMatches, List.filter_eq_nil_iff]
  intro t ht
  have := h t ht
  cases hc : t.trigger <;> simp_all

theorem outcomeMatches_declared (outcome other : String) (turnId : TurnId) (target : RouteTarget) :
    outcomeMatches outcome [{ declaredTarget turnId target with outcome := some other }] =
      if other = outcome then [{ declaredTarget turnId target with outcome := some other }] else [] := by
  have htrigger : (declaredTarget turnId target).trigger = none := by
    unfold declaredTarget
    split <;> rfl
  by_cases hother : other = outcome <;> simp [outcomeMatches, htrigger, hother]

/-- What is declared for an outcome: a route, or nothing for one that branches. -/
def declaredOutcome (turnId : TurnId) (outcome : String) : Option OutcomeSpec → List TurnTransition
  | some (.static target) => [{ declaredTarget turnId target with outcome := some outcome }]
  | _ => []

/-- The compiled outcomes offer one transition for each that has a static route. -/
theorem outcomeMatches_compiled {known : List TurnId} {turnId : TurnId} {rows : List (String × OutcomeSpec)}
    {compiled : List CompiledOutcome} (h : List.Forall₂ (CompiledFrom known turnId) rows compiled)
    (hnodup : (rows.map Prod.fst).Nodup) (outcome : String) :
    outcomeMatches outcome (compiled.flatMap (fun c => c.transitions)) = declaredOutcome turnId outcome (rows.lookup outcome) := by
  induction h with
  | nil => rfl
  | @cons entry c rows compiled hentry _ ih =>
    obtain ⟨name, spec⟩ := entry
    rw [List.map_cons, List.nodup_cons] at hnodup
    rw [List.flatMap_cons, outcomeMatches_append, ih hnodup.2]
    by_cases hname : outcome = name
    · subst hname
      have hrest : rows.lookup outcome = none := Table.lookup_eq_none_iff.2 hnodup.1
      have hlookup : List.lookup outcome ((outcome, spec) :: rows) = some spec := by simp
      have hnothing : declaredOutcome turnId outcome none = [] := rfl
      rw [hrest, hlookup, hnothing, List.append_nil]
      cases spec with
      | static target =>
        rw [(hentry.static target rfl).2, outcomeMatches_declared, if_pos rfl, declaredOutcome]
      | branches branches =>
        obtain ⟨routes, -, hroutes, htransitions⟩ := hentry.branches branches rfl
        rw [htransitions, outcomeMatches_triggered]
        · rfl
        · intro t ht
          obtain ⟨route, hroute, rfl⟩ := List.mem_map.1 ht
          exact (hroutes route hroute).triggered
    · have hlookup : List.lookup outcome ((name, spec) :: rows) = rows.lookup outcome := by
        simp [List.lookup_cons, beq_eq_false_iff_ne.2 hname]
      have hfirst : outcomeMatches outcome c.transitions = [] := by
        cases spec with
        | static target =>
          rw [(hentry.static target rfl).2, outcomeMatches_declared, if_neg (Ne.symm hname)]
        | branches branches =>
          obtain ⟨routes, -, hroutes, htransitions⟩ := hentry.branches branches rfl
          rw [htransitions, outcomeMatches_triggered]
          intro t ht
          obtain ⟨route, hroute, rfl⟩ := List.mem_map.1 ht
          exact (hroutes route hroute).triggered
      rw [hlookup, hfirst, List.nil_append]

/-! ## Requests -/

/-- A request that one of the turn's transitions has the target and the trigger of. -/
structure Served (known : List TurnId) (transitions : List TurnTransition) (request : TransitionRequest) : Prop where
  served : ∃ route ∈ transitions, route.nextTurnId = request.turnId ∧ route.trigger = request.trigger ∧ Route known route
  ends : request.turnId = none → request.lifecycleStatus ≠ none

section Serving

variable {known : List TurnId} {turnId : TurnId} {transitions : List TurnTransition} {checks : Checks}

theorem served_of_route {route : TurnTransition} (outcome : Option String) (h : Route known route)
    (hmem : { route with outcome := outcome } ∈ transitions) : Served known transitions (buildActionTransitionRequest route) := by
  have hroute : Route known { route with outcome := outcome } := ⟨h.one, h.known, h.triggered⟩
  unfold buildActionTransitionRequest
  split
  · rename_i next hnext
    exact ⟨⟨_, hmem, hnext, rfl, hroute⟩, fun hnone => by cases hnone⟩
  · rename_i hnext
    exact ⟨⟨_, hmem, hnext, rfl, hroute⟩, fun _ => h.one.1 hnext⟩

theorem Normalized.served {target : RouteTarget} {route : TurnTransition} (h : Normalized known target route) {trigger : String}
    (hmem : { route with trigger := some trigger } ∈ transitions) : Served known transitions (transitionTarget target trigger) := by
  have hroute := h.route trigger
  unfold transitionTarget
  split
  · rename_i next hnext
    exact ⟨⟨_, hmem, h.nextTurnId.trans hnext, rfl, hroute⟩, fun hnone => by cases hnone⟩
  · rename_i hnext
    have hstatus := h.lifecycleStatus
    have hone := h.one.1 (h.nextTurnId.trans hnext)
    split
    · exact ⟨⟨_, hmem, h.nextTurnId.trans hnext, rfl, hroute⟩, fun _ => by simp⟩
    · rename_i hcomplete
      rw [if_neg hcomplete] at hstatus
      exact ⟨⟨_, hmem, h.nextTurnId.trans hnext, rfl, hroute⟩, fun _ => by rwa [← hstatus]⟩

theorem Served.mono {transitions' : List TurnTransition} {request : TransitionRequest} (h : Served known transitions request)
    (hsub : ∀ t ∈ transitions, t ∈ transitions') : Served known transitions' request := by
  obtain ⟨⟨route, hroute, hrest⟩, hends⟩ := h
  exact ⟨⟨route, hsub route hroute, hrest⟩, hends⟩

theorem ok_of_failWith {σ : Type} {message : Option String} {s s' : σ} {u : Unit}
    (h : (failWith message : Compile σ Unit) s = (.ok u, s')) : message = none := by
  cases message with
  | none => rfl
  | some message => cases h

/-- The transitions of external actions serve them, and have triggers. -/
theorem compileExternalActionTransitions_ok {externalActions : Table String RouteTarget} {taken : ActionIdByTrigger}
    {external : List TurnTransition} (h : (compileExternalActionTransitions checks known turnId externalActions taken).1 = .ok external) :
    (∀ entry ∈ externalActions.rows, Served known external (transitionTarget entry.2 (getExternalActionTransitionTrigger entry.1))) ∧
      ∀ route ∈ external, Route known route := by
  have hall : List.Forall₂ (fun entry route => ∃ target, Normalized known entry.2 target ∧
      route = { target with trigger := some (getExternalActionTransitionTrigger entry.1) }) externalActions.rows external := by
    refine (compileDeclarations_ok h).imp fun entry route hcompile => ?_
    obtain ⟨s, s', hcompile⟩ := hcompile
    obtain ⟨_, _, -, hcompile⟩ := ok_of_bind hcompile
    obtain ⟨target, _, hlift, hcompile⟩ := ok_of_bind hcompile
    obtain ⟨_, _, -, hcompile⟩ := ok_of_bind hcompile
    obtain ⟨rfl, -⟩ := ok_of_pure hcompile
    exact ⟨target, normalizeStaticRouteTarget_ok (ok_of_lift hlift).1, rfl⟩
  constructor
  · intro entry hentry
    obtain ⟨route, hroute, target, htarget, rfl⟩ := mem_of_forall₂_left hall hentry
    exact htarget.served hroute
  · intro route hroute
    obtain ⟨entry, -, target, htarget, rfl⟩ := mem_of_forall₂ hall hroute
    exact htarget.route _

/-- The transitions of a collection serve what it requests. -/
theorem compileMappedTurnTransitions_ok {routing : MappedCollectRouting}
    (h : compileMappedTurnTransitions known turnId routing = .ok transitions) {branchId : String} {request : TransitionRequest}
    (hrequest : mappedRequest turnId routing branchId = .ok request) : Served known transitions request := by
  cases routing with
  | static toTurn lifecycleStatus =>
    cases hrequest
    rw [compileMappedTurnTransitions] at h
    cases hnormalize : normalizeStaticRouteTarget ("Mapped turn '" ++ turnId ++ "' collection") { toTurn, lifecycleStatus } known with
    | error errors =>
      rw [hnormalize] at h
      cases h
    | ok target =>
      rw [hnormalize] at h
      cases h
      have htarget := normalizeStaticRouteTarget_ok hnormalize
      exact ⟨⟨_, List.mem_singleton_self _, htarget.nextTurnId, rfl, htarget.route _⟩, fun hnone => by
        have hstatus := htarget.lifecycleStatus
        rw [if_neg (by simp)] at hstatus
        dsimp only at hnone hstatus ⊢
        rw [← hstatus]
        exact htarget.one.1 (htarget.nextTurnId.trans hnone)⟩
  | branches branches =>
    rw [mappedRequest] at hrequest
    cases hbranch : branches.get? branchId with
    | none =>
      rw [hbranch] at hrequest
      cases hrequest
    | some toTurn =>
      rw [hbranch] at hrequest
      cases hrequest
      obtain ⟨route, hroute, s, s', hcompile⟩ := mem_of_forall₂_left (compileDeclarations_ok h) (Table.mem_of_lookup hbranch)
      obtain ⟨_, _, -, hcompile⟩ := ok_of_bind hcompile
      obtain ⟨target, _, hlift, hcompile⟩ := ok_of_bind hcompile
      obtain ⟨rfl, -⟩ := ok_of_pure hcompile
      have htarget := normalizeStaticRouteTarget_ok (ok_of_lift hlift).1
      exact ⟨⟨_, hroute, htarget.nextTurnId, rfl, htarget.route _⟩, fun hnone => by cases hnone⟩

theorem resolveActionRouting_ok {actionId : String} {spec : ActionSpec} {routing : CompiledActionRouting}
    (h : resolveActionRouting known turnId actionId spec = .ok routing) : ∀ route ∈ routing.transitions, Route known route := by
  cases spec with
  | static target trigger =>
    rw [resolveActionRouting] at h
    cases hnormalize : normalizeStaticRouteTarget ("Action '" ++ actionId ++ "' on turn '" ++ turnId ++ "'") target known with
    | error errors =>
      rw [hnormalize] at h
      cases h
    | ok normalized =>
      rw [hnormalize] at h
      cases h
      intro route hroute
      obtain rfl := List.mem_singleton.1 hroute
      exact (normalizeStaticRouteTarget_ok hnormalize).route _
  | branches branches =>
    rw [resolveActionRouting] at h
    cases hcompile : compileBranchRoutes known ("Action '" ++ actionId ++ "' on turn '" ++ turnId ++ "'") branches with
    | error errors =>
      rw [hcompile] at h
      cases h
    | ok routes =>
      rw [hcompile] at h
      cases h
      intro route hroute
      obtain ⟨row, hrow, rfl⟩ := List.mem_map.1 hroute
      exact compileBranchRoutes_ok hcompile row hrow

/-- The transitions of a human turn: those of its actions and those of its external actions. -/
theorem deriveHumanTurnActions_ok {actions : Table String ActionSpec} {externalActions : Table String RouteTarget}
    {derived : List (String × CompiledActionRouting)}
    (h : (deriveHumanTurnActions checks known turnId actions externalActions []).1 = .ok (derived, transitions)) :
    (∀ action ∈ derived, ∀ route ∈ action.2.transitions, route ∈ transitions ∧ Route known route) ∧
      ∀ entry ∈ externalActions.rows,
        Served known transitions (transitionTarget entry.2 (getExternalActionTransitionTrigger entry.1)) := by
  cases hrun : deriveHumanTurnActions checks known turnId actions externalActions [] with
  | mk result s' =>
    rw [hrun] at h
    dsimp only at h
    subst h
    obtain ⟨derived', s₁, hderive, hrun⟩ := ok_of_bind hrun
    obtain ⟨external, s₂, hexternal, hrun⟩ := ok_of_bind hrun
    obtain ⟨heq, -⟩ := ok_of_pure hrun
    rw [Prod.mk.injEq] at heq
    obtain ⟨rfl, rfl⟩ := heq
    obtain ⟨hserved, -⟩ := compileExternalActionTransitions_ok (congrArg Prod.fst hexternal)
    refine ⟨fun action haction route hroute => ⟨?_, ?_⟩, fun entry hentry => ?_⟩
    · exact List.mem_append_left _ (List.mem_flatMap.2 ⟨action, haction, hroute⟩)
    · obtain ⟨entry, -, s, s', hcompile⟩ := mem_of_forall₂ (compileDeclarations_ok (congrArg Prod.fst hderive)) haction
      obtain ⟨_, _, -, hcompile⟩ := ok_of_bind hcompile
      obtain ⟨routing, _, hlift, hcompile⟩ := ok_of_bind hcompile
      obtain ⟨_, _, -, hcompile⟩ := ok_of_bind hcompile
      obtain ⟨_, _, -, hcompile⟩ := ok_of_bind hcompile
      obtain ⟨rfl, -⟩ := ok_of_pure hcompile
      exact resolveActionRouting_ok (ok_of_lift hlift).1 route hroute
    · exact (hserved entry hentry).mono fun t ht => List.mem_append_right _ ht

/-- The transitions and the routings of a turn whose outcomes are routed. -/
theorem outcomes_served {outcomes : Table String OutcomeSpec} {turnEnd : Option ProcessTurnEndSpec} {compiled : List CompiledOutcome}
    {ending external : List TurnTransition}
    (h : compileTurnOutcomeDefinitions known turnId outcomes turnEnd = .ok (compiled, ending))
    (hexternal : ∀ route ∈ external, Route known route) :
    (∀ outcome, outcomeMatches outcome (compiled.flatMap (fun c => c.transitions) ++ ending ++ external) =
        declaredOutcome turnId outcome (outcomes.get? outcome) ++ outcomeMatches outcome (endingOf turnId turnEnd)) ∧
      ∀ routing ∈ outcomeRoutings compiled, ∀ row ∈ routing.2,
        Served known (compiled.flatMap (fun c => c.transitions) ++ ending ++ external) (buildActionTransitionRequest row.2) := by
  obtain ⟨hall, rfl⟩ := compileTurnOutcomeDefinitions_ok h
  constructor
  · intro outcome
    rw [outcomeMatches_append, outcomeMatches_append, outcomeMatches_compiled hall outcomes.nodup outcome,
      outcomeMatches_triggered fun t ht => (hexternal t ht).triggered, List.append_nil]
    rfl
  · intro routing hrouting row hrow
    obtain ⟨c, hc, hsome⟩ := List.mem_filterMap.1 hrouting
    obtain ⟨routes, hroutes, rfl⟩ := Option.map_eq_some_iff.1 hsome
    obtain ⟨entry, -, hentry⟩ := mem_of_forall₂ hall hc
    cases hspec : entry.2 with
    | static target =>
      rw [(hentry.static target hspec).1] at hroutes
      cases hroutes
    | branches branches =>
      obtain ⟨routes', hrouting', hroute, htransitions⟩ := hentry.branches branches hspec
      obtain rfl : routes' = routes := Option.some.inj (hrouting'.symm.trans hroutes)
      refine served_of_route (some entry.1) (hroute row hrow) ?_
      refine List.mem_append_left _ (List.mem_append_left _ (List.mem_flatMap.2 ⟨c, hc, ?_⟩))
      rw [htransitions]
      exact List.mem_map_of_mem hrow

/-- What a compiled turn promises: its requests are served, and each outcome finds what was declared for it. -/
structure Compiled (known : List TurnId) (turnId : TurnId) (turn : CompiledTurn) : Prop where
  served : ∀ request, Requested turnId turn request → Served known turn.transitions request
  outcomes : ∀ outcomes turnEnd, turn.definition.outcomes? = some (outcomes, turnEnd) → ∀ outcome,
    outcomeMatches outcome turn.transitions =
      declaredOutcome turnId outcome (outcomes.get? outcome) ++ outcomeMatches outcome (endingOf turnId turnEnd)

theorem mem_of_ownRoute {routes : Routes} {branchId : String} {route : TurnTransition} (h : ownRoute routes branchId = some route) :
    (branchId, route) ∈ routes := Table.mem_of_lookup h

/-- A turn with the transitions of its outcomes, of its end and of its external actions. -/
theorem compiled_routed {definition : TurnDefinition} {outcomes : Table String OutcomeSpec} {turnEnd : Option ProcessTurnEndSpec}
    {externalActions : Table String RouteTarget} {compiled : List CompiledOutcome} {ending external : List TurnTransition}
    (hdefinition : definition.outcomes? = some (outcomes, turnEnd)) (hactions : definition.externalActions = externalActions.rows)
    (hexternal : (compileExternalActionTransitions checks known turnId externalActions []).1 = .ok external)
    (h : compileTurnOutcomeDefinitions known turnId outcomes turnEnd = .ok (compiled, ending)) :
    Compiled known turnId {
      definition
      transitions := compiled.flatMap (fun outcome => outcome.transitions) ++ ending ++ external
      routings := outcomeRoutings compiled } := by
  obtain ⟨hserved, hroutes⟩ := compileExternalActionTransitions_ok hexternal
  obtain ⟨hmatches, hroutings⟩ := outcomes_served h hroutes
  refine ⟨fun request hrequest => ?_, fun outcomes' turnEnd' hsome outcome => ?_⟩
  · cases hrequest with
    | action hmem => cases hmem
    | actionBranch hmem => cases hmem
    | outcomeBranch hmem hown => exact hroutings _ hmem _ (mem_of_ownRoute hown)
    | externalAction hmem =>
      dsimp only at hmem
      rw [hactions] at hmem
      exact (hserved _ hmem).mono fun t ht => List.mem_append_right _ ht
    | externalSource hkind _ =>
      dsimp only at hkind
      subst hkind
      cases hdefinition
    | collection hkind _ =>
      dsimp only at hkind
      subst hkind
      cases hdefinition
  · dsimp only at hsome ⊢
    obtain ⟨rfl, rfl⟩ := Prod.mk.inj (Option.some.inj (hdefinition.symm.trans hsome))
    exact hmatches outcome

theorem compileTurn_ok {definition : TurnDefinition} {turn : CompiledTurn} (h : compileTurn checks known turnId definition = .ok turn) :
    turn.definition = definition ∧ Compiled known turnId turn := by
  cases definition with
  | llm outcomes turnEnd forEach externalActions waitFor =>
    cases forEach with
    | some routing =>
      rw [compileTurn] at h
      obtain ⟨external, hexternal, h⟩ := Results.ok_of_bind h
      obtain ⟨collection, hcollection, h⟩ := Results.ok_of_bind h
      cases h
      obtain ⟨hserved, -⟩ := compileExternalActionTransitions_ok hexternal
      refine ⟨rfl, fun request hrequest => ?_, fun _ _ hsome => by cases hsome⟩
      cases hrequest with
      | action hmem => cases hmem
      | actionBranch hmem => cases hmem
      | outcomeBranch hmem _ => cases hmem
      | externalAction hmem => exact (hserved _ hmem).mono fun t ht => List.mem_append_right _ ht
      | externalSource hkind _ => cases hkind
      | collection hkind hrequest =>
        cases hkind
        exact (compileMappedTurnTransitions_ok hcollection hrequest).mono fun t ht => List.mem_append_left _ ht
    | none =>
      rw [compileTurn] at h
      obtain ⟨external, hexternal, h⟩ := Results.ok_of_bind h
      obtain ⟨⟨compiled, ending⟩, hcompiled, h⟩ := Results.ok_of_bind h
      cases h
      exact ⟨rfl, compiled_routed rfl rfl hexternal hcompiled⟩
  | automatic outcomes turnEnd externalActions waitFor =>
    rw [compileTurn] at h
    obtain ⟨external, hexternal, h⟩ := Results.ok_of_bind h
    obtain ⟨⟨compiled, ending⟩, hcompiled, h⟩ := Results.ok_of_bind h
    cases h
    exact ⟨rfl, compiled_routed rfl rfl hexternal hcompiled⟩
  | human actions externalActions =>
    rw [compileTurn] at h
    obtain ⟨⟨derived, transitions⟩, hderive, h⟩ := Results.ok_of_bind h
    cases h
    obtain ⟨hactions, hserved⟩ := deriveHumanTurnActions_ok hderive
    refine ⟨rfl, fun request hrequest => ?_, fun _ _ hsome => by cases hsome⟩
    cases hrequest with
    | action hmem =>
      obtain ⟨hroute, hgood⟩ := hactions _ hmem _ (List.mem_singleton_self _)
      exact served_of_route _ hgood hroute
    | actionBranch hmem hown =>
      obtain ⟨hroute, hgood⟩ := hactions _ hmem _ (List.mem_map_of_mem (mem_of_ownRoute hown))
      exact served_of_route _ hgood hroute
    | outcomeBranch hmem _ => cases hmem
    | externalAction hmem => exact hserved _ hmem
    | externalSource hkind _ => cases hkind
    | collection hkind _ => cases hkind
  | external sources =>
    rw [compileTurn] at h
    obtain ⟨transitions, hcompile, h⟩ := Results.ok_of_bind h
    cases h
    refine ⟨rfl, fun request hrequest => ?_, fun _ _ hsome => by cases hsome⟩
    cases hrequest with
    | action hmem => cases hmem
    | actionBranch hmem => cases hmem
    | outcomeBranch hmem _ => cases hmem
    | externalAction hmem => cases hmem
    | externalSource hkind hmem =>
      cases hkind
      obtain ⟨route, hroute, s, s', hsource⟩ := mem_of_forall₂_left (compileDeclarations_ok hcompile) hmem
      obtain ⟨target, _, hlift, hsource⟩ := ok_of_bind hsource
      obtain ⟨rfl, -⟩ := ok_of_pure hsource
      exact (normalizeStaticRouteTarget_ok (ok_of_lift hlift).1).served hroute
    | collection hkind _ => cases hkind

end Serving

/-! ## A defined process -/

section Defined

variable {checks : Checks} {input : Declaration} {process : ExtensionProcessDefinition}

/-- A definition is accepted when nothing is wrong with it. -/
theorem defineProcess_ok (h : defineProcess checks input = .ok process) :
    compileErrors checks input none = [] ∧ process.turns = compileTurns checks input ∧ process.declaration = input := by
  unfold defineProcess at h
  split at h
  · rename_i hnone
    cases h
    refine ⟨hnone, rfl, ?_⟩
    obtain ⟨id, entry, alternateEntries, happyPath, turns⟩ := input
    have hdefinition : ∀ turnId definition,
        (inspectTurn checks ⟨id, entry, alternateEntries, happyPath, turns⟩ turnId definition).2.definition = definition := by
      intro turnId definition
      unfold inspectTurn
      split
      · rfl
      · rfl
      · split
        · rfl
        · rename_i hcompiled
          exact (compileTurn_ok hcompiled).1
    obtain ⟨rows, hnodup⟩ := turns
    simp only [ExtensionProcessDefinition.declaration, compileTurns, Table.mapRows, List.map_map, Function.comp_def, hdefinition,
      List.map_id']
  · cases h

/-- Recompiling an accepted definition with its own transitions finds nothing new. -/
theorem validate_defined (h : defineProcess checks input = .ok process) : validateProcessDefinition checks process = [] := by
  obtain ⟨herrors, hturns, hdeclaration⟩ := defineProcess_ok h
  unfold validateProcessDefinition
  rw [hdeclaration, hturns]
  unfold compileErrors at herrors ⊢
  simp only [List.append_eq_nil_iff] at herrors ⊢
  obtain ⟨⟨⟨⟨⟨hturn, hentry⟩, hpath⟩, hturns'⟩, hforms⟩, hgraphs⟩ := herrors
  refine ⟨⟨⟨⟨⟨hturn, hentry⟩, hpath⟩, hturns'⟩, hforms⟩, ?_⟩
  cases hinspect : inspectable checks input with
  | false => rfl
  | true =>
    rw [hinspect] at hgraphs
    simp only [if_true, Option.toList_none, List.flatMap_cons, List.flatMap_nil, List.append_nil] at hgraphs
    simp only [if_true, Option.toList_some, List.flatMap_cons, List.flatMap_nil, List.append_nil, hgraphs]

/-- Each turn of an accepted definition was compiled from the declaration of its turn. -/
theorem turn_compiled (h : defineProcess checks input = .ok process) {turnId : TurnId} {turn : CompiledTurn}
    (hturn : process.turns.get? turnId = some turn) :
    Compiled (input.turns.rows.map Prod.fst) turnId turn ∧
      ∀ outcomes turnEnd, turn.definition.outcomes? = some (outcomes, turnEnd) → turnEnd ≠ none → outcomes.rows = [] := by
  obtain ⟨herrors, hturns, -⟩ := defineProcess_ok h
  have hnone : turnErrors checks input = [] := by
    unfold compileErrors at herrors
    simp only [List.append_eq_nil_iff] at herrors
    exact herrors.1.1.2
  rw [hturns, compileTurns, Table.get?_mapRows] at hturn
  obtain ⟨definition, hdefinition, rfl⟩ := Option.map_eq_some_iff.1 hturn
  have hclean : (inspectTurn checks input turnId definition).1 = [] := by
    unfold turnErrors at hnone
    rw [List.flatMap_eq_nil_iff] at hnone
    exact hnone (turnId, definition) (Table.mem_of_lookup hdefinition)
  unfold inspectTurn at hclean ⊢
  cases hvalidate : validateTurnDefinition checks turnId definition with
  | error errors =>
    rw [hvalidate] at hclean
    cases hclean
  | ok errors =>
  cases errors with
  | cons error errors =>
    rw [hvalidate] at hclean
    cases hclean
  | nil =>
  cases hcompile : compileTurn checks (input.turns.rows.map Prod.fst) turnId definition with
  | error errors =>
    simp only [hvalidate, hcompile, List.append_eq_nil_iff] at hclean
    obtain ⟨-, hclean⟩ := hclean
    cases hclean
  | ok turn =>
    obtain ⟨hsame, hcompiled⟩ := compileTurn_ok hcompile
    refine ⟨hcompiled, fun outcomes turnEnd hsome hend => ?_⟩
    dsimp only at hsome
    rw [hsame] at hsome
    obtain ⟨errors, -, hcontract⟩ := Results.ok_of_bind hvalidate
    have hcontract' : outcomeContractErrors turnId outcomes turnEnd ++ errors = [] := by
      cases definition with
      | llm outcomes' turnEnd' forEach externalActions waitFor =>
        cases forEach with
        | some routing => cases hsome
        | none =>
          cases hsome
          exact Except.ok.inj hcontract
      | automatic outcomes' turnEnd' externalActions waitFor =>
        cases hsome
        exact Except.ok.inj hcontract
      | human actions externalActions => cases hsome
      | external sources => cases hsome
    have hnil := (List.append_eq_nil_iff.1 hcontract').1
    unfold outcomeContractErrors at hnil
    by_contra hrows
    rw [if_neg (by simp [hrows]), if_pos ⟨hrows, Option.isSome_iff_ne_none.2 hend⟩] at hnil
    cases hnil

theorem transitions_graph {turnId : TurnId} {turn : CompiledTurn} (hturn : process.turns.get? turnId = some turn) :
    (toProcessGraphView process).transitions turnId = turn.transitions := by
  unfold toProcessGraphView
  dsimp only
  rw [hturn]
  rfl

theorem declared_turn (h : defineProcess checks input = .ok process) {turnId : TurnId}
    (hturn : turnId ∈ input.turns.rows.map Prod.fst) : ((toProcessGraphView process).turns turnId).isNone = false := by
  obtain ⟨-, hturns, -⟩ := defineProcess_ok h
  unfold toProcessGraphView
  dsimp only
  rw [hturns, compileTurns, Table.get?_mapRows]
  cases hget : input.turns.get? turnId with
  | none => exact absurd hturn (Table.lookup_eq_none_iff.1 hget)
  | some definition => rfl

/-- Every route to a turn that is requested is accepted. -/
theorem request_accepted (h : defineProcess checks input = .ok process) {turnId : TurnId} {turn : CompiledTurn}
    (hturn : process.turns.get? turnId = some turn) {request : TransitionRequest} {next : TurnId} (status : LifecycleStatus)
    (hrequest : Requested turnId turn request) (hnext : request.turnId = some next) :
    Engine.tryTransition (toProcessGraphView process) (some turnId) request.trigger next status = .ok () := by
  obtain ⟨⟨route, hroute, htarget, htrigger, hgood⟩, -⟩ := (turn_compiled h hturn).1.served request hrequest
  rw [hnext] at htarget
  have hcurrent : ((toProcessGraphView process).turns turnId).isNone = false := by
    unfold toProcessGraphView
    dsimp only
    rw [hturn]
    rfl
  have hopen : route.lifecycleStatus = none := by
    by_contra hstatus
    rw [hgood.one.2 hstatus] at htarget
    cases htarget
  have hmem : route ∈ Engine.transitionCandidates (toProcessGraphView process) turnId request.trigger next := by
    unfold Engine.transitionCandidates
    rw [transitions_graph hturn, List.mem_filter]
    refine ⟨hroute, ?_⟩
    simp [hopen, htarget, Engine.matchesTrigger, htrigger]
  unfold Engine.tryTransition
  dsimp only
  rw [if_neg (by rw [hcurrent]; simp), if_neg (by rw [declared_turn h (hgood.known next htarget)]; simp), if_neg]
  rw [List.isEmpty_iff]
  exact List.ne_nil_of_mem hmem

theorem findOutcomeTransition_eq {turnId : TurnId} {turn : CompiledTurn} (hturn : process.turns.get? turnId = some turn)
    {outcome : String} {found : Option TurnTransition} (h : outcomeMatches outcome turn.transitions = found.toList) :
    Engine.findOutcomeTransition (toProcessGraphView process) turnId outcome = .ok found := by
  unfold Engine.findOutcomeTransition
  rw [transitions_graph hturn]
  rw [outcomeMatches] at h
  rw [h]
  cases found with
  | none => rfl
  | some transition => rfl

/-- What is declared for an outcome, as the server should find it. -/
def outcomeRoute (turnId : TurnId) (outcome : String) : OutcomeSpec → Option TurnTransition
  | .static target => some { declaredTarget turnId target with outcome := some outcome }
  | .branches _ => none

/-- The server finds the declared route of every outcome, and accepts every route to a turn that is requested. -/
structure Routed (process : ExtensionProcessDefinition) (turnId : TurnId) (turn : CompiledTurn) : Prop where
  outcomes : ∀ outcomes turnEnd outcome spec, turn.definition.outcomes? = some (outcomes, turnEnd) →
    outcomes.get? outcome = some spec →
    Engine.findOutcomeTransition (toProcessGraphView process) turnId outcome = .ok (outcomeRoute turnId outcome spec)
  ending : ∀ outcomes spec, turn.definition.outcomes? = some (outcomes, some spec) →
    Engine.findOutcomeTransition (toProcessGraphView process) turnId spec.outcome =
      .ok (some { declaredTarget turnId spec.target with outcome := some spec.outcome })
  accepted : ∀ request next status, Requested turnId turn request → request.turnId = some next →
    Engine.tryTransition (toProcessGraphView process) (some turnId) request.trigger next status = .ok ()

theorem routed (h : defineProcess checks input = .ok process) {turnId : TurnId} {turn : CompiledTurn}
    (hturn : process.turns.get? turnId = some turn) : Routed process turnId turn := by
  obtain ⟨hcompiled, hcontract⟩ := turn_compiled h hturn
  refine ⟨fun outcomes turnEnd outcome spec hsome hspec => ?_, fun outcomes spec hsome => ?_,
    fun request next status hrequest hnext => request_accepted h hturn status hrequest hnext⟩
  · apply findOutcomeTransition_eq hturn
    have hend : turnEnd = none := by
      by_contra hend
      have hrows := hcontract outcomes turnEnd hsome hend
      rw [Table.get?, hrows] at hspec
      cases hspec
    rw [hcompiled.outcomes outcomes turnEnd hsome outcome, hspec, hend]
    cases spec with
    | static target => rfl
    | branches branches => rfl
  · apply findOutcomeTransition_eq hturn
    have hrows := hcontract outcomes (some spec) hsome (by simp)
    have hnone : outcomes.get? spec.outcome = none := by
      rw [Table.get?, hrows]
      rfl
    rw [hcompiled.outcomes outcomes (some spec) hsome spec.outcome, hnone, endingOf, Option.toList_some, List.map_singleton,
      outcomeMatches_declared, if_pos rfl]
    rfl

/-! ## Choosers -/

/-- A chooser's result requests the route of its own branch, or throws; a null turn always ends the process. -/
structure ChoiceSafe (turnId : TurnId) (turn : CompiledTurn) (branchId : String) : Prop where
  action : ∀ actionId routes request, (actionId, .branches routes) ∈ turn.actions →
    actionRequest turnId actionId (.branches routes) branchId = .ok request →
    ∃ route, ownRoute routes branchId = some route ∧ request = buildActionTransitionRequest route ∧
      (request.turnId = none → request.lifecycleStatus ≠ none)
  outcome : ∀ outcome routes request, (outcome, routes) ∈ turn.routings →
    outcomeRequest turnId outcome routes branchId = .ok request →
    ∃ route, ownRoute routes branchId = some route ∧ request = buildActionTransitionRequest route ∧
      (request.turnId = none → request.lifecycleStatus ≠ none)
  collection : ∀ outcomes turnEnd branches externalActions waitFor request,
    turn.definition = .llm outcomes turnEnd (some (.branches branches)) externalActions waitFor →
    mappedRequest turnId (.branches branches) branchId = .ok request →
    ∃ next, branches.get? branchId = some next ∧ request.turnId = some next

/-- Compiled definitions and routing agree exactly when no outcome's chooser names what every object inherits. -/
theorem routing_agrees_iff (checks : Checks) (input : Declaration) (process : ExtensionProcessDefinition) (turnId : TurnId)
    (turn : CompiledTurn) (branchId : String) (h : defineProcess checks input = .ok process)
    (hturn : process.turns.get? turnId = some turn) :
    (validateProcessDefinition checks process = [] ∧ Routed process turnId turn ∧ ChoiceSafe turnId turn branchId) ↔
      ∀ routing ∈ turn.routings, (ownRoute routing.2 branchId).isSome = true ∨ branchId ∉ objectPrototypeKeys := by
  have hserved := (turn_compiled h hturn).1.served
  constructor
  · rintro ⟨-, -, hsafe⟩ ⟨outcome, routes⟩ hrouting
    by_contra hinherited
    push Not at hinherited
    obtain ⟨hown, hkey⟩ := hinherited
    have hnone : ownRoute routes branchId = none := by simpa using hown
    have hrequest : outcomeRequest turnId outcome routes branchId = .ok (buildActionTransitionRequest {}) := by
      rw [outcomeRequest, propertyRoute, hnone, if_pos hkey]
      rfl
    obtain ⟨route, hroute, -⟩ := hsafe.outcome outcome routes _ hrouting hrequest
    rw [hnone] at hroute
    cases hroute
  · intro hown
    refine ⟨validate_defined h, routed h hturn, ⟨fun actionId routes request hmem hrequest => ?_,
      fun outcome routes request hmem hrequest => ?_, fun _ _ branches _ _ request _ hrequest => ?_⟩⟩
    · rw [actionRequest] at hrequest
      cases hroute : ownRoute routes branchId with
      | none =>
        rw [hroute] at hrequest
        cases hrequest
      | some route =>
        rw [hroute] at hrequest
        cases hrequest
        exact ⟨route, rfl, rfl, (hserved _ (.actionBranch hmem hroute)).ends⟩
    · rw [outcomeRequest, propertyRoute] at hrequest
      cases hroute : ownRoute routes branchId with
      | none =>
        have hkey : branchId ∉ objectPrototypeKeys := by
          rcases hown (outcome, routes) hmem with hsome | hkey
          · dsimp only at hsome
            rw [hroute] at hsome
            cases hsome
          · exact hkey
        rw [hroute, if_neg hkey] at hrequest
        cases hrequest
      | some route =>
        rw [hroute] at hrequest
        cases hrequest
        exact ⟨route, rfl, rfl, (hserved _ (.outcomeBranch hmem hroute)).ends⟩
    · rw [mappedRequest] at hrequest
      cases hnext : branches.get? branchId with
      | none =>
        rw [hnext] at hrequest
        cases hrequest
      | some next =>
        rw [hnext] at hrequest
        cases hrequest
        exact ⟨next, rfl, rfl⟩

/-- A review whose one outcome branches back to it. -/
def sampleDeclaration : Declaration where
  id := "sample"
  entry := "review"
  alternateEntries := []
  happyPath := none
  turns := Table.empty.put "review" (.llm
    (Table.empty.put "reviewed" (.branches (Table.empty.put "again" { toTurn := some "review" }))) none none Table.empty false)

def sampleChecks : Checks where
  turn _ := .ok []
  action _ _ _ := none
  externalAction _ _ := none
  forms := []
  graph _ := []
  connectivity _ := []

/-- The branch of the review, and what the review is compiled to. -/
def sampleRoute : TurnTransition := { nextTurnId := some "review", trigger := some "again" }

def sampleTurn : CompiledTurn where
  definition := .llm (Table.empty.put "reviewed" (.branches (Table.empty.put "again" { toTurn := some "review" }))) none none
    Table.empty false
  transitions := [{ sampleRoute with outcome := some "reviewed" }]
  routings := [("reviewed", [("again", sampleRoute)])]

def sampleProcess : ExtensionProcessDefinition where
  id := "sample"
  entryTurnId := "review"
  alternateEntryTurnIds := []
  happyPath := none
  turns := Table.empty.put "review" sampleTurn

/-- At its own branch the sample routes as declared. -/
theorem routing_agrees_iff_sample :
    (validateProcessDefinition sampleChecks sampleProcess = [] ∧ Routed sampleProcess "review" sampleTurn ∧
      ChoiceSafe "review" sampleTurn "again") ↔
      ∀ routing ∈ sampleTurn.routings, (ownRoute routing.2 "again").isSome = true ∨ "again" ∉ objectPrototypeKeys :=
  routing_agrees_iff sampleChecks sampleDeclaration sampleProcess "review" sampleTurn "again" rfl rfl

/-- A chooser that returns `toString` makes the sample's review request a null turn without a lifecycle status. -/
theorem inherited_choice_requested :
    ¬ ∀ (checks : Checks) (input : Declaration) (process : ExtensionProcessDefinition) (turnId : TurnId)
      (turn : CompiledTurn) (branchId : String), defineProcess checks input = .ok process →
      process.turns.get? turnId = some turn →
      validateProcessDefinition checks process = [] ∧ Routed process turnId turn ∧ ChoiceSafe turnId turn branchId := by
  intro hall
  obtain ⟨-, -, hsafe⟩ := hall sampleChecks sampleDeclaration sampleProcess "review" sampleTurn "toString" rfl rfl
  have hrequest : outcomeRequest "review" "reviewed" [("again", sampleRoute)] "toString" =
      .ok (buildActionTransitionRequest {}) := rfl
  obtain ⟨route, hroute, -⟩ := hsafe.outcome "reviewed" _ _ (List.mem_singleton_self _) hrequest
  cases hroute

end Defined

end Leitwerk.ProcessSdk
