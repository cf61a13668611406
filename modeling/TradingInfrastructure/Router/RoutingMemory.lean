import TradingInfrastructure.Foundations.Runs
import TradingInfrastructure.Router.ChildOrderScheduler

/-!
# What routing reads of memory

The results of the parent manager, of the scheduler and of the router are declared without
initializers, and so is a new plan. Of what memory holds there, four things are read before they are
set: the action of a result, the filled quantity of a new plan, the number of children of a routing
decision, and a regime that no rule sets. Two runs whose memories agree on those where they are read
give the same actions, plans and orders (`outputs_congr_routing`), whatever else their memories
hold.
-/

namespace TradingInfrastructure

/-- What memory holds in a call. -/
structure RoutingMemory where
  plan : PlanMemory
  scheduler : SchedulerMemory
  router : RouterMemory

/-- A call of the parent manager, the scheduler or the router. The scheduler is given a plan, or the
one that was returned last. -/
inductive RoutingCall
  | updateTarget (positionDelta : ℚ) (urgency : ShadowUrgency) (now deadline : ℤ)
  | onChildFill (fillQty : ℚ)
  | poll (now : ℤ)
  | schedule (scheduler : ChildOrderScheduler) (given : Option ParentExecutionPlan)
    (horizonTicks inventoryAgeMs : ℤ) (venues : VenueQuotes)
  | route (side : Side) (quantity : ℚ) (venues : VenueQuotes) (cfg : SmartOrderRouterConfig)

/-- The plan, apart from its id. -/
def ParentExecutionPlan.withoutId (plan : ParentExecutionPlan) : ParentExecutionPlan :=
  { plan with planId := 0 }

/-- What a call returns: an action, a plan apart from its id, and child orders. -/
structure RoutingAnswer where
  action : Option ParentPlanAction := none
  plan : Option ParentExecutionPlan := none
  orders : List ChildOrder := []
  deriving DecidableEq

/-- The manager, and the plan that it returned last. -/
structure RoutingState where
  manager : ParentOrderManager
  returned : ParentExecutionPlan := {}

namespace RoutingState

/-- What is returned with the result of the manager. -/
def answer (result : ParentOrderManager × ParentPlanUpdateResult) : RoutingState × RoutingAnswer :=
  (⟨result.1, result.2.plan⟩,
    { action := some result.2.action, plan := some result.2.plan.withoutId })

/-- One call. -/
def call (s : RoutingState) (memory : RoutingMemory) : RoutingCall → RoutingState × RoutingAnswer
  | .updateTarget positionDelta urgency now deadline =>
    answer (s.manager.updateTarget memory.plan positionDelta urgency now deadline)
  | .onChildFill fillQty => ({ s with manager := s.manager.onChildFill fillQty }, {})
  | .poll now => answer (s.manager.poll memory.plan now)
  | .schedule scheduler given horizonTicks inventoryAgeMs venues =>
    (s, { orders := (scheduler.schedule memory.scheduler (given.getD s.returned) horizonTicks
      inventoryAgeMs venues).children })
  | .route side quantity venues cfg =>
    (s, { orders := (SmartOrderRouter.route memory.router side quantity venues cfg).orders })

/-- Two states that differ only in the ids of the plans. -/
def Alike (s t : RoutingState) : Prop :=
  s.manager.cfg = t.manager.cfg ∧ s.manager.plan.withoutId = t.manager.plan.withoutId ∧
    s.returned.withoutId = t.returned.withoutId

/-- The plan of the manager expires in this call. -/
def Expires (s : RoutingState) (now : ℤ) : Prop :=
  s.manager.plan.active = true ∧ s.manager.plan.deadline ≤ now

/-- The plan of the manager stays, and is updated to the target. -/
def Stays (s : RoutingState) (positionDelta : ℚ) (now : ℤ) : Prop :=
  let requestedQty := |positionDelta|
  s.manager.plan.active = true ∧ now < s.manager.plan.deadline ∧
    s.manager.plan.side = (if positionDelta > 0 then .bid else .ask) ∧
    |s.manager.plan.totalQty - requestedQty| < s.manager.cfg.replaceQtyThreshold

/-- **The memories agree on what the call reads**: the action of a poll or of an empty target where
no plan expires or is canceled, the filled quantity of a plan that is started, the number of
children, and the regime where no rule sets one. -/
def SameReads (s : RoutingState) (m n : RoutingMemory) : RoutingCall → Prop
  | .updateTarget positionDelta _ now _ =>
    if |positionDelta| ≤ ParentOrderManager.qtyEpsilon then
      s.manager.plan.active = true ∨ m.plan.action = n.plan.action
    else s.Stays positionDelta now ∨ m.plan.filledQty = n.plan.filledQty
  | .onChildFill _ => True
  | .poll now => s.Expires now ∨ m.plan.action = n.plan.action
  | .schedule scheduler _ _ _ venues =>
    SmartOrderRouter.SetsRegime venues scheduler.sor ∨ m.scheduler.regime = n.scheduler.regime
  | .route _ _ venues cfg =>
    m.router.childCount = n.router.childCount ∧
      (SmartOrderRouter.SetsRegime venues cfg ∨ m.router.regime = n.router.regime)

end RoutingState

namespace ParentOrderManager

variable {m m' : ParentOrderManager} {memory memory' : PlanMemory} {positionDelta : ℚ}
  {urgency : ShadowUrgency} {now deadline : ℤ}
  {p q : ParentOrderManager × ParentPlanUpdateResult}

/-- Two managers that differ only in the ids of their plans. -/
def SameButIds (m m' : ParentOrderManager) : Prop :=
  m.cfg = m'.cfg ∧ m.plan.withoutId = m'.plan.withoutId

/-- The managers and the plans returned differ only in the ids. -/
def SamePlans (p q : ParentOrderManager × ParentPlanUpdateResult) : Prop :=
  SameButIds p.1 q.1 ∧ p.2.plan.withoutId = q.2.plan.withoutId

/-- What a call begins its result with. -/
def emptyResult (memory : PlanMemory) : ParentPlanUpdateResult :=
  ⟨memory.action, {}, memory.shouldCancelWorkingChildren, memory.deadlinePassed⟩

/-- Plans that differ only in the id have the same other fields. -/
theorem eq_of_withoutId {plan plan' : ParentExecutionPlan}
    (h : plan.withoutId = plan'.withoutId) :
    ∃ planId, plan' = { plan with planId } := by
  refine ⟨plan'.planId, ?_⟩
  have heq : plan' = { plan'.withoutId with planId := plan'.planId } := rfl
  rw [heq, ← h]
  rfl

/-- **The expiry**: the same plans, and the same action where a plan expires. -/
theorem maybeExpire_congr (h : SameButIds m m') :
    SamePlans (m.maybeExpire now (emptyResult memory)) (m'.maybeExpire now (emptyResult memory')) ∧
      (m.plan.active = true ∧ m.plan.deadline ≤ now ∨ memory.action = memory'.action →
        (m.maybeExpire now (emptyResult memory)).2.action =
          (m'.maybeExpire now (emptyResult memory')).2.action) := by
  obtain ⟨cfg, plan, nextPlanId⟩ := m
  obtain ⟨cfg', plan', nextPlanId'⟩ := m'
  obtain ⟨rfl, hplan⟩ := h
  obtain ⟨planId, rfl⟩ := eq_of_withoutId hplan
  simp only [maybeExpire, ParentExecutionPlan.active]
  by_cases hstays : (!plan.state == .working || decide (now < plan.deadline)) = true
  · simp only [hstays, if_true]
    refine ⟨⟨⟨rfl, rfl⟩, rfl⟩, ?_⟩
    rintro (⟨hactive, hdue⟩ | haction)
    · simp [hactive, not_lt.mpr hdue] at hstays
    · exact haction
  · simp only [hstays]
    exact ⟨⟨⟨rfl, rfl⟩, rfl⟩, fun _ => rfl⟩

/-- `update_target` after the expiry. -/
def retarget (p : ParentOrderManager × ParentPlanUpdateResult) (memory : PlanMemory)
    (positionDelta : ℚ) (urgency : ShadowUrgency) (now deadline : ℤ) :
    ParentOrderManager × ParentPlanUpdateResult :=
  let requestedQty := |positionDelta|
  if requestedQty ≤ qtyEpsilon then
    if p.1.plan.active then
      let plan := { p.1.plan with state := .canceled, revision := p.1.plan.revision + 1 }
      ({ p.1 with plan },
        { p.2 with action := .canceled, shouldCancelWorkingChildren := true, plan })
    else if p.2.action = .none then (p.1, { p.2 with plan := p.1.plan })
    else p
  else
    let requestedSide : Side := if positionDelta > 0 then .bid else .ask
    let effectiveDeadline := now + if deadline = 0 then p.1.cfg.defaultDeadline else deadline
    let plan := ParentExecutionPlan.build memory requestedSide requestedQty urgency now
      effectiveDeadline p.1.nextPlanId
    if !p.1.plan.active then p.1.startPlan { p.2 with action := .created } plan
    else if p.1.plan.side ≠ requestedSide ∨
        |p.1.plan.totalQty - requestedQty| ≥ p.1.cfg.replaceQtyThreshold then
      p.1.startPlan { p.2 with action := .replaced, shouldCancelWorkingChildren := true } plan
    else p.1.updatePlan p.2 requestedQty urgency effectiveDeadline

theorem updateTarget_eq : m.updateTarget memory positionDelta urgency now deadline =
    retarget (m.maybeExpire now (emptyResult memory)) memory positionDelta urgency now deadline :=
  rfl

/-- A plan that is started is the same, up to its id, where the filled quantity found is. -/
theorem withoutId_build (h : memory.filledQty = memory'.filledQty) (side : Side) (qty : ℚ)
    (planId planId' : UInt64) :
    (ParentExecutionPlan.build memory side qty urgency now deadline planId).withoutId =
      (ParentExecutionPlan.build memory' side qty urgency now deadline planId').withoutId := by
  simp only [ParentExecutionPlan.build, ParentExecutionPlan.withoutId, h]

/-- **An empty target** reads the action where no plan is active. -/
theorem retarget_congr_of_empty (h : SamePlans p q) (hempty : |positionDelta| ≤ qtyEpsilon)
    (hread : p.1.plan.active = true ∨ p.2.action = q.2.action) :
    SamePlans (retarget p memory positionDelta urgency now deadline)
        (retarget q memory' positionDelta urgency now deadline) ∧
      (retarget p memory positionDelta urgency now deadline).2.action =
        (retarget q memory' positionDelta urgency now deadline).2.action := by
  obtain ⟨⟨cfg, plan, nextPlanId⟩, result⟩ := p
  obtain ⟨⟨cfg', plan', nextPlanId'⟩, result'⟩ := q
  obtain ⟨⟨rfl, hplan⟩, hresult⟩ := h
  obtain ⟨planId, rfl⟩ := eq_of_withoutId hplan
  simp only [ParentExecutionPlan.active] at hread
  simp only [retarget, hempty, if_true, ParentExecutionPlan.active]
  by_cases hactive : (plan.state == .working) = true
  · simp only [hactive, if_true]
    exact ⟨⟨⟨rfl, rfl⟩, rfl⟩, trivial⟩
  · have haction := hread.resolve_left hactive
    simp only [hactive, Bool.false_eq_true, if_false, haction]
    by_cases hnone : result'.action = .none
    · simp only [hnone, if_true]
      exact ⟨⟨⟨rfl, rfl⟩, rfl⟩, trivial⟩
    · simp only [hnone, if_false]
      exact ⟨⟨⟨rfl, rfl⟩, hresult⟩, haction⟩

/-- **A target that is not empty** reads the filled quantity where it starts a plan. -/
theorem retarget_congr_of_target (h : SamePlans p q) (htarget : ¬|positionDelta| ≤ qtyEpsilon)
    (hread : (p.1.plan.active = true ∧
        p.1.plan.side = (if positionDelta > 0 then .bid else .ask) ∧
        |p.1.plan.totalQty - (|positionDelta|)| < p.1.cfg.replaceQtyThreshold) ∨
      memory.filledQty = memory'.filledQty) :
    SamePlans (retarget p memory positionDelta urgency now deadline)
        (retarget q memory' positionDelta urgency now deadline) ∧
      (retarget p memory positionDelta urgency now deadline).2.action =
        (retarget q memory' positionDelta urgency now deadline).2.action := by
  obtain ⟨⟨cfg, plan, nextPlanId⟩, result⟩ := p
  obtain ⟨⟨cfg', plan', nextPlanId'⟩, result'⟩ := q
  obtain ⟨⟨rfl, hplan⟩, hresult⟩ := h
  obtain ⟨planId, rfl⟩ := eq_of_withoutId hplan
  simp only [ParentExecutionPlan.active] at hread
  simp only [retarget, htarget, if_false, ParentExecutionPlan.active]
  generalize (if positionDelta > 0 then Side.bid else Side.ask) = side at *
  by_cases hidle : (!(plan.state == .working)) = true
  · simp only [hidle, if_true]
    have hfilled : memory.filledQty = memory'.filledQty := hread.resolve_left fun h => by
      simp [h.1] at hidle
    exact ⟨⟨⟨rfl, withoutId_build hfilled _ _ _ _⟩, withoutId_build hfilled _ _ _ _⟩, rfl⟩
  · simp only [hidle]
    by_cases hreplaced : plan.side ≠ side ∨
        |plan.totalQty - (|positionDelta|)| ≥ cfg.replaceQtyThreshold
    · simp only [hreplaced, if_true]
      have hfilled : memory.filledQty = memory'.filledQty := hread.resolve_left fun h =>
        hreplaced.elim (fun hside => hside h.2.1) fun hfar => absurd h.2.2 (not_lt.mpr hfar)
      exact ⟨⟨⟨rfl, withoutId_build hfilled _ _ _ _⟩, withoutId_build hfilled _ _ _ _⟩, rfl⟩
    · simp only [hreplaced, if_false]
      exact ⟨⟨⟨rfl, rfl⟩, rfl⟩, rfl⟩

/-- A fill of a child reads nothing of memory. -/
theorem onChildFill_congr (h : SameButIds m m') (fillQty : ℚ) :
    SameButIds (m.onChildFill fillQty) (m'.onChildFill fillQty) := by
  obtain ⟨cfg, plan, nextPlanId⟩ := m
  obtain ⟨cfg', plan', nextPlanId'⟩ := m'
  obtain ⟨rfl, hplan⟩ := h
  obtain ⟨planId, rfl⟩ := eq_of_withoutId hplan
  simp only [onChildFill, ParentExecutionPlan.active]
  split_ifs
  · exact ⟨rfl, rfl⟩
  · exact ⟨rfl, rfl⟩
  · exact ⟨rfl, rfl⟩

/-- A poll after the expiry. -/
theorem poll_eq : m.poll memory now =
    if (m.maybeExpire now (emptyResult memory)).2.action = .none then
      ((m.maybeExpire now (emptyResult memory)).1,
        { (m.maybeExpire now (emptyResult memory)).2 with
          plan := (m.maybeExpire now (emptyResult memory)).1.plan })
    else m.maybeExpire now (emptyResult memory) := rfl

/-- **A poll** reads the action where no plan expires. -/
theorem poll_congr (h : SameButIds m m')
    (hread : m.plan.active = true ∧ m.plan.deadline ≤ now ∨ memory.action = memory'.action) :
    SamePlans (m.poll memory now) (m'.poll memory' now) ∧
      (m.poll memory now).2.action = (m'.poll memory' now).2.action := by
  obtain ⟨hplans, haction⟩ := @maybeExpire_congr m m' memory memory' now h
  rw [poll_eq, poll_eq, haction hread]
  split_ifs
  · exact ⟨⟨hplans.1, hplans.1.2⟩, haction hread⟩
  · exact ⟨hplans, haction hread⟩

end ParentOrderManager

namespace SmartOrderRouter

variable {side : Side} {regime : RoutingRegime} {bestPx minFillProbability : ℚ}
  {venues : VenueQuotes} {s : RouteState} {fuel : ℕ}

/-- The state with another flag in the decision. -/
def RouteState.flagged (s : RouteState) (blockedByAlpha : Bool) : RouteState :=
  { s with out := { s.out with blockedByAlpha } }

/-- The loop does not look at the flag. -/
theorem routeLoop_flagged (b : Bool) :
    routeLoop side regime bestPx minFillProbability venues fuel (s.flagged b) =
      (routeLoop side regime bestPx minFillProbability venues fuel s).flagged b := by
  induction fuel generalizing s with
  | zero => rfl
  | succ fuel ih =>
    rw [routeLoop, routeLoop]
    by_cases hdone : s.remaining ≤ minRemainingQty ∨ s.out.childCount ≥ s.out.children.length
    · rw [if_pos hdone, if_pos (by exact hdone)]
    · rw [if_neg hdone, if_neg (by exact hdone)]
      cases hbest : findBestVenueIndex venues s.used side regime bestPx minFillProbability with
      | none =>
        simp only [RouteState.flagged, hbest]
      | some i =>
        simp only [RouteState.flagged, hbest]
        exact @ih (appendChildOrder side venues s i)

/-- The orders depend on the memory by the number of children and the regime alone. -/
theorem orders_route_congr {memory memory' : RouterMemory} {quantity : ℚ}
    {cfg : SmartOrderRouterConfig} (hcount : memory.childCount = memory'.childCount)
    (hregime : SetsRegime venues cfg ∨ memory.regime = memory'.regime) :
    (route memory side quantity venues cfg).orders =
      (route memory' side quantity venues cfg).orders := by
  simp only [route, inferRegime_congr hregime]
  split_ifs
  · simp only [RoutingDecision.found, RoutingDecision.orders, hcount]
  · have hfound : (⟨fun _ => false, quantity, RoutingDecision.found memory⟩ : RouteState) =
        (⟨fun _ => false, quantity, RoutingDecision.found memory'⟩ : RouteState).flagged
          memory.blockedByAlpha := by
      simp only [RouteState.flagged, RoutingDecision.found, hcount]
    rw [hfound, routeLoop_flagged]
    rfl

end SmartOrderRouter

namespace RoutingState

variable {s t : RoutingState} {m n : RoutingMemory} {c : RoutingCall}

theorem answer_congr {p q : ParentOrderManager × ParentPlanUpdateResult}
    (h : ParentOrderManager.SamePlans p q ∧ p.2.action = q.2.action) :
    Alike (answer p).1 (answer q).1 ∧ (answer p).2 = (answer q).2 := by
  obtain ⟨⟨⟨hcfg, hplan⟩, hreturned⟩, haction⟩ := h
  exact ⟨⟨hcfg, hplan, hreturned⟩, by simp only [answer, haction, hreturned]⟩

/-- The id of a plan plays no part in its children. -/
theorem children_withoutId {scheduler : ChildOrderScheduler} {memory : SchedulerMemory}
    {plan plan' : ParentExecutionPlan} (h : plan.withoutId = plan'.withoutId)
    (horizonTicks inventoryAgeMs : ℤ) (venues : VenueQuotes) :
    (scheduler.schedule memory plan horizonTicks inventoryAgeMs venues).children =
      (scheduler.schedule memory plan' horizonTicks inventoryAgeMs venues).children := by
  obtain ⟨planId, rfl⟩ := ParentOrderManager.eq_of_withoutId h
  rfl

/-- The children depend on the memory by the regime alone. -/
theorem children_congr {scheduler : ChildOrderScheduler} {memory memory' : SchedulerMemory}
    {plan : ParentExecutionPlan} {horizonTicks inventoryAgeMs : ℤ} {venues : VenueQuotes}
    (h : SmartOrderRouter.SetsRegime venues scheduler.sor ∨ memory.regime = memory'.regime) :
    (scheduler.schedule memory plan horizonTicks inventoryAgeMs venues).children =
      (scheduler.schedule memory' plan horizonTicks inventoryAgeMs venues).children := by
  have hshortfall : scheduler.shortfallOf memory plan horizonTicks inventoryAgeMs venues =
      scheduler.shortfallOf memory' plan horizonTicks inventoryAgeMs venues := by
    funext venue
    simp only [ChildOrderScheduler.shortfallOf, SmartOrderRouter.inferRegime_congr h]
  rw [ChildOrderScheduler.children_schedule, ChildOrderScheduler.children_schedule, hshortfall]

/-- What an update of the target comes to. -/
theorem updateTarget_congr (h : s.Alike t) {positionDelta : ℚ} {urgency : ShadowUrgency}
    {now deadline : ℤ} (hread : s.SameReads m n (.updateTarget positionDelta urgency now deadline)) :
    ParentOrderManager.SamePlans
        (s.manager.updateTarget m.plan positionDelta urgency now deadline)
        (t.manager.updateTarget n.plan positionDelta urgency now deadline) ∧
      (s.manager.updateTarget m.plan positionDelta urgency now deadline).2.action =
        (t.manager.updateTarget n.plan positionDelta urgency now deadline).2.action := by
  obtain ⟨hplans, haction⟩ := @ParentOrderManager.maybeExpire_congr s.manager t.manager m.plan
    n.plan now ⟨h.1, h.2.1⟩
  -- a plan that does not expire is still there after the expiry
  have hkept : s.manager.plan.active = true → now < s.manager.plan.deadline →
      (s.manager.maybeExpire now (ParentOrderManager.emptyResult m.plan)).1 = s.manager := by
    intro hactive hnow
    unfold ParentOrderManager.maybeExpire
    rw [if_pos (by simp [hnow])]
  simp only [SameReads] at hread
  rw [ParentOrderManager.updateTarget_eq, ParentOrderManager.updateTarget_eq]
  by_cases hempty : |positionDelta| ≤ ParentOrderManager.qtyEpsilon
  · rw [if_pos hempty] at hread
    refine ParentOrderManager.retarget_congr_of_empty hplans hempty ?_
    rcases hread with hactive | hsame
    · rcases lt_or_ge now s.manager.plan.deadline with hnow | hnow
      · rw [hkept hactive hnow]
        exact .inl hactive
      · exact .inr (haction (.inl ⟨hactive, hnow⟩))
    · exact .inr (haction (.inr hsame))
  · rw [if_neg hempty] at hread
    refine ParentOrderManager.retarget_congr_of_target hplans hempty ?_
    rcases hread with ⟨hactive, hnow, hside, hnear⟩ | hsame
    · rw [hkept hactive hnow]
      exact .inl ⟨hactive, hside, hnear⟩
    · exact .inr hsame

/-- **One call**: memories that agree on what it reads give the same answer. -/
theorem call_congr (h : s.Alike t) (hread : s.SameReads m n c) :
    Alike (s.call m c).1 (t.call n c).1 ∧ (s.call m c).2 = (t.call n c).2 := by
  cases c with
  | updateTarget positionDelta urgency now deadline =>
    exact answer_congr (updateTarget_congr h hread)
  | onChildFill fillQty =>
    obtain ⟨hcfg, hplan⟩ := ParentOrderManager.onChildFill_congr ⟨h.1, h.2.1⟩ fillQty
    exact ⟨⟨hcfg, hplan, h.2.2⟩, rfl⟩
  | poll now => exact answer_congr (ParentOrderManager.poll_congr ⟨h.1, h.2.1⟩ hread)
  | schedule scheduler given horizonTicks inventoryAgeMs venues =>
    have hgiven : (given.getD s.returned).withoutId = (given.getD t.returned).withoutId := by
      cases given with
      | none => exact h.2.2
      | some plan => rfl
    refine ⟨h, congrArg (fun orders => ({ orders } : RoutingAnswer)) ?_⟩
    exact (children_congr hread).trans (children_withoutId hgiven _ _ _)
  | route side quantity venues cfg =>
    exact ⟨h, congrArg (fun orders => ({ orders } : RoutingAnswer))
      (SmartOrderRouter.orders_route_congr hread.1 hread.2)⟩

/-- **Routing on two memories**: a run of calls whose memories agree on what each call reads gives
the same actions, plans and orders, from managers with any ids. -/
theorem outputs_congr_routing (cfg : ParentOrderConfig) (nextPlanId nextPlanId' : UInt64)
    (calls : List (RoutingMemory × RoutingMemory × RoutingCall))
    (hreads : AllSteps (fun s x => (call s x.1 x.2.2).1) (fun s x => SameReads s x.1 x.2.1 x.2.2)
      ⟨{ cfg, nextPlanId }, {}⟩ calls) :
    outputs call ⟨{ cfg, nextPlanId }, {}⟩ (firstRun calls) =
      outputs call ⟨{ cfg, nextPlanId := nextPlanId' }, {}⟩ (secondRun calls) :=
  @outputs_congr _ _ _ _ call Alike SameReads (fun _ _ _ _ _ => call_congr) calls _ _
    ⟨rfl, rfl, rfl⟩ hreads

/-! ## The memory counts -/

/-- Memory that is zero. -/
def zeroRouting : RoutingMemory where
  plan := ⟨.none, false, false, 0⟩
  scheduler := ⟨.passiveJoin, 0, ⟨0, 0, 0⟩⟩
  router := ⟨0, false, ⟨0, 0, 0⟩⟩

/-- Memory that holds something else. -/
def dirtyRouting : RoutingMemory where
  plan := ⟨.created, true, true, 1⟩
  scheduler := ⟨.sweep, 1, ⟨1, 1, 1⟩⟩
  router := ⟨9, true, ⟨1, 1, 1⟩⟩

/-- **A new manager without a target**: the action returned is the one in memory. -/
theorem emptyTarget_differs :
    outputs call ⟨{ nextPlanId := 0 }, {}⟩
        (firstRun [(zeroRouting, dirtyRouting, .updateTarget 0 .passive 0 0)]) ≠
      outputs call ⟨{ nextPlanId := 0 }, {}⟩
        (secondRun [(zeroRouting, dirtyRouting, .updateTarget 0 .passive 0 0)]) := by
  decide +kernel

/-- Two memories that differ only where nothing is read, in a run that starts a plan and routes. -/
def alikeMemories : List (RoutingMemory × RoutingMemory × RoutingCall) :=
  [(zeroRouting, { zeroRouting with plan := ⟨.created, true, true, 0⟩ },
      .updateTarget 1 .aggressive 0 0),
    (zeroRouting, { zeroRouting with router := ⟨0, true, ⟨0, 0, 0⟩⟩ },
      .route .bid 1 (fun _ => {}) ⟨1, 0, 1, ⟨0, 0, 0⟩, ⟨0, 0, 0⟩, ⟨0, 0, 0⟩, 0⟩)]

theorem outputs_congr_alikeMemories :
    alikeMemories ≠ [] ∧ outputs call ⟨{ nextPlanId := 0 }, {}⟩ (firstRun alikeMemories) =
      outputs call ⟨{ nextPlanId := 7 }, {}⟩ (secondRun alikeMemories) := by
  refine ⟨List.cons_ne_nil _ _, outputs_congr_routing {} 0 7 alikeMemories ⟨?_, ?_, trivial⟩⟩
  · simp only [SameReads]
    rw [if_neg (by decide +kernel)]
    exact .inr rfl
  · exact ⟨rfl, .inr rfl⟩

end RoutingState

end TradingInfrastructure
