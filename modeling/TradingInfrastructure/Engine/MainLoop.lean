import TradingInfrastructure.Router.ChildOrderScheduler

/-!
# Iterations of the main loop

The part of the main loop of `core/engine/trading_engine_main.cpp` that turns a target into orders:
it updates the parent plan, schedules the plan and submits the children. Here the connectors accept
every child that reaches them and report no fill, and the target and the quotes stay the same; the
time and the urgency may change. The engine does not look at `should_cancel_working_children`, so
what is accepted stays.

The manager of the engine has the default configuration, whose threshold replaces the plan in each
iteration. So each iteration accepts anew what the quotes offer to the whole target
(`LoopInputs.offered`), and the target bounds what is accepted when it bounds the sum of the offers
(`LoopInputs.within_run`). -/

namespace TradingInfrastructure

/-- What stays the same in all iterations. -/
structure LoopInputs where
  positionDelta : ℚ
  horizonTicks : ℤ
  inventoryAgeMs : ℤ
  bidQuotes : VenueQuotes
  askQuotes : VenueQuotes
  childScheduler : ChildOrderScheduler

/-- What may change from one iteration to the next. -/
structure LoopIteration where
  now : ℤ
  urgency : ShadowUrgency
  planMemory : PlanMemory
  schedulerMemory : SchedulerMemory

/-- The manager of the loop, with the children that were accepted. -/
structure MainLoop where
  parentManager : ParentOrderManager
  accepted : List ChildOrder := []

/-- The quantity from which on a plan is scheduled. -/
def minScheduledQty : ℚ := 1 / 10 ^ 6

namespace LoopInputs

variable (inputs : LoopInputs)

/-- The quotes of a side. -/
def schedulerQuotes : Side → VenueQuotes
  | .bid => inputs.bidQuotes
  | .ask => inputs.askQuotes

/-- One iteration. `submit_decision` skips a child without a price. -/
def iterate (loop : MainLoop) (it : LoopIteration) : MainLoop :=
  let (parentManager, planUpdate) :=
    loop.parentManager.updateTarget it.planMemory inputs.positionDelta it.urgency it.now 0
  let activePlan := planUpdate.plan
  if planUpdate.action ≠ .none ∧ activePlan.active = true ∧
      activePlan.remainingQty > minScheduledQty then
    let scheduled := inputs.childScheduler.schedule it.schedulerMemory activePlan
      inputs.horizonTicks
      inputs.inventoryAgeMs (inputs.schedulerQuotes activePlan.side)
    { parentManager, accepted := loop.accepted ++ pricedChildren scheduled.children }
  else { loop with parentManager }

/-- The loop with a manager of the default configuration, with any plan, and nothing accepted
yet. -/
def start (plan : ParentExecutionPlan) (nextPlanId : UInt64) : MainLoop where
  parentManager := { plan, nextPlanId }

/-- A plan for all of the target. -/
def wholePlan (it : LoopIteration) (planId : UInt64) : ParentExecutionPlan :=
  ParentExecutionPlan.build it.planMemory (if inputs.positionDelta > 0 then .bid else .ask)
    |inputs.positionDelta| it.urgency it.now (it.now + ({} : ParentOrderConfig).defaultDeadline)
      planId

/-- What the quotes offer to a plan for all of the target, where it is large enough. -/
def offered (it : LoopIteration) : ℚ :=
  if |inputs.positionDelta| ≤ minScheduledQty then 0
  else
    inputs.childScheduler.offered it.schedulerMemory (inputs.wholePlan it 0) inputs.horizonTicks
      inputs.inventoryAgeMs (inputs.schedulerQuotes (inputs.wholePlan it 0).side)

/-- The iteration sweeps. -/
def Sweeps (it : LoopIteration) : Prop :=
  inputs.childScheduler.chooseStyle (inputs.wholePlan it 0) inputs.horizonTicks = .sweep

/-- What is accepted is within the target, in every state of the run. -/
def Within (loop : MainLoop) (its : List LoopIteration) : Prop :=
  ∀ pre, pre <+: its →
    totalQuantity (pre.foldl inputs.iterate loop).accepted ≤ |inputs.positionDelta|

variable {inputs : LoopInputs} {loop : MainLoop} {it : LoopIteration}

theorem offered_nonneg (it : LoopIteration) : 0 ≤ inputs.offered it := by
  unfold offered
  split_ifs
  · exact le_rfl
  · exact ChildOrderScheduler.offered_nonneg (abs_nonneg _)

/-- The children that an iteration accepts, with the default configuration: none for a small target,
and otherwise those of a plan for all of it. -/
theorem accepted_iterate (hcfg : loop.parentManager.cfg = {}) :
    (inputs.iterate loop it).parentManager.cfg = {} ∧
      (inputs.iterate loop it).accepted = loop.accepted ++
        if |inputs.positionDelta| ≤ minScheduledQty then []
        else
          pricedChildren (inputs.childScheduler.schedule it.schedulerMemory (inputs.wholePlan it 0)
            inputs.horizonTicks inputs.inventoryAgeMs
            (inputs.schedulerQuotes (inputs.wholePlan it 0).side)).children := by
  have hthreshold : loop.parentManager.cfg.replaceQtyThreshold ≤ 0 := by rw [hcfg]
  by_cases hqty : |inputs.positionDelta| ≤ ParentOrderManager.qtyEpsilon
  · have hsmall : |inputs.positionDelta| ≤ minScheduledQty :=
      hqty.trans (by unfold ParentOrderManager.qtyEpsilon minScheduledQty; norm_num)
    obtain ⟨hkept, hidle⟩ := @ParentOrderManager.active_updateTarget_of_empty loop.parentManager
      it.planMemory inputs.positionDelta it.urgency it.now 0 hqty
    simp only [iterate, hidle, Bool.false_eq_true, false_and, and_false, if_false, hsmall, if_true,
      List.append_nil, hkept, hcfg, and_self]
  · obtain ⟨hkept, haction, id, hplan⟩ := @ParentOrderManager.updateTarget_of_noThreshold
      loop.parentManager it.planMemory inputs.positionDelta it.urgency it.now 0 hthreshold
      (not_le.mp hqty)
    rw [if_pos rfl, hcfg] at hplan
    have hwhole : (loop.parentManager.updateTarget it.planMemory inputs.positionDelta
      it.urgency it.now
        0).2.plan = inputs.wholePlan it id := hplan
    have hactive : (inputs.wholePlan it id).active = true := rfl
    have hremaining : (inputs.wholePlan it id).remainingQty = |inputs.positionDelta| := rfl
    simp only [iterate, hwhole, hactive, hremaining, true_and, haction, ne_eq, not_false_eq_true]
    by_cases hsmall : |inputs.positionDelta| ≤ minScheduledQty
    · simp only [hsmall, not_lt.mpr hsmall, if_false, if_true, List.append_nil, hkept, hcfg,
        and_self]
    · simp only [not_le.mp hsmall, hsmall, if_true, if_false, hkept, hcfg, true_and]
      rfl

/-- **One iteration** accepts no more than what is offered, and without a sweep just that. -/
theorem totalQuantity_iterate (hcfg : loop.parentManager.cfg = {}) :
    totalQuantity (inputs.iterate loop it).accepted ≤
        totalQuantity loop.accepted + inputs.offered it ∧
      (¬inputs.Sweeps it → totalQuantity (inputs.iterate loop it).accepted =
        totalQuantity loop.accepted + inputs.offered it) := by
  rw [(accepted_iterate hcfg).2, totalQuantity_append, offered]
  by_cases hsmall : |inputs.positionDelta| ≤ minScheduledQty
  · simp [hsmall]
  · have hremaining : ChildOrderScheduler.qtyEpsilon < (inputs.wholePlan it 0).remainingQty := by
      refine lt_trans ?_ (not_le.mp hsmall)
      unfold ChildOrderScheduler.qtyEpsilon minScheduledQty
      norm_num
    simp only [hsmall, if_false]
    constructor
    · exact add_le_add_right (ChildOrderScheduler.priced_schedule_le_offered rfl hremaining) _
    · intro hsweeps
      rw [ChildOrderScheduler.priced_schedule_eq_offered rfl hremaining hsweeps]

/-- **A run** accepts no more than the sum of what is offered, and without sweeps just that. -/
theorem totalQuantity_run {its : List LoopIteration} (hcfg : loop.parentManager.cfg = {}) :
    totalQuantity (its.foldl inputs.iterate loop).accepted ≤
        totalQuantity loop.accepted + (its.map inputs.offered).sum ∧
      ((∀ it ∈ its, ¬inputs.Sweeps it) → totalQuantity (its.foldl inputs.iterate loop).accepted =
        totalQuantity loop.accepted + (its.map inputs.offered).sum) := by
  induction its generalizing loop with
  | nil => simp
  | cons it its ih =>
    obtain ⟨hle, heq⟩ := @totalQuantity_iterate inputs loop it hcfg
    obtain ⟨hrunLe, hrunEq⟩ := ih (accepted_iterate hcfg).1
    rw [List.foldl_cons, List.map_cons, List.sum_cons]
    constructor
    · linarith
    · intro hsweeps
      rw [hrunEq fun it' hit' => hsweeps it' (List.mem_cons_of_mem _ hit'),
        heq (hsweeps it List.mem_cons_self), add_assoc]

/-- **What is accepted is within the target** when the sum of what is offered is, and, for a run
without sweeps, only then. -/
theorem within_run (inputs : LoopInputs) (plan : ParentExecutionPlan) (nextPlanId : UInt64)
    (its : List LoopIteration) :
    ((its.map inputs.offered).sum ≤ |inputs.positionDelta| →
    inputs.Within (start plan nextPlanId) its) ∧
      ((∀ it ∈ its, ¬inputs.Sweeps it) → inputs.Within (start plan nextPlanId) its →
        (its.map inputs.offered).sum ≤ |inputs.positionDelta|) := by
  have hcfg : (start plan nextPlanId).parentManager.cfg = {} := rfl
  constructor
  · rintro hsum pre ⟨rest, rfl⟩
    have hrest : 0 ≤ (rest.map inputs.offered).sum := by
      refine List.sum_nonneg fun q hq => ?_
      obtain ⟨it, -, rfl⟩ := List.mem_map.mp hq
      exact offered_nonneg it
    have hrun := (@totalQuantity_run inputs _ pre hcfg).1
    rw [List.map_append, List.sum_append] at hsum
    simp only [start, totalQuantity_nil, zero_add] at hrun ⊢
    linarith
  · intro hsweeps hwithin
    have hrun := (@totalQuantity_run inputs _ its hcfg).2 hsweeps
    simp only [start, totalQuantity_nil, zero_add] at hrun
    rw [← hrun]
    exact hwithin its List.prefix_rfl

/-- A target of one unit, with one venue of this depth. -/
def oneUnit (depthQty : ℚ) : LoopInputs where
  positionDelta := 1
  horizonTicks := 10
  inventoryAgeMs := 0
  bidQuotes := fun i =>
    if i.val = 0 then
      { bestBid := 99, bestAsk := 100, depthQty, fillProbability := 1 / 2, healthy := true }
    else {}
  askQuotes := fun _ => {}
  childScheduler :=
    { shortHorizonTicks := 12, sweepHorizonTicks := 3, longHorizonTicks := 80
      passiveJoinInventoryAgeBps := 2 / 5, passiveImproveInventoryAgeBps := 1 / 4
      aggressiveInventoryAgeBps := 1 / 10, passiveImproveFraction := 1 / 5, priceCrossEpsilon := 0
      sor :=
        { highToxicityThreshold := 2, lowFillThreshold := 9 / 20, highFillThreshold := 3 / 4
          highToxicity := ⟨7, 11 / 10, 16 / 5⟩, lowFill := ⟨6, 9 / 10, 6 / 5⟩
          highFill := ⟨3, 2 / 5, 4 / 5⟩, minFillProbability := 1 / 20 } }

/-- An iteration at this time, in milliseconds. -/
def balancedAt (ms : ℤ) : LoopIteration where
  now := ms * 10 ^ 6
  urgency := .balanced
  planMemory := ⟨.none, false, false, 0⟩
  schedulerMemory := ⟨.ioc, 0, ⟨0, 0, 0⟩⟩

/-- With half a unit in each iteration, two iterations stay within the target. -/
theorem within_run_halfUnit : (oneUnit (1 / 2)).Within (start {} 1)
    [balancedAt 0, balancedAt 500] :=
  (within_run (oneUnit (1 / 2)) {} 1 [balancedAt 0, balancedAt 500]).1 (by decide +kernel)

/-- With a deep venue, the second iteration accepts the whole target once more. -/
theorem deepVenue_not_within :
    ¬(oneUnit 10).Within (start {} 1) [balancedAt 0, balancedAt 500] := by
  intro hwithin
  have htwice := hwithin [balancedAt 0, balancedAt 500] List.prefix_rfl
  exact absurd htwice (by decide +kernel)

end LoopInputs

end TradingInfrastructure
