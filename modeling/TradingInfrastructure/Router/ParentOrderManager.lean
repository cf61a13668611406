import TradingInfrastructure.Common.Types

/-!
# The parent plan

`core/execution/common/orders/parent_order_manager.hpp`: the target of the engine becomes a plan,
which is replaced when the target has moved by the configured threshold, and which the fills,
cancels and rejects of its children work off. A default configuration has a threshold of zero.

The result and a new plan are declared without initializers for some of their fields. What those
hold in memory is an argument (`PlanMemory`). Times are nanoseconds.
-/

namespace TradingInfrastructure

/-- `ShadowUrgency`. -/
inductive ShadowUrgency
  | passive | balanced | aggressive
  deriving DecidableEq, Inhabited, Repr

/-- `ParentPlanState`. -/
inductive ParentPlanState
  | idle | working | completed | canceled | replaced | expired | rejected
  deriving DecidableEq, Inhabited, Repr

/-- `ParentPlanAction`. -/
inductive ParentPlanAction
  | none | created | updated | replaced | expired | escalated | completed | canceled | rejected
  deriving DecidableEq, Inhabited, Repr

/-- `ParentExecutionPlan`. -/
structure ParentExecutionPlan where
  planId : UInt64 := 0
  side : Side := .bid
  totalQty : ℚ := 0
  filledQty : ℚ := 0
  remainingQty : ℚ := 0
  urgency : ShadowUrgency := .passive
  allowPassive : Bool := false
  allowAggressive : Bool := false
  createdAt : ℤ := 0
  deadline : ℤ := 0
  state : ParentPlanState := .idle
  revision : UInt32 := 0
  deriving DecidableEq

/-- `active`. -/
def ParentExecutionPlan.active (plan : ParentExecutionPlan) : Bool := plan.state == .working

/-- `ParentPlanUpdateResult`. -/
structure ParentPlanUpdateResult where
  action : ParentPlanAction
  plan : ParentExecutionPlan := {}
  shouldCancelWorkingChildren : Bool
  deadlinePassed : Bool
  deriving DecidableEq

/-- What memory holds where the code does not initialize it. -/
structure PlanMemory where
  action : ParentPlanAction
  shouldCancelWorkingChildren : Bool
  deadlinePassed : Bool
  filledQty : ℚ
  deriving DecidableEq

/-- `ParentOrderManager::Config`. -/
structure ParentOrderConfig where
  replaceQtyThreshold : ℚ := 0
  defaultDeadline : ℤ := 1500 * 10 ^ 6
  minDeadlineExtension : ℤ := 250 * 10 ^ 6
  deriving DecidableEq

/-- `ParentOrderManager`. -/
structure ParentOrderManager where
  cfg : ParentOrderConfig := {}
  plan : ParentExecutionPlan := {}
  nextPlanId : UInt64
  deriving DecidableEq

/-- `build_plan`. -/
def ParentExecutionPlan.build (memory : PlanMemory) (side : Side) (qty : ℚ)
    (urgency : ShadowUrgency)
    (now deadline : ℤ) (planId : UInt64) : ParentExecutionPlan where
  planId := planId
  side := side
  totalQty := qty
  filledQty := memory.filledQty
  remainingQty := qty
  urgency := urgency
  allowPassive := urgency != .aggressive
  allowAggressive := true
  createdAt := now
  deadline := deadline
  state := .working
  revision := 1

namespace ParentOrderManager

/-- `k_qty_epsilon`. -/
def qtyEpsilon : ℚ := 1 / 10 ^ 9

/-- `maybe_expire`. -/
def maybeExpire (m : ParentOrderManager) (now : ℤ) (result : ParentPlanUpdateResult) :
    ParentOrderManager × ParentPlanUpdateResult :=
  if !m.plan.active || now < m.plan.deadline then (m, result)
  else
    let plan := { m.plan with
      state := .expired, urgency := .aggressive, allowPassive := false
      revision := m.plan.revision + 1 }
    ({ m with plan },
      { action := .expired, plan, shouldCancelWorkingChildren := plan.remainingQty > qtyEpsilon
        deadlinePassed := true })

/-- The result with a new plan, which the manager keeps. -/
def startPlan (m : ParentOrderManager) (result : ParentPlanUpdateResult)
    (plan : ParentExecutionPlan) :
    ParentOrderManager × ParentPlanUpdateResult :=
  ({ m with plan, nextPlanId := m.nextPlanId + 1 }, { result with plan })

/-- The last part of `update_target`, for a plan that stays. -/
def updatePlan (m : ParentOrderManager) (result : ParentPlanUpdateResult) (requestedQty : ℚ)
    (urgency : ShadowUrgency) (effectiveDeadline : ℤ) :
    ParentOrderManager × ParentPlanUpdateResult :=
  let cappedRemainingQty := min m.plan.remainingQty requestedQty
  let changed := m.plan.urgency != urgency ||
    effectiveDeadline > m.plan.deadline + m.cfg.minDeadlineExtension ||
    |m.plan.totalQty - requestedQty| ≥ qtyEpsilon ||
    |m.plan.remainingQty - cappedRemainingQty| ≥ qtyEpsilon
  let plan := { m.plan with
    totalQty := max m.plan.filledQty requestedQty
    remainingQty := max 0 cappedRemainingQty
    urgency
    deadline := max m.plan.deadline effectiveDeadline
    allowPassive := urgency != .aggressive
    allowAggressive := true
    revision := m.plan.revision + 1 }
  ({ m with plan }, { result with action := if changed then .updated else .none, plan })

/-- `update_target`. -/
def updateTarget (m : ParentOrderManager) (memory : PlanMemory) (positionDelta : ℚ)
    (urgency : ShadowUrgency) (now deadline : ℤ) : ParentOrderManager × ParentPlanUpdateResult :=
  let (m, result) := m.maybeExpire now
    ⟨memory.action, {}, memory.shouldCancelWorkingChildren, memory.deadlinePassed⟩
  let requestedQty := |positionDelta|
  if requestedQty ≤ qtyEpsilon then
    if m.plan.active then
      let plan := { m.plan with state := .canceled, revision := m.plan.revision + 1 }
      ({ m with plan },
        { result with action := .canceled, shouldCancelWorkingChildren := true, plan })
    else if result.action = .none then (m, { result with plan := m.plan })
    else (m, result)
  else
    let requestedSide : Side := if positionDelta > 0 then .bid else .ask
    let effectiveDeadline := now + if deadline = 0 then m.cfg.defaultDeadline else deadline
    let plan := ParentExecutionPlan.build memory requestedSide requestedQty urgency now
      effectiveDeadline
      m.nextPlanId
    if !m.plan.active then m.startPlan { result with action := .created } plan
    else if m.plan.side ≠ requestedSide ∨
        |m.plan.totalQty - requestedQty| ≥ m.cfg.replaceQtyThreshold then
      m.startPlan { result with action := .replaced, shouldCancelWorkingChildren := true } plan
    else m.updatePlan result requestedQty urgency effectiveDeadline

/-- `on_child_fill`. -/
def onChildFill (m : ParentOrderManager) (fillQty : ℚ) : ParentOrderManager :=
  if !m.plan.active || fillQty ≤ 0 then m
  else
    let filledQty := min m.plan.totalQty (m.plan.filledQty + fillQty)
    let remainingQty := max 0 (m.plan.totalQty - filledQty)
    { m with
      plan := if remainingQty ≤ qtyEpsilon then
          { m.plan with filledQty, remainingQty := 0, state := .completed }
        else { m.plan with filledQty, remainingQty } }

/-- `on_child_cancel`. -/
def onChildCancel (m : ParentOrderManager) (canceledQty : ℚ) : ParentOrderManager :=
  if !m.plan.active || canceledQty ≤ 0 then m
  else
    let remainingQty := max 0 (m.plan.remainingQty - canceledQty)
    let totalQty := max m.plan.filledQty (m.plan.filledQty + remainingQty)
    { m with
      plan := if remainingQty ≤ qtyEpsilon then
          { m.plan with
            totalQty, remainingQty := 0
            state := if m.plan.filledQty > 0 then .completed else .canceled }
        else { m.plan with totalQty, remainingQty } }

/-- `on_child_reject`. -/
def onChildReject (m : ParentOrderManager) : ParentOrderManager :=
  if !m.plan.active then m
  else
    { m with
      plan := { m.plan with
        state := .rejected, remainingQty := max 0 (m.plan.totalQty - m.plan.filledQty) } }

/-- `poll`. -/
def poll (m : ParentOrderManager) (memory : PlanMemory) (now : ℤ) :
    ParentOrderManager × ParentPlanUpdateResult :=
  let (m, result) := m.maybeExpire now
    ⟨memory.action, {}, memory.shouldCancelWorkingChildren, memory.deadlinePassed⟩
  if result.action = .none then (m, { result with plan := m.plan }) else (m, result)

variable {m : ParentOrderManager} {memory : PlanMemory} {positionDelta : ℚ}
  {urgency : ShadowUrgency}
  {now deadline : ℤ}

theorem cfg_maybeExpire (result : ParentPlanUpdateResult) :
    (m.maybeExpire now result).1.cfg = m.cfg := by
  unfold maybeExpire
  split_ifs <;> rfl

/-- What `update_target` starts from, after the expiry. -/
def expired (m : ParentOrderManager) (memory : PlanMemory) (now : ℤ) :
    ParentOrderManager × ParentPlanUpdateResult :=
  m.maybeExpire now ⟨memory.action, {}, memory.shouldCancelWorkingChildren, memory.deadlinePassed⟩

/-- **Without a threshold no plan stays**: every target that is not empty starts a new plan for all
of it. -/
theorem updateTarget_of_noThreshold (hcfg : m.cfg.replaceQtyThreshold ≤ 0)
    (hqty : qtyEpsilon < |positionDelta|) :
    let after := m.updateTarget memory positionDelta urgency now deadline
    after.1.cfg = m.cfg ∧ after.2.action ≠ .none ∧ ∃ id,
      after.2.plan = ParentExecutionPlan.build memory (if positionDelta > 0 then .bid else .ask)
        |positionDelta| urgency now 
        (now + if deadline = 0 then m.cfg.defaultDeadline else deadline) id := by
  intro after
  have hkept : (m.expired memory now).1.cfg = m.cfg := cfg_maybeExpire _
  have hthreshold : ∀ q : ℚ,
      |(m.expired memory now).1.plan.totalQty - q| ≥ m.cfg.replaceQtyThreshold :=
    fun q => hcfg.trans (abs_nonneg _)
  unfold expired at hkept hthreshold
  simp only [after, updateTarget, not_le.mpr hqty, if_false]
  generalize m.maybeExpire now _ = p at *
  cases hactive : p.1.plan.active with
  | false =>
    simp only [Bool.not_false, if_true, startPlan, hkept]
    exact ⟨trivial, fun hc => ParentPlanAction.noConfusion hc, _, rfl⟩
  | true =>
    simp only [Bool.not_true, Bool.false_eq_true, if_false, hthreshold, or_true, if_true,
      startPlan, hkept]
    exact ⟨trivial, fun hc => ParentPlanAction.noConfusion hc, _, rfl⟩

/-- An empty target leaves no plan to work on. -/
theorem active_updateTarget_of_empty (hqty : |positionDelta| ≤ qtyEpsilon) :
    let after := m.updateTarget memory positionDelta urgency now deadline
    after.1.cfg = m.cfg ∧ after.2.plan.active = false := by
  intro after
  have hkept : (m.expired memory now).1.cfg = m.cfg := cfg_maybeExpire _
  have hidle : (m.expired memory now).2.plan.active = false := by
    unfold expired maybeExpire
    split_ifs <;> rfl
  unfold expired at hkept hidle
  simp only [after, updateTarget, hqty, if_true]
  split_ifs with hactive hnone
  · exact ⟨hkept, rfl⟩
  · exact ⟨hkept, Bool.eq_false_iff.mpr hactive⟩
  · exact ⟨hkept, hidle⟩

end ParentOrderManager

end TradingInfrastructure
