import TradingInfrastructure.Foundations.Runs
import TradingInfrastructure.Router.ParentOrderManager

/-!
# The books of a plan

While a plan is worked on, what is filled of it and what remains of it should be all of it
(`Balanced`). The calls for its children keep that. A target that moves by less than the threshold
sets the total to the new quantity, and caps what remains by it on its own; that keeps the books
exactly when the quantity does not change, or shrinks before anything is filled. So the books are in
order along a run exactly when no other target is taken over by a plan that stays
(`balanced_run_iff`).
-/

namespace TradingInfrastructure

/-- A call of the manager. -/
inductive ParentCall
  | updateTarget (memory : PlanMemory) (positionDelta : ℚ) (urgency : ShadowUrgency)
    (now deadline : ℤ)
  | onChildFill (fillQty : ℚ)
  | onChildCancel (canceledQty : ℚ)
  | onChildReject
  | poll (memory : PlanMemory) (now : ℤ)
  deriving DecidableEq

namespace ParentOrderManager

/-- What a call makes of the manager. -/
def call (m : ParentOrderManager) : ParentCall → ParentOrderManager
  | .updateTarget memory positionDelta urgency now deadline =>
    (m.updateTarget memory positionDelta urgency now deadline).1
  | .onChildFill fillQty => m.onChildFill fillQty
  | .onChildCancel canceledQty => m.onChildCancel canceledQty
  | .onChildReject => m.onChildReject
  | .poll memory now => (m.poll memory now).1

/-- A new plan finds zero in the memory of what is filled of it. -/
def Zeroed : ParentCall → Prop
  | .updateTarget memory _ _ _ _ => memory.filledQty = 0
  | _ => True

/-- The books of a plan are in order. -/
structure InOrder (plan : ParentExecutionPlan) : Prop where
  filled_nonneg : 0 ≤ plan.filledQty
  filled_le : plan.filledQty ≤ plan.totalQty
  remaining : plan.remainingQty = plan.totalQty - plan.filledQty

/-- **The books are in order** while a plan is worked on, and fills that come to what remains
complete it. -/
structure Balanced (m : ParentOrderManager) : Prop where
  inOrder : m.plan.state = .working → InOrder m.plan
  completes : m.plan.state = .working → ∀ fills : List ℚ, (∀ qty ∈ fills, 0 < qty) →
    fills.sum = m.plan.totalQty - m.plan.filledQty →
    (fills.foldl onChildFill m).plan.state = .completed

/-- The side of a target. -/
def sideOf (positionDelta : ℚ) : Side := if positionDelta > 0 then .bid else .ask

/-- A plan that stays takes the target over. -/
def TakesOver (m : ParentOrderManager) (positionDelta : ℚ) (now : ℤ) : Prop :=
  m.plan.state = .working ∧ now < m.plan.deadline ∧ qtyEpsilon < |positionDelta| ∧
    m.plan.side = sideOf positionDelta ∧
    |m.plan.totalQty - abs positionDelta| < m.cfg.replaceQtyThreshold

/-- **A target that is taken over does not change the quantity**, or shrinks it before anything is
filled. -/
def KeepsQuantity (m : ParentOrderManager) : ParentCall → Prop
  | .updateTarget _ positionDelta _ now _ =>
    m.TakesOver positionDelta now → |positionDelta| = m.plan.totalQty ∨
      m.plan.filledQty = 0 ∧ |positionDelta| ≤ m.plan.totalQty
  | _ => True

instance (c : ParentCall) : Decidable (Zeroed c) :=
  match c with
  | .updateTarget memory _ _ _ _ => inferInstanceAs (Decidable (memory.filledQty = 0))
  | .onChildFill _ | .onChildCancel _ | .onChildReject | .poll _ _ => isTrue trivial

instance (m : ParentOrderManager) (positionDelta : ℚ) (now : ℤ) :
    Decidable (m.TakesOver positionDelta now) :=
  inferInstanceAs (Decidable (_ ∧ _ ∧ _ ∧ _ ∧ _))

instance (m : ParentOrderManager) (c : ParentCall) : Decidable (m.KeepsQuantity c) :=
  match c with
  | .updateTarget _ positionDelta _ now _ =>
    inferInstanceAs (Decidable (m.TakesOver positionDelta now →
      |positionDelta| = m.plan.totalQty ∨
        m.plan.filledQty = 0 ∧ |positionDelta| ≤ m.plan.totalQty))
  | .onChildFill _ | .onChildCancel _ | .onChildReject | .poll _ _ => isTrue trivial

/-- A plan that is worked on has something left. -/
def Unfinished (m : ParentOrderManager) : Prop :=
  m.plan.state = .working → qtyEpsilon < m.plan.remainingQty

variable {m : ParentOrderManager} {memory : PlanMemory} {positionDelta : ℚ}
  {urgency : ShadowUrgency} {now deadline : ℤ}

theorem qtyEpsilon_pos : 0 < qtyEpsilon := by norm_num [qtyEpsilon]

theorem active_iff {plan : ParentExecutionPlan} : plan.active = true ↔ plan.state = .working := by
  simp [ParentExecutionPlan.active]

/-! ## What a target does -/

/-- What a target leaves: no plan that is worked on, a new one, or the one that stays. -/
inductive Retargeted (m : ParentOrderManager) (memory : PlanMemory) (positionDelta : ℚ)
    (urgency : ShadowUrgency) (now : ℤ) : ParentExecutionPlan → Prop
  | ended {plan : ParentExecutionPlan} (h : plan.state ≠ .working)
      (hstays : ¬ m.TakesOver positionDelta now) :
      Retargeted m memory positionDelta urgency now plan
  | started (side : Side) (deadline : ℤ) (id : UInt64) (hqty : qtyEpsilon < |positionDelta|)
      (hstays : ¬ m.TakesOver positionDelta now) :
      Retargeted m memory positionDelta urgency now
        (.build memory side |positionDelta| urgency now deadline id)
  | takenOver (result : ParentPlanUpdateResult) (deadline : ℤ)
      (h : m.TakesOver positionDelta now) :
      Retargeted m memory positionDelta urgency now
        (m.updatePlan result |positionDelta| urgency deadline).1.plan

/-- Only a plan that is worked on, before its deadline, outlives the expiry. -/
theorem maybeExpire_cases (result : ParentPlanUpdateResult) :
    (m.plan.state = .working ∧ now < m.plan.deadline ∧ (m.maybeExpire now result).1 = m) ∨
      ¬ (m.plan.state = .working ∧ now < m.plan.deadline) ∧
        (m.maybeExpire now result).1.plan.state ≠ .working := by
  unfold maybeExpire
  by_cases hactive : m.plan.state = .working
  · by_cases hnow : now < m.plan.deadline
    · exact Or.inl ⟨hactive, hnow, by simp [hnow]⟩
    · refine Or.inr ⟨fun h => hnow h.2, ?_⟩
      simp [active_iff.mpr hactive, hnow]
  · refine Or.inr ⟨fun h => hactive h.1, ?_⟩
    have hidle : m.plan.active = false := by simpa [ParentExecutionPlan.active] using hactive
    simpa [hidle] using hactive

theorem updateTarget_retargeted : m.Retargeted memory positionDelta urgency now
    (m.updateTarget memory positionDelta urgency now deadline).1.plan := by
  have hexpire := @maybeExpire_cases m now
    ⟨memory.action, {}, memory.shouldCancelWorkingChildren, memory.deadlinePassed⟩
  unfold updateTarget
  simp only
  generalize m.maybeExpire now
    ⟨memory.action, {}, memory.shouldCancelWorkingChildren, memory.deadlinePassed⟩ = expired
    at hexpire
  by_cases hqty : |positionDelta| ≤ qtyEpsilon
  · -- an empty target ends the plan
    have hstays : ¬ m.TakesOver positionDelta now := fun h => absurd hqty (not_le.mpr h.2.2.1)
    simp only [hqty, if_true]
    cases hactive : expired.1.plan.active with
    | true =>
      simp only [if_true]
      exact .ended (by simp) hstays
    | false =>
      have hidle : expired.1.plan.state ≠ .working := by
        simpa [ParentExecutionPlan.active] using hactive
      simp only [Bool.false_eq_true, if_false]
      split_ifs
      · exact .ended hidle hstays
      · exact .ended hidle hstays
  simp only [hqty, if_false]
  have hqty' := not_le.mp hqty
  rcases hexpire with ⟨hworking, hnow, hsame⟩ | ⟨hstays, hidle⟩
  · rw [hsame]
    have hactive : m.plan.active = true := active_iff.mpr hworking
    simp only [hactive, Bool.not_true, Bool.false_eq_true, if_false]
    by_cases hreplace : m.plan.side ≠ (if positionDelta > 0 then Side.bid else .ask) ∨
        |m.plan.totalQty - abs positionDelta| ≥ m.cfg.replaceQtyThreshold
    · simp only [hreplace, if_true]
      refine .started _ _ _ hqty' fun h => ?_
      rcases hreplace with hside | hthreshold
      · exact hside h.2.2.2.1
      · exact absurd h.2.2.2.2 (not_lt.mpr hthreshold)
    · simp only [hreplace, if_false]
      rw [not_or, not_not, ge_iff_le, not_le] at hreplace
      exact .takenOver _ _ ⟨hworking, hnow, hqty', hreplace.1, hreplace.2⟩
  · have hidle' : expired.1.plan.active = false := by
      simpa [ParentExecutionPlan.active] using hidle
    simp only [hidle', Bool.not_false, if_true]
    exact .started _ _ _ hqty' fun h => hstays ⟨h.1, h.2.1⟩

/-! ## One call -/

/-- A new plan has its books in order, and something left. -/
theorem inOrder_build {side : Side} {qty : ℚ} {id : UInt64} (hmemory : memory.filledQty = 0)
    (hqty : qtyEpsilon < qty) :
    InOrder (.build memory side qty urgency now deadline id) ∧
      qtyEpsilon < (ParentExecutionPlan.build memory side qty urgency now deadline
        id).remainingQty := by
  have hpos := qtyEpsilon_pos.trans hqty
  simp only [ParentExecutionPlan.build]
  exact ⟨⟨hmemory.ge, hmemory.trans_le hpos.le, by simp [hmemory]⟩, hqty⟩

/-- **A target that is taken over** leaves the books in order exactly when it does not change the
quantity, or shrinks it before anything is filled. -/
theorem inOrder_updatePlan_iff (h : InOrder m.plan) (hleft : qtyEpsilon < m.plan.remainingQty)
    (result : ParentPlanUpdateResult) {qty : ℚ} (hqty : qtyEpsilon < qty) :
    InOrder (m.updatePlan result qty urgency deadline).1.plan ↔
      qty = m.plan.totalQty ∨ m.plan.filledQty = 0 ∧ qty ≤ m.plan.totalQty := by
  obtain ⟨hfilled, hle, hremaining⟩ := h
  have hpos := qtyEpsilon_pos
  have hcapped : 0 ≤ min m.plan.remainingQty qty := (le_min (by linarith) (by linarith))
  have hbooks : InOrder (m.updatePlan result qty urgency deadline).1.plan ↔
      min m.plan.remainingQty qty = max m.plan.filledQty qty - m.plan.filledQty := by
    constructor
    · intro h
      have hremaining' := h.remaining
      simp only [updatePlan] at hremaining'
      rwa [max_eq_right hcapped] at hremaining'
    · intro h
      refine ⟨hfilled, le_max_left _ _, ?_⟩
      simp only [updatePlan]
      rwa [max_eq_right hcapped]
  rw [hbooks]
  constructor
  · intro hsame
    rcases le_total qty m.plan.filledQty with hover | hunder
    · -- all of it is filled, and yet something is left
      rw [max_eq_left hover, sub_self] at hsame
      exact absurd hsame (lt_min (by linarith) (by linarith)).ne'
    · rw [max_eq_right hunder] at hsame
      rcases le_total m.plan.remainingQty qty with hgrows | hshrinks
      · rw [min_eq_left hgrows] at hsame
        exact Or.inl (by linarith)
      · rw [min_eq_right hshrinks] at hsame
        exact Or.inr ⟨by linarith, by linarith⟩
  · rintro (rfl | ⟨hnone, hshrinks⟩)
    · rw [max_eq_right hle, min_eq_left (by linarith), hremaining]
    · rw [hnone, max_eq_right (by linarith), min_eq_right (by linarith), sub_zero]

/-- It leaves something as well. -/
theorem unfinished_updatePlan (hleft : qtyEpsilon < m.plan.remainingQty)
    (result : ParentPlanUpdateResult) {qty : ℚ} (hqty : qtyEpsilon < qty) :
    qtyEpsilon < (m.updatePlan result qty urgency deadline).1.plan.remainingQty := by
  simp only [updatePlan]
  exact lt_max_of_lt_right (lt_min hleft hqty)

theorem state_updatePlan (result : ParentPlanUpdateResult) (qty : ℚ) :
    (m.updatePlan result qty urgency deadline).1.plan.state = m.plan.state := rfl

/-- A fill of a plan with its books in order. -/
theorem onChildFill_of_inOrder (h : InOrder m.plan) (hworking : m.plan.state = .working)
    {fillQty : ℚ} (hfill : 0 < fillQty) :
    (m.onChildFill fillQty).plan.state = .completed ∨
      (m.onChildFill fillQty).plan.state = .working ∧ InOrder (m.onChildFill fillQty).plan ∧
        qtyEpsilon < (m.onChildFill fillQty).plan.remainingQty ∧
        (m.onChildFill fillQty).plan.remainingQty = m.plan.remainingQty - fillQty := by
  obtain ⟨hfilled, hle, hremaining⟩ := h
  have hpos := qtyEpsilon_pos
  unfold onChildFill
  simp only [active_iff.mpr hworking, Bool.not_true, Bool.false_or, decide_eq_true_eq,
    not_le.mpr hfill, if_false]
  by_cases hdone : max 0 (m.plan.totalQty -
      min m.plan.totalQty (m.plan.filledQty + fillQty)) ≤ qtyEpsilon
  · exact Or.inl (by simp only [hdone, if_true])
  · right
    have hpartial : m.plan.filledQty + fillQty ≤ m.plan.totalQty := by
      by_contra hover
      rw [min_eq_left (by linarith), sub_self, max_self] at hdone
      exact hdone hpos.le
    simp only [hdone, if_false]
    rw [min_eq_right hpartial, max_eq_right (by linarith)] at hdone ⊢
    exact ⟨hworking, ⟨by linarith, hpartial, rfl⟩, not_le.mp hdone, by linarith⟩

/-- A cancel of a plan with its books in order. -/
theorem onChildCancel_of_inOrder (h : InOrder m.plan) (hworking : m.plan.state = .working)
    {canceledQty : ℚ} (hcancel : 0 < canceledQty) :
    (m.onChildCancel canceledQty).plan.state ≠ .working ∨
      InOrder (m.onChildCancel canceledQty).plan := by
  obtain ⟨hfilled, hle, hremaining⟩ := h
  unfold onChildCancel
  simp only [active_iff.mpr hworking, Bool.not_true, Bool.false_or, decide_eq_true_eq,
    not_le.mpr hcancel, if_false]
  have hrest : 0 ≤ max 0 (m.plan.remainingQty - canceledQty) := le_max_left _ _
  by_cases hdone : max 0 (m.plan.remainingQty - canceledQty) ≤ qtyEpsilon
  · left
    simp only [hdone, if_true]
    split_ifs <;> simp
  · right
    simp only [hdone, if_false]
    rw [max_eq_right (by linarith)]
    exact ⟨hfilled, by linarith, by linarith⟩

theorem state_onChildReject : m.onChildReject.plan.state ≠ .working := by
  unfold onChildReject
  cases hactive : m.plan.active with
  | true => simp
  | false => simpa [ParentExecutionPlan.active] using hactive

theorem poll_cases : (m.poll memory now).1 = m ∨ (m.poll memory now).1.plan.state ≠ .working := by
  have hexpire := @maybeExpire_cases m now
    ⟨memory.action, {}, memory.shouldCancelWorkingChildren, memory.deadlinePassed⟩
  have hpoll : (m.poll memory now).1 = (m.maybeExpire now
      ⟨memory.action, {}, memory.shouldCancelWorkingChildren, memory.deadlinePassed⟩).1 := by
    unfold poll
    simp only
    split_ifs <;> rfl
  rw [hpoll]
  rcases hexpire with ⟨-, -, hsame⟩ | ⟨-, hidle⟩
  · exact Or.inl hsame
  · exact Or.inr hidle

/-- **A plan that is worked on keeps something to do.** -/
theorem unfinished_call (h : m.Unfinished) (c : ParentCall) : (m.call c).Unfinished := by
  intro hworking
  cases c with
  | updateTarget memory positionDelta urgency now deadline =>
    have hplan := @updateTarget_retargeted m memory positionDelta urgency now deadline
    simp only [call] at hworking ⊢
    generalize (m.updateTarget memory positionDelta urgency now deadline).1.plan = plan at *
    cases hplan with
    | ended hidle _ => exact absurd hworking hidle
    | started side deadline id hqty _ => exact hqty
    | takenOver result deadline htakes =>
      exact unfinished_updatePlan (h htakes.1) result htakes.2.2.1
  | onChildFill fillQty =>
    simp only [call, onChildFill] at hworking ⊢
    split_ifs at hworking ⊢ with hnone hdone
    · exact h hworking
    · exact not_le.mp hdone
  | onChildCancel canceledQty =>
    simp only [call, onChildCancel] at hworking ⊢
    split_ifs at hworking ⊢ with hnone hdone
    · exact h hworking
    · exact not_le.mp hdone
  | onChildReject => exact absurd hworking state_onChildReject
  | poll memory now =>
    rcases @poll_cases m memory now with hsame | hidle
    · simp only [call, hsame] at hworking ⊢
      exact h hworking
    · exact absurd hworking hidle

/-! ## Fills that complete a plan -/

/-- A plan that is completed takes no fills. -/
theorem completed_fills (h : m.plan.state = .completed) (fills : List ℚ) :
    (fills.foldl onChildFill m).plan.state = .completed := by
  induction fills with
  | nil => exact h
  | cons qty fills ih =>
    have hidle : m.plan.active = false := by simp [ParentExecutionPlan.active, h]
    have hsame : m.onChildFill qty = m := by simp [onChildFill, hidle]
    rw [List.foldl_cons, hsame]
    exact ih

/-- **Fills that come to what remains complete the plan.** -/
theorem completes_of_inOrder (h : InOrder m.plan) (hworking : m.plan.state = .working)
    (hleft : qtyEpsilon < m.plan.remainingQty) {fills : List ℚ} (hfills : ∀ qty ∈ fills, 0 < qty)
    (hsum : fills.sum = m.plan.remainingQty) :
    (fills.foldl onChildFill m).plan.state = .completed := by
  induction fills generalizing m with
  | nil =>
    have hpos := qtyEpsilon_pos
    rw [List.sum_nil] at hsum
    linarith
  | cons qty fills ih =>
    rw [List.sum_cons] at hsum
    rw [List.foldl_cons]
    rcases onChildFill_of_inOrder h hworking (hfills qty List.mem_cons_self) with
      hdone | ⟨hworking', h', hleft', hremaining⟩
    · exact completed_fills hdone fills
    · exact ih h' hworking' hleft' (fun q hq => hfills q (List.mem_cons_of_mem _ hq))
        (by linarith)

theorem balanced_of_inOrder (hunfinished : m.Unfinished)
    (h : m.plan.state = .working → InOrder m.plan) : m.Balanced where
  inOrder := h
  completes hworking _ hfills hsum := completes_of_inOrder (h hworking) hworking
    (hunfinished hworking) hfills (hsum.trans (h hworking).remaining.symm)

/-! ## Runs -/

/-- **One call** keeps the books in order exactly when a target that is taken over keeps the
quantity. -/
theorem balanced_call_iff (hunfinished : m.Unfinished) (h : m.Balanced) {c : ParentCall}
    (hzeroed : Zeroed c) : (m.call c).Balanced ↔ m.KeepsQuantity c := by
  have hnext := unfinished_call hunfinished c
  have hiff : (m.call c).Balanced ↔
      ((m.call c).plan.state = .working → InOrder (m.call c).plan) :=
    ⟨fun h => h.inOrder, balanced_of_inOrder hnext⟩
  rw [hiff]
  cases c with
  | updateTarget memory positionDelta urgency now deadline =>
    have hplan := @updateTarget_retargeted m memory positionDelta urgency now deadline
    simp only [call, KeepsQuantity]
    generalize (m.updateTarget memory positionDelta urgency now deadline).1.plan = plan at *
    cases hplan with
    | ended hidle hstays => exact iff_of_true (fun hw => absurd hw hidle) fun ht => absurd ht hstays
    | started side deadline id hqty hstays =>
      exact iff_of_true (fun _ => (inOrder_build hzeroed hqty).1) fun ht => absurd ht hstays
    | takenOver result deadline htakes =>
      rw [state_updatePlan, inOrder_updatePlan_iff (h.inOrder htakes.1) (hunfinished htakes.1)
        result htakes.2.2.1]
      exact ⟨fun hkeeps _ => hkeeps htakes.1, fun hkeeps _ => hkeeps htakes⟩
  | onChildFill fillQty =>
    refine iff_of_true (fun hworking' => ?_) trivial
    simp only [call] at hworking' ⊢
    by_cases hworking : m.plan.state = .working
    · rcases lt_or_ge 0 fillQty with hfill | hnone
      · rcases onChildFill_of_inOrder (h.inOrder hworking) hworking hfill with hdone | ⟨-, h', -⟩
        · rw [hdone] at hworking'
          cases hworking'
        · exact h'
      · have hsame : m.onChildFill fillQty = m := by simp [onChildFill, hnone]
        rw [hsame]
        exact h.inOrder hworking
    · have hsame : m.onChildFill fillQty = m := by
        simp [onChildFill, ParentExecutionPlan.active, hworking]
      rw [hsame] at hworking'
      exact absurd hworking' hworking
  | onChildCancel canceledQty =>
    refine iff_of_true (fun hworking' => ?_) trivial
    simp only [call] at hworking' ⊢
    by_cases hworking : m.plan.state = .working
    · rcases lt_or_ge 0 canceledQty with hcancel | hnone
      · exact (onChildCancel_of_inOrder (h.inOrder hworking) hworking hcancel).resolve_left
          fun hidle => hidle hworking'
      · have hsame : m.onChildCancel canceledQty = m := by simp [onChildCancel, hnone]
        rw [hsame]
        exact h.inOrder hworking
    · have hsame : m.onChildCancel canceledQty = m := by
        simp [onChildCancel, ParentExecutionPlan.active, hworking]
      rw [hsame] at hworking'
      exact absurd hworking' hworking
  | onChildReject => exact iff_of_true (fun hworking => absurd hworking state_onChildReject) trivial
  | poll memory now =>
    refine iff_of_true (fun hworking => ?_) trivial
    rcases @poll_cases m memory now with hsame | hidle
    · simp only [call, hsame] at hworking ⊢
      exact h.inOrder hworking
    · exact absurd hworking hidle

/-- A manager without a plan. -/
def start (cfg : ParentOrderConfig) (nextPlanId : UInt64) : ParentOrderManager where
  cfg := cfg
  nextPlanId := nextPlanId

/-- **The books are in order in every state of a run** exactly when every target that a plan takes
over keeps its quantity, or shrinks it before anything is filled. -/
theorem balanced_run_iff (cfg : ParentOrderConfig) (nextPlanId : UInt64) (calls : List ParentCall)
    (hzeroed : ∀ c ∈ calls, Zeroed c) :
    (∀ pre, pre <+: calls → (pre.foldl call (start cfg nextPlanId)).Balanced) ↔
      AllSteps call KeepsQuantity (start cfg nextPlanId) calls := by
  have hstart : (start cfg nextPlanId).Balanced :=
    { inOrder := fun h => by cases h
      completes := fun h => by cases h }
  have hunfinished : ∀ (m : ParentOrderManager) (c : ParentCall), m.Unfinished → Zeroed c →
      (m.call c).Unfinished := fun _ c h _ => unfinished_call h c
  have hstep : ∀ (m : ParentOrderManager) (c : ParentCall), m.Unfinished → Zeroed c →
      m.Balanced → ((m.call c).Balanced ↔ m.KeepsQuantity c) :=
    fun _ _ hunfinished hzero h => balanced_call_iff hunfinished h hzero
  have hiff : (∀ pre, pre <+: calls → (pre.foldl call (start cfg nextPlanId)).Balanced) ↔
      (start cfg nextPlanId).Balanced ∧ AllSteps call KeepsQuantity (start cfg nextPlanId) calls :=
    forall_prefix_iff_allSteps hunfinished hstep (fun h => by cases h) hzeroed
  exact hiff.trans (and_iff_right hstart)

/-- Nothing in memory. -/
def zeroed : PlanMemory := ⟨.none, false, false, 0⟩

/-- A plan of three, which a target of four takes over. -/
def growing : List ParentCall :=
  [.updateTarget zeroed 3 .balanced 0 0, .updateTarget zeroed 4 .balanced 1 0]

/-- **A target that grows**: the total is four, three remain, and nothing is filled. -/
theorem growing_not_balanced :
    ¬ ∀ pre, pre <+: growing →
      (pre.foldl call (start { replaceQtyThreshold := 2 } 1)).Balanced := by
  intro h
  have hremaining := ((h growing (List.prefix_refl _)).inOrder (by decide +kernel)).remaining
  exact absurd hremaining (by decide +kernel)

/-- A plan of three whose target shrinks to two, which are filled. -/
def shrinking : List ParentCall :=
  [.updateTarget zeroed 3 .balanced 0 0, .updateTarget zeroed 2 .balanced 1 0, .onChildFill 1,
    .onChildFill 1]

theorem shrinking_zeroed : ∀ c ∈ shrinking, Zeroed c := by decide +kernel

/-- Its books are in order. -/
theorem shrinking_balanced :
    (∀ c ∈ shrinking, Zeroed c) ∧ ∀ pre, pre <+: shrinking →
      (pre.foldl call (start { replaceQtyThreshold := 2 } 1)).Balanced :=
  ⟨shrinking_zeroed,
    (balanced_run_iff { replaceQtyThreshold := 2 } 1 shrinking shrinking_zeroed).mpr
      (by decide +kernel)⟩

end ParentOrderManager

end TradingInfrastructure
