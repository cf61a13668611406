import TradingInfrastructure.Foundations.Streaks
import TradingInfrastructure.Reconciliation.Coverage

/-!
# When a venue is quarantined

The service counts the failures of a venue since its last successful fetch, and its order drifts and
fill gaps since its last clean visit, each against a budget of its own; some outcomes take the venue
out at once. What the venue has come to is a function of the outcomes of its visits, and
`quarantined_run` says which one quarantines it, for every run of the service.

The counters and the budgets are of 32 bits, so a budget of `2 ^ 32 - 1` is never used up.
-/

namespace TradingInfrastructure

/-- What a cycle finds of a venue that it visits. -/
inductive CycleOutcome
  | failed (res : ConnectorResult)
  | noCanonical | insane | orderDrift | fillGap | balanceDrift | positionDrift | clean
  deriving DecidableEq

namespace CycleOutcome

/-- A local reconcile or a snapshot fetch that fails. -/
def isFailed : CycleOutcome → Bool
  | .failed _ => true
  | _ => false

/-- The failures since the last successful fetch. -/
def failures (history : List CycleOutcome) : ℕ :=
  (sinceReset (fun outcome => !outcome.isFailed) history).countP isFailed

/-- How often an outcome has occurred since the last clean visit. -/
def sinceClean (outcome : CycleOutcome) (history : List CycleOutcome) : ℕ :=
  (sinceReset (· == .clean) history).count outcome

/-- The retries are one more than the budget, and fit the counter. -/
def UsedUp (budget : UInt32) (retries : ℕ) : Prop := retries = budget.toNat + 1 ∧ retries < 2 ^ 32

instance (budget : UInt32) (retries : ℕ) : Decidable (UsedUp budget retries) :=
  inferInstanceAs (Decidable (_ ∧ _))

/-- **The outcome takes the venue out**, after the outcomes before: an authentication failure, a
canonical fetch that fails, an insane snapshot, a balance or position drift, or a retry more than
the budget. -/
def Quarantines (policy : RemediationPolicy) (before : List CycleOutcome) : CycleOutcome → Prop
  | .failed res =>
    res = .authFailed ∨ UsedUp policy.snapshotFailureRetryBudget (failures before + 1)
  | .orderDrift => UsedUp policy.orderDriftRetryBudget (sinceClean .orderDrift before + 1)
  | .fillGap => UsedUp policy.fillGapRetryBudget (sinceClean .fillGap before + 1)
  | .noCanonical | .insane | .balanceDrift | .positionDrift => True
  | .clean => False

/-- The outcome that a decision is about. -/
def ofDecision (decision : DriftDecision) : CycleOutcome :=
  if decision.mismatch then
    match decision.mismatchClass with
    | .none => .insane
    | .missingOrder | .qtyDrift => .orderDrift
    | .fillGap => .fillGap
    | .balanceDrift => .balanceDrift
    | .positionDrift => .positionDrift
  else .clean

end CycleOutcome

/-- A decision in memory that is zero. -/
def DriftDecision.zero : DriftDecision := ⟨false, .none, .none, .info, 0, false, []⟩

/-- What a visit finds. -/
def VenueSlot.outcome (slot : VenueSlot) (config : ServiceConfig) (answers : VenueAnswers)
    (reconnectPhase : Bool) : CycleOutcome :=
  if reconnectPhase && slot.reconnectRequired && answers.reconcile != .ok then
    .failed answers.reconcile
  else if answers.fetch.1 ≠ .ok then .failed answers.fetch.1
  else if slot.hasFetcher && answers.canonical.isNone then .noCanonical
  else if (config.thresholds.evaluateSnapshotSanity answers.memory answers.fetch.2).mismatch then
    .insane
  else
    .ofDecision (config.thresholds.evaluate answers.memory answers.fetch.2
      (if slot.hasFetcher then answers.canonical else slot.canonicalSnapshot))

/-! ## The decisions -/

namespace DriftThresholds

variable (t : DriftThresholds) (out : DriftDecision) (snapshot : ReconciliationSnapshot)

/-- A sanity check returns what was in memory, or says what is wrong. -/
theorem sanity_cases : t.evaluateSnapshotSanity out snapshot = out ∨
    ∃ reason, t.evaluateSnapshotSanity out snapshot = out.insane reason := by
  unfold evaluateSnapshotSanity
  split
  · exact Or.inr ⟨_, rfl⟩
  split
  · exact Or.inr ⟨_, rfl⟩
  split
  · exact Or.inr ⟨_, rfl⟩
  split
  · exact Or.inr ⟨_, rfl⟩
  · exact Or.inl rfl

/-- An insane snapshot is not compared. -/
theorem evaluate_of_insane (canonical : Option ReconciliationSnapshot)
    (h : (t.evaluateSnapshotSanity out snapshot).mismatch = true) :
    t.evaluate out snapshot canonical = t.evaluateSnapshotSanity out snapshot := by
  cases canonical with
  | none => rfl
  | some canonical => rw [evaluate, evaluateDrift, if_pos h]

theorem orderDrift_class {venue : ReconciliationSnapshot} {internal : ReconciledOrder}
    {found : MismatchClass × String} (h : t.orderDrift venue internal = some found) :
    found.1 = .missingOrder ∨ found.1 = .qtyDrift := by
  unfold orderDrift at h
  split at h
  · exact Or.inl (Option.some.inj h ▸ rfl)
  split_ifs at h
  · exact Or.inr (Option.some.inj h ▸ rfl)

/-- What a comparison of a sane snapshot can come to. -/
inductive Compared (out : DriftDecision) : DriftDecision → Prop
  | same : Compared out out
  | order (mismatchClass : MismatchClass) (reason : String)
      (h : mismatchClass = .missingOrder ∨ mismatchClass = .qtyDrift) :
      Compared out (out.classifyOrderDrift mismatchClass reason)
  | fills : Compared out out.classifyFillGap
  | halt (mismatchClass : MismatchClass) (reason : String)
      (h : mismatchClass = .balanceDrift ∨ mismatchClass = .positionDrift) :
      Compared out (out.mismatchOf mismatchClass .riskHaltRecommended .critical reason true)

theorem evaluate_of_sane (canonical : Option ReconciliationSnapshot) (hout : out.mismatch = false)
    (h : (t.evaluateSnapshotSanity out snapshot).mismatch = false) :
    Compared out (t.evaluate out snapshot canonical) := by
  have hsane : t.evaluateSnapshotSanity out snapshot = out := by
    rcases t.sanity_cases out snapshot with hsame | ⟨reason, hinsane⟩
    · exact hsame
    · rw [hinsane] at h
      cases h
  cases canonical with
  | none =>
    rw [evaluate, hsane]
    exact .same
  | some canonical =>
    rw [evaluate, evaluateDrift, hsane]
    simp only [hout, Bool.false_eq_true, if_false]
    split
    · next mismatchClass reason hfound =>
      obtain ⟨order, -, horder⟩ := List.exists_of_findSome?_eq_some hfound
      exact .order _ _ (t.orderDrift_class horder)
    split
    · exact .order _ _ (Or.inl rfl)
    split
    · exact .fills
    split
    · exact .halt _ _ (Or.inl rfl)
    split
    · exact .halt _ _ (Or.inr rfl)
    · exact .same

end DriftThresholds

/-! ## One visit -/

/-- The outcome takes the venue out, as far as its counters say. -/
def RemediationPolicy.Halts (policy : RemediationPolicy) (s : VenueState) : CycleOutcome → Prop
  | .failed res =>
    res = .authFailed ∨ s.snapshotFailureRetries + 1 > policy.snapshotFailureRetryBudget
  | .orderDrift => s.orderDriftRetries + 1 > policy.orderDriftRetryBudget
  | .fillGap => s.fillGapRetries + 1 > policy.fillGapRetryBudget
  | .noCanonical | .insane | .balanceDrift | .positionDrift => True
  | .clean => False

/-- **What a visit does to its venue**: it counts the outcome, takes the venue out when that is
due, and lets the cycle go on when it is clean. -/
structure Visit.Finds (policy : RemediationPolicy) (s : VenueState) (outcome : CycleOutcome)
    (v : Visit) : Prop where
  failures : v.slot.state.snapshotFailureRetries =
    if outcome.isFailed then s.snapshotFailureRetries + 1 else 0
  orderDrifts : v.slot.state.orderDriftRetries =
    if outcome = .clean then 0
    else if outcome = .orderDrift then s.orderDriftRetries + 1 else s.orderDriftRetries
  fillGaps : v.slot.state.fillGapRetries =
    if outcome = .clean then 0
    else if outcome = .fillGap then s.fillGapRetries + 1 else s.fillGapRetries
  quarantined : v.slot.state.quarantined = true ↔ s.quarantined = true ∨ policy.Halts s outcome
  returned : v.returned = none ↔ outcome = .clean

/-- After a fetch that succeeds nothing depends on the failures before it. -/
theorem Visit.Finds.of_fetched {policy : RemediationPolicy} {s : VenueState} {v : Visit}
    {outcome : CycleOutcome} (ho : outcome.isFailed = false)
    (h : Visit.Finds policy { s with snapshotFailureRetries := 0 } outcome v) :
    Visit.Finds policy s outcome v where
  failures := by rw [h.failures, ho]; rfl
  orderDrifts := h.orderDrifts
  fillGaps := h.fillGaps
  quarantined := by
    rw [h.quarantined]
    cases outcome with
    | failed res => cases ho
    | _ => rfl
  returned := h.returned

namespace ServiceConfig

variable {config : ServiceConfig} {slot : VenueSlot} {log : ServiceLog} {calls : List CycleCall}
  {i : ℕ} {answers : VenueAnswers} {reconnectPhase : Bool} {now : ℤ} {res : ConnectorResult}

theorem applyDecision_insane {outcome : CycleOutcome} (reason : String)
    (ho : outcome = .insane ∨ outcome = .noCanonical) (h : slot.state.snapshotFailureRetries = 0) :
    Visit.Finds config.policy slot.state outcome
      (config.applyDecision slot log calls (DriftDecision.zero.insane reason) reconnectPhase now
        res) := by
  rcases ho with rfl | rfl <;>
    exact ⟨h, rfl, rfl, by
      simp [applyDecision, DriftDecision.insane, DriftDecision.mismatchOf,
        RemediationPolicy.countRetries, RemediationPolicy.Halts], by simp [applyDecision]⟩

/-- **A comparison that fails** is counted as the drift that it has found. -/
theorem applyDecision_compared {decision : DriftDecision}
    (hcompared : DriftThresholds.Compared .zero decision) (hmismatch : decision.mismatch = true)
    (h : slot.state.snapshotFailureRetries = 0) :
    Visit.Finds config.policy slot.state (.ofDecision decision)
      (config.applyDecision slot log calls decision reconnectPhase now res) := by
  cases hcompared with
  | same => cases hmismatch
  | order mismatchClass reason hclass =>
    have hofDecision : CycleOutcome.ofDecision
        (DriftDecision.zero.classifyOrderDrift mismatchClass reason) = .orderDrift := by
      rcases hclass with rfl | rfl <;> rfl
    rw [hofDecision]
    by_cases hbudget : slot.state.orderDriftRetries + 1 > config.policy.orderDriftRetryBudget
    · rcases hclass with rfl | rfl <;>
        simp only [applyDecision, DriftDecision.classifyOrderDrift, RemediationPolicy.countRetries,
          hbudget, if_true, RemediationPolicy.halted] <;>
        exact ⟨h, rfl, rfl, by simp [RemediationPolicy.Halts, hbudget], by simp⟩
    · rcases hclass with rfl | rfl <;>
        simp only [applyDecision, DriftDecision.classifyOrderDrift, RemediationPolicy.countRetries,
          hbudget, if_false] <;>
        exact ⟨h, rfl, rfl, by simp [RemediationPolicy.Halts, DriftDecision.zero, hbudget],
          by simp⟩
  | fills =>
    by_cases hbudget : slot.state.fillGapRetries + 1 > config.policy.fillGapRetryBudget
    · simp only [applyDecision, DriftDecision.classifyFillGap, RemediationPolicy.countRetries,
        hbudget, if_true, RemediationPolicy.halted]
      exact ⟨h, rfl, rfl, by simp [CycleOutcome.ofDecision, RemediationPolicy.Halts, hbudget],
        by simp [CycleOutcome.ofDecision]⟩
    · simp only [applyDecision, DriftDecision.classifyFillGap, RemediationPolicy.countRetries,
        hbudget, if_false]
      exact ⟨h, rfl, rfl, by
        simp [CycleOutcome.ofDecision, RemediationPolicy.Halts, DriftDecision.zero, hbudget],
        by simp [CycleOutcome.ofDecision]⟩
  | halt mismatchClass reason hclass =>
    rcases hclass with rfl | rfl <;>
      exact ⟨h, rfl, rfl, by
        simp [applyDecision, DriftDecision.mismatchOf, RemediationPolicy.countRetries,
          RemediationPolicy.Halts, CycleOutcome.ofDecision],
        by simp [applyDecision, CycleOutcome.ofDecision, DriftDecision.mismatchOf]⟩

theorem failVisit_finds (hmemory : answers.memory = .zero) (reason : String) :
    Visit.Finds config.policy slot.state (.failed res)
      (config.failVisit slot log calls answers reconnectPhase res reason) := by
  unfold failVisit RemediationPolicy.classifySnapshotFailure
  rw [hmemory]
  by_cases hfatal : res = .authFailed ∨
      slot.state.snapshotFailureRetries + 1 > config.policy.snapshotFailureRetryBudget
  · simp only [hfatal, if_true, applyDecision, DriftDecision.zero, RemediationPolicy.countRetries]
    exact ⟨rfl, rfl, rfl, by simp [RemediationPolicy.Halts, hfatal], by simp⟩
  · simp only [hfatal, if_false, applyDecision, DriftDecision.zero, RemediationPolicy.countRetries]
    exact ⟨rfl, rfl, rfl, by simp [RemediationPolicy.Halts, hfatal], by simp⟩

theorem passVisit_finds (h : slot.state.snapshotFailureRetries = 0) :
    Visit.Finds config.policy slot.state .clean
      (passVisit slot log calls answers reconnectPhase) := by
  cases reconnectPhase <;>
    exact ⟨h, rfl, rfl, by simp [passVisit, RemediationPolicy.Halts], by simp [passVisit]⟩

/-- What `outcome` says when the local reconcile and the fetch have succeeded. -/
theorem checkVisit_finds (hmemory : answers.memory = .zero) :
    Visit.Finds config.policy slot.state
      (if slot.hasFetcher && answers.canonical.isNone then .noCanonical
      else if (config.thresholds.evaluateSnapshotSanity answers.memory answers.fetch.2).mismatch
        then
        .insane
      else .ofDecision (config.thresholds.evaluate answers.memory answers.fetch.2
        (if slot.hasFetcher then answers.canonical else slot.canonicalSnapshot)))
      (config.checkVisit slot log calls i answers reconnectPhase) := by
  let fetched : VenueSlot := { slot with
    latestSnapshot := some answers.fetch.2
    state := { slot.state with snapshotFailureRetries := 0 } }
  unfold checkVisit
  rw [hmemory]
  by_cases hguard : (slot.hasFetcher && answers.canonical.isNone) = true
  · simp only [hguard, if_true]
    exact (@applyDecision_insane config fetched _ _ _ _ _ _ _ (Or.inr rfl) rfl).of_fetched rfl
  simp only [hguard, if_false, Bool.false_eq_true]
  cases hsane : (config.thresholds.evaluateSnapshotSanity .zero answers.fetch.2).mismatch with
  | true =>
    simp only [config.thresholds.evaluate_of_insane _ _ _ hsane, hsane, if_true]
    rcases config.thresholds.sanity_cases .zero answers.fetch.2 with hsame | ⟨reason, hinsane⟩
    · rw [hsame] at hsane
      cases hsane
    · rw [hinsane]
      exact (@applyDecision_insane config fetched _ _ _ _ _ _ _ (Or.inl rfl) rfl).of_fetched rfl
  | false =>
    simp only [Bool.false_eq_true, if_false]
    generalize (if slot.hasFetcher then answers.canonical else slot.canonicalSnapshot) = canonical
    have hcompared := config.thresholds.evaluate_of_sane .zero answers.fetch.2 canonical rfl hsane
    cases hmismatch : (config.thresholds.evaluate .zero answers.fetch.2 canonical).mismatch with
    | true =>
      simp only [if_true]
      refine (@applyDecision_compared config fetched _ _ _ _ _ _ hcompared hmismatch
        rfl).of_fetched ?_
      unfold CycleOutcome.ofDecision
      rw [if_pos hmismatch]
      split <;> rfl
    | false =>
      have hclean : CycleOutcome.ofDecision
          (config.thresholds.evaluate .zero answers.fetch.2 canonical) = .clean := by
        rw [CycleOutcome.ofDecision, hmismatch]
        rfl
      rw [hclean]
      simp only [Bool.false_eq_true, if_false]
      exact (@passVisit_finds config fetched _ _ _ _ rfl).of_fetched rfl

/-- **A visit** counts its outcome, and takes the venue out when that is due. -/
theorem visit_finds (hmemory : answers.memory = .zero) :
    Visit.Finds config.policy slot.state (slot.outcome config answers reconnectPhase)
      (config.visit slot log i answers reconnectPhase) := by
  have hfetch : ∀ (slot : VenueSlot) (calls : List CycleCall),
      Visit.Finds config.policy slot.state
        (if answers.fetch.1 ≠ .ok then .failed answers.fetch.1
        else if slot.hasFetcher && answers.canonical.isNone then .noCanonical
        else if (config.thresholds.evaluateSnapshotSanity answers.memory
            answers.fetch.2).mismatch then
          .insane
        else .ofDecision (config.thresholds.evaluate answers.memory answers.fetch.2
          (if slot.hasFetcher then answers.canonical else slot.canonicalSnapshot)))
        (config.fetchVisit slot log calls i answers reconnectPhase) := by
    intro slot calls
    unfold fetchVisit
    by_cases hok : answers.fetch.1 = .ok
    · simp only [hok, ne_eq, not_true_eq_false, if_false]
      exact checkVisit_finds hmemory
    · simp only [hok, ne_eq, not_false_eq_true, if_true]
      exact failVisit_finds hmemory _
  unfold VenueSlot.outcome visit
  cases hdue : reconnectPhase && slot.reconnectRequired with
  | false =>
    simp only [Bool.false_and, Bool.false_eq_true, if_false]
    exact hfetch slot []
  | true =>
    simp only [Bool.true_and, if_true]
    by_cases hreconcile : answers.reconcile = .ok
    · simp only [hreconcile, bne_self_eq_false, Bool.false_eq_true, if_false, ne_eq,
        not_true_eq_false]
      exact hfetch { slot with reconnectRequired := false } [.reconcile i]
    · simp only [hreconcile, bne_iff_ne, ne_eq, not_false_eq_true, if_true]
      exact @failVisit_finds config { slot with reconnectRequired := false } log _ answers _ _
        hmemory _

end ServiceConfig

/-! ## The counters and the history -/

namespace CycleOutcome

variable {history : List CycleOutcome} {outcome : CycleOutcome}

theorem failures_append : failures (history ++ [outcome]) =
    if outcome.isFailed then failures history + 1 else 0 := by
  unfold failures
  rw [sinceReset_append]
  cases h : outcome.isFailed with
  | true => simp [h]
  | false => simp [h]

theorem sinceClean_append {counted : CycleOutcome} (hcounted : counted ≠ .clean) :
    sinceClean counted (history ++ [outcome]) =
      if outcome = .clean then 0
      else if outcome = counted then sinceClean counted history + 1
      else sinceClean counted history := by
  unfold sinceClean
  rw [sinceReset_append]
  by_cases hclean : outcome = .clean
  · simp [hclean, hcounted.symm]
  · by_cases hsame : outcome = counted
    · simp [hsame, hcounted]
    · simp [hclean, hsame]

/-- A budget that is not used up, or cannot be. -/
def Within (budget : UInt32) (retries : ℕ) : Prop :=
  retries ≤ budget.toNat ∨ budget.toNat + 1 = 2 ^ 32

theorem usedUp_iff {budget : UInt32} {retries : ℕ} (h : Within budget retries) :
    UInt32.ofNat retries + 1 > budget ↔ UsedUp budget (retries + 1) := by
  have hbound := budget.toNat_lt
  rw [gt_iff_lt, UInt32.lt_iff_toNat_lt, UInt32.toNat_add, UInt32.toNat_ofNat']
  simp only [UInt32.toNat_one, UsedUp]
  unfold Within at h
  omega

theorem Within.succ {budget : UInt32} {retries : ℕ} (h : Within budget retries)
    (hused : ¬ UsedUp budget (retries + 1)) : Within budget (retries + 1) := by
  have hbound := budget.toNat_lt
  unfold Within UsedUp at *
  omega

theorem Within.zero (budget : UInt32) : Within budget 0 := Or.inl (Nat.zero_le _)

end CycleOutcome

/-- **The state of a venue says what has happened to it**: its counters are those of its history,
and it is quarantined when the last outcome quarantines it, which no earlier one has done. -/
structure VenueState.Tracks (policy : RemediationPolicy) (history : List CycleOutcome)
    (s : VenueState) : Prop where
  failures : s.snapshotFailureRetries = UInt32.ofNat (CycleOutcome.failures history)
  orderDrifts : s.orderDriftRetries =
    UInt32.ofNat (CycleOutcome.sinceClean .orderDrift history)
  fillGaps : s.fillGapRetries = UInt32.ofNat (CycleOutcome.sinceClean .fillGap history)
  failuresWithin : s.quarantined = false →
    CycleOutcome.Within policy.snapshotFailureRetryBudget (CycleOutcome.failures history)
  orderDriftsWithin : s.quarantined = false →
    CycleOutcome.Within policy.orderDriftRetryBudget (CycleOutcome.sinceClean .orderDrift history)
  fillGapsWithin : s.quarantined = false →
    CycleOutcome.Within policy.fillGapRetryBudget (CycleOutcome.sinceClean .fillGap history)
  quarantined : s.quarantined = true ↔ ∃ before outcome,
    history = before ++ [outcome] ∧ outcome.Quarantines policy before
  first : ∀ before outcome after, history = before ++ outcome :: after →
    outcome.Quarantines policy before → after = []

namespace VenueState.Tracks

variable {policy : RemediationPolicy} {history : List CycleOutcome} {s : VenueState}
  {outcome : CycleOutcome}

/-- A venue that has not been visited. -/
theorem nil (exchange : Exchange) :
    VenueState.Tracks policy [] { exchange, registered := true } where
  failures := rfl
  orderDrifts := rfl
  fillGaps := rfl
  failuresWithin _ := .zero _
  orderDriftsWithin _ := .zero _
  fillGapsWithin _ := .zero _
  quarantined := by simp
  first before outcome after h _ := by simp at h

/-- The counters decide what the history does. -/
theorem halts_iff (h : s.Tracks policy history) (hactive : s.quarantined = false) :
    policy.Halts s outcome ↔ outcome.Quarantines policy history := by
  cases outcome with
  | failed res =>
    rw [RemediationPolicy.Halts, h.failures, CycleOutcome.usedUp_iff (h.failuresWithin hactive)]
    rfl
  | orderDrift =>
    rw [RemediationPolicy.Halts, h.orderDrifts,
      CycleOutcome.usedUp_iff (h.orderDriftsWithin hactive)]
    rfl
  | fillGap =>
    rw [RemediationPolicy.Halts, h.fillGaps, CycleOutcome.usedUp_iff (h.fillGapsWithin hactive)]
    rfl
  | noCanonical | insane | balanceDrift | positionDrift | clean => rfl

/-- **A visit** adds its outcome to the history. -/
theorem visit {v : Visit} (h : s.Tracks policy history) (hactive : s.quarantined = false)
    (hv : v.Finds policy s outcome) : v.slot.state.Tracks policy (history ++ [outcome]) := by
  have hquarantined : v.slot.state.quarantined = true ↔ outcome.Quarantines policy history := by
    rw [hv.quarantined, hactive, h.halts_iff hactive]
    simp
  have hspared : v.slot.state.quarantined = false → ¬ outcome.Quarantines policy history :=
    fun hspared hq => by rw [hquarantined.mpr hq] at hspared; cases hspared
  have hnone : ∀ before o, history = before ++ [o] → ¬ o.Quarantines policy before := by
    intro before o hbefore hq
    have hout := h.quarantined.mpr ⟨before, o, hbefore, hq⟩
    rw [hactive] at hout
    cases hout
  constructor
  · rw [hv.failures, CycleOutcome.failures_append, h.failures]
    cases outcome.isFailed with
    | true => simp
    | false => rfl
  · rw [hv.orderDrifts, CycleOutcome.sinceClean_append (by simp), h.orderDrifts]
    split_ifs <;> simp
  · rw [hv.fillGaps, CycleOutcome.sinceClean_append (by simp), h.fillGaps]
    split_ifs <;> simp
  · intro hactive'
    have hspared := hspared hactive'
    rw [CycleOutcome.failures_append]
    cases outcome with
    | failed res => exact (h.failuresWithin hactive).succ fun hused => hspared (Or.inr hused)
    | _ => exact .zero _
  · intro hactive'
    have hspared := hspared hactive'
    rw [CycleOutcome.sinceClean_append (by simp)]
    cases outcome with
    | orderDrift => exact (h.orderDriftsWithin hactive).succ hspared
    | clean => exact .zero _
    | _ => exact h.orderDriftsWithin hactive
  · intro hactive'
    have hspared := hspared hactive'
    rw [CycleOutcome.sinceClean_append (by simp)]
    cases outcome with
    | fillGap => exact (h.fillGapsWithin hactive).succ hspared
    | clean => exact .zero _
    | _ => exact h.fillGapsWithin hactive
  · rw [hquarantined]
    constructor
    · exact fun hq => ⟨history, outcome, rfl, hq⟩
    · rintro ⟨before, o, hsplit, hq⟩
      obtain ⟨rfl, hlast⟩ := List.append_inj' hsplit rfl
      rwa [List.singleton_inj.mp hlast]
  · intro before o after hsplit hq
    -- an outcome with others behind it would have stopped the visits
    rcases List.eq_nil_or_concat after with rfl | ⟨after', last, rfl⟩
    · rfl
    · exfalso
      rw [List.concat_eq_append, ← List.cons_append, ← List.append_assoc] at hsplit
      obtain ⟨hbefore, -⟩ := List.append_inj' hsplit rfl
      have hafter := h.first before o after' hbefore hq
      subst hafter
      exact hnone before o hbefore hq

end VenueState.Tracks

/-! ## A cycle -/

namespace ServiceConfig

variable {config : ServiceConfig} {slot : VenueSlot} {log : ServiceLog} {slots : List VenueSlot}
  {i k : ℕ} {answers : ℕ → VenueAnswers} {reconnectPhase : Bool}

/-- What a cycle from slot `i` on finds of the venue that is `k` slots further, if it comes to
it. -/
def outcomeAt (config : ServiceConfig) (reconnectPhase : Bool) (answers : ℕ → VenueAnswers) :
    ℕ → List VenueSlot → ℕ → Option CycleOutcome
  | _, [], _ => none
  | i, slot :: _, 0 =>
    if slot.state.quarantined then none
    else some (slot.outcome config (answers i) reconnectPhase)
  | i, slot :: slots, k + 1 =>
    if slot.state.quarantined ∨ slot.outcome config (answers i) reconnectPhase = .clean then
      config.outcomeAt reconnectPhase answers (i + 1) slots k
    else none

/-- What a cycle does to a venue: nothing, or one visit. -/
inductive CycleSlot (config : ServiceConfig) (slot : VenueSlot) :
    Option CycleOutcome → Option VenueSlot → Prop
  | passedOver : CycleSlot config slot none (some slot)
  | visited (outcome : CycleOutcome) (v : Visit) (active : slot.state.quarantined = false)
      (finds : v.Finds config.policy slot.state outcome) :
      CycleSlot config slot (some outcome) (some v.slot)

theorem cycleFrom_slot (hmemory : ∀ j, (answers j).memory = .zero) (hk : slots[k]? = some slot) :
    CycleSlot config slot (config.outcomeAt reconnectPhase answers i slots k)
      (config.cycleFrom reconnectPhase answers i slots log).slots[k]? := by
  induction slots generalizing i k log with
  | nil => cases hk
  | cons first slots ih =>
    rw [cycleFrom]
    have hfinds := @visit_finds config first log i (answers i) reconnectPhase (hmemory i)
    cases hquarantined : first.state.quarantined with
    | true =>
      simp only [if_true]
      cases k with
      | zero =>
        obtain rfl := Option.some.inj hk
        simp only [outcomeAt, hquarantined, if_true]
        exact .passedOver
      | succ k =>
        simp only [outcomeAt, hquarantined, true_or, if_true]
        exact ih hk
    | false =>
      simp only [Bool.false_eq_true, if_false]
      cases k with
      | zero =>
        obtain rfl := Option.some.inj hk
        simp only [outcomeAt, hquarantined, Bool.false_eq_true, if_false]
        cases (config.visit first log i (answers i) reconnectPhase).returned with
        | some res => exact .visited _ _ hquarantined hfinds
        | none => exact .visited _ _ hquarantined hfinds
      | succ k =>
        by_cases hclean : first.outcome config (answers i) reconnectPhase = .clean
        · simp only [outcomeAt, hclean, or_true, if_true, hfinds.returned.mpr hclean]
          exact ih hk
        · obtain ⟨res, hres⟩ := Option.ne_none_iff_exists'.mp (mt hfinds.returned.mp hclean)
          simp only [outcomeAt, hquarantined, hclean, Bool.false_eq_true, or_self, if_false, hres]
          rw [List.getElem?_cons_succ, show slots[k]? = some slot from hk]
          exact .passedOver

/-- A visit calls its own connector only. -/
theorem eq_of_visit_mem {answers : VenueAnswers} {j : ℕ} {call : CycleCall}
    (hcall : call = .reconcile j ∨ call = .fetch j)
    (h : call ∈ (config.visit slot log i answers reconnectPhase).calls) : j = i := by
  have hvisit : call.isVisit = true := by rcases hcall with rfl | rfl <;> rfl
  have hown : call ∈ due slot i reconnectPhase ++ [.fetch i, .check i] := by
    cases visit_end config slot log i answers reconnectPhase with
    | unprepared _ does => exact List.mem_append_left _ ((does.mem hvisit).mp h)
    | unfetched _ _ does | uncompared _ _ _ does =>
      have hmem := (does.mem hvisit).mp h
      rw [List.mem_append, List.mem_singleton] at hmem
      rcases hmem with hmem | rfl
      · exact List.mem_append_left _ hmem
      · exact List.mem_append_right _ List.mem_cons_self
    | mismatched _ _ _ _ does | passed _ does => exact (does.mem hvisit).mp h
  rcases List.mem_append.mp hown with hmem | hmem
  · have hreconcile := mem_due hmem
    rcases hcall with rfl | rfl <;> simp_all
  · rcases hcall with rfl | rfl <;> simp_all

/-- A cycle calls the connectors from its first slot on. -/
theorem le_of_cycle_mem {j : ℕ} {call : CycleCall} (hcall : call = .reconcile j ∨ call = .fetch j)
    (h : call ∈ (config.cycleFrom reconnectPhase answers i slots log).calls) : i ≤ j := by
  induction slots generalizing i log with
  | nil => cases h
  | cons first slots ih =>
    rw [cycleFrom] at h
    cases hfirst : first.state.quarantined with
    | true =>
      simp only [hfirst, if_true] at h
      exact (Nat.le_succ i).trans (ih h)
    | false =>
      simp only [hfirst, Bool.false_eq_true, if_false] at h
      cases hreturned : (config.visit first log i (answers i) reconnectPhase).returned with
      | some res =>
        simp only [hreturned] at h
        exact (eq_of_visit_mem hcall h).ge
      | none =>
        simp only [hreturned] at h
        rcases List.mem_append.mp h with hmem | hmem
        · exact (eq_of_visit_mem hcall hmem).ge
        · exact (Nat.le_succ i).trans (ih hmem)

/-- **A cycle leaves a quarantined venue alone.** -/
theorem not_called_of_quarantined (hk : slots[k]? = some slot)
    (hquarantined : slot.state.quarantined = true) {j : ℕ} {call : CycleCall}
    (hcall : call = .reconcile j ∨ call = .fetch j)
    (h : call ∈ (config.cycleFrom reconnectPhase answers i slots log).calls) : j ≠ i + k := by
  induction slots generalizing i k log with
  | nil => cases hk
  | cons first slots ih =>
    rw [cycleFrom] at h
    cases hfirst : first.state.quarantined with
    | true =>
      simp only [hfirst, if_true] at h
      cases k with
      | zero =>
        have hlater := le_of_cycle_mem hcall h
        omega
      | succ k =>
        have hbehind := ih hk h
        omega
    | false =>
      simp only [hfirst, Bool.false_eq_true, if_false] at h
      cases k with
      | zero =>
        obtain rfl := Option.some.inj hk
        rw [hquarantined] at hfirst
        cases hfirst
      | succ k =>
        cases hreturned : (config.visit first log i (answers i) reconnectPhase).returned with
        | some res =>
          simp only [hreturned] at h
          have hown := eq_of_visit_mem hcall h
          omega
        | none =>
          simp only [hreturned] at h
          rcases List.mem_append.mp h with hmem | hmem
          · have hown := eq_of_visit_mem hcall hmem
            omega
          · have hbehind := ih hk hmem
            omega

end ServiceConfig

/-! ## Runs of the service -/

/-- A cycle finds zero in the memory of its decisions. -/
def ServiceCall.Zeroed : ServiceCall → Prop
  | .runReconciliationCycle _ answers => ∀ i, (answers i).memory = .zero
  | _ => True

namespace ReconciliationService

variable {s : ReconciliationService} {k : ℕ} {slot : VenueSlot}

theorem length_noSlots_le : ([] : List VenueSlot).length ≤ 4 := by simp

/-- A service without connectors. -/
def ofConfig (config : ServiceConfig) (log : ServiceLog) : ReconciliationService where
  config := config
  slots := []
  log := log
  bound := length_noSlots_le

/-- What a call finds of the venue in slot `k`. -/
def outcomeAt (s : ReconciliationService) (k : ℕ) : ServiceCall → Option CycleOutcome
  | .runReconciliationCycle reconnectPhase answers =>
    s.config.outcomeAt reconnectPhase answers 0 s.slots k
  | _ => none

/-- **The outcomes of the venue in slot `k`** along a run. -/
def history (k : ℕ) : ReconciliationService → List ServiceCall → List CycleOutcome
  | _, [] => []
  | s, c :: calls => (s.outcomeAt k c).toList ++ history k (s.call c) calls

/-- The states of the venues say what has happened to them. -/
structure Tracks (s : ReconciliationService) (histories : ℕ → List CycleOutcome) : Prop where
  tracked : ∀ (k : ℕ) (slot : VenueSlot), s.slots[k]? = some slot →
    slot.state.Tracks s.config.policy (histories k)
  unregistered : ∀ k, s.slots.length ≤ k → histories k = []

theorem call_config (c : ServiceCall) : (s.call c).config = s.config := by
  cases c with
  | registerConnector connector exchange =>
    simp only [call, registerConnector]
    split_ifs <;> rfl
  | setCanonicalSnapshot exchange snapshot | setCanonicalSnapshotFetcher exchange hasFetcher
    | markReconnectRequired exchange =>
    simp only [call, setCanonicalSnapshot, setCanonicalSnapshotFetcher, markReconnectRequired,
      modifySlot]
    cases s.indexFor exchange <;> rfl
  | bindPositionLedger ledger => rfl
  | runReconciliationCycle reconnectPhase answers => rfl

theorem tracks_ofConfig (config : ServiceConfig) (log : ServiceLog) :
    (ofConfig config log).Tracks fun _ => [] where
  tracked k slot hk := by cases hk
  unregistered _ _ := rfl

theorem tracks_registerConnector {histories : ℕ → List CycleOutcome} (h : s.Tracks histories)
    (connector : ℕ) (exchange : Exchange) :
    (s.registerConnector connector exchange).1.Tracks histories := by
  unfold registerConnector
  split_ifs
  · exact h
  · exact h
  · refine ⟨fun k slot hk => ?_, fun k hk => h.unregistered k ?_⟩
    · rcases Nat.lt_or_ge k s.slots.length with hlt | hge
      · rw [List.getElem?_append_left hlt] at hk
        exact h.tracked k slot hk
      · -- the new venue has no history
        rw [List.getElem?_append_right hge, List.getElem?_singleton] at hk
        split_ifs at hk
        rw [← Option.some.inj hk, h.unregistered k hge]
        exact VenueState.Tracks.nil exchange
    · simp only [List.length_append, List.length_singleton] at hk
      omega

theorem tracks_modifySlot {histories : ℕ → List CycleOutcome} (h : s.Tracks histories)
    (exchange : Exchange) {f : VenueSlot → VenueSlot} (hf : ∀ slot, (f slot).state = slot.state) :
    (s.modifySlot exchange f).1.Tracks histories := by
  unfold modifySlot
  cases s.indexFor exchange with
  | none => exact h
  | some i =>
    refine ⟨fun k slot hk => ?_, fun k hk =>
      h.unregistered k ((List.length_modify ..).symm.trans_le hk)⟩
    rw [List.getElem?_modify] at hk
    cases hslot : s.slots[k]? with
    | none => rw [hslot] at hk; cases hk
    | some slot' =>
      rw [hslot] at hk
      obtain rfl := Option.some.inj hk
      have htracks := h.tracked k slot' hslot
      split_ifs
      · rwa [hf]
      · exact htracks

theorem outcomeAt_of_le {config : ServiceConfig} {reconnectPhase : Bool}
    {answers : ℕ → VenueAnswers} {i : ℕ} {slots : List VenueSlot} (h : slots.length ≤ k) :
    config.outcomeAt reconnectPhase answers i slots k = none := by
  induction slots generalizing i k with
  | nil => cases k <;> rfl
  | cons slot slots ih =>
    cases k with
    | zero => cases h
    | succ k =>
      rw [ServiceConfig.outcomeAt, ih (Nat.le_of_succ_le_succ h), ite_self]

/-- **A call** adds what it finds of each venue to its history. -/
theorem tracks_call {histories : ℕ → List CycleOutcome} (h : s.Tracks histories) (c : ServiceCall)
    (hzero : c.Zeroed) : (s.call c).Tracks fun k => histories k ++ (s.outcomeAt k c).toList := by
  cases c with
  | registerConnector connector exchange =>
    simp only [outcomeAt, Option.toList_none, List.append_nil]
    exact tracks_registerConnector h connector exchange
  | setCanonicalSnapshot exchange snapshot | setCanonicalSnapshotFetcher exchange hasFetcher
    | markReconnectRequired exchange =>
    simp only [outcomeAt, Option.toList_none, List.append_nil]
    exact tracks_modifySlot h exchange fun _ => rfl
  | bindPositionLedger ledger =>
    simp only [outcomeAt, Option.toList_none, List.append_nil]
    exact ⟨h.tracked, h.unregistered⟩
  | runReconciliationCycle reconnectPhase answers =>
    have hlength : (s.cycle reconnectPhase answers).slots.length = s.slots.length :=
      length_cycleFrom
    refine ⟨fun k slot' hk => ?_, fun k hk => ?_⟩
    · obtain ⟨hlt, -⟩ := List.getElem?_eq_some_iff.mp hk
      have hslot := List.getElem?_eq_getElem (hlength.symm.trans_gt hlt)
      have htracks := h.tracked k _ hslot
      have hcycle := @ServiceConfig.cycleFrom_slot s.config _ s.log _ 0 _ answers reconnectPhase
        hzero hslot
      generalize houtcome : s.config.outcomeAt reconnectPhase answers 0 s.slots k =
        outcome at hcycle
      simp only [outcomeAt, houtcome]
      rw [show (s.config.cycleFrom reconnectPhase answers 0 s.slots s.log).slots[k]? = some slot'
        from hk] at hcycle
      cases hcycle with
      | passedOver =>
        rw [Option.toList_none, List.append_nil]
        exact htracks
      | visited outcome v hactive hfinds => exact htracks.visit hactive hfinds
    · have hle : s.slots.length ≤ k := hlength.symm.trans_le hk
      simp only [outcomeAt, outcomeAt_of_le hle, h.unregistered k hle, Option.toList_none,
        List.append_nil]

/-- **A run** has the outcomes of its venues as their histories. -/
theorem tracks_run {histories : ℕ → List CycleOutcome} (h : s.Tracks histories)
    {calls : List ServiceCall} (hzero : ∀ c ∈ calls, c.Zeroed) :
    (calls.foldl call s).Tracks fun k => histories k ++ history k s calls := by
  induction calls generalizing s histories with
  | nil =>
    simp only [history, List.append_nil]
    exact h
  | cons c calls ih =>
    simp only [history, ← List.append_assoc]
    exact ih (tracks_call h c (hzero c List.mem_cons_self)) fun c' hc' =>
      hzero c' (List.mem_cons_of_mem _ hc')

theorem quarantined_modifySlot (exchange : Exchange) {f : VenueSlot → VenueSlot}
    (hf : ∀ slot, (f slot).state = slot.state) (hk : s.slots[k]? = some slot)
    (hquarantined : slot.state.quarantined = true) :
    ∃ slot', (s.modifySlot exchange f).1.slots[k]? = some slot' ∧
      slot'.state.quarantined = true := by
  unfold modifySlot
  cases s.indexFor exchange with
  | none => exact ⟨slot, hk, hquarantined⟩
  | some i =>
    simp only [List.getElem?_modify, hk]
    by_cases hi : i = k
    · exact ⟨f slot, by simp [hi], by rw [hf, hquarantined]⟩
    · exact ⟨slot, by simp [hi], hquarantined⟩

/-- **Once quarantined, a venue stays so.** -/
theorem quarantined_call {c : ServiceCall} (hzero : c.Zeroed) (hk : s.slots[k]? = some slot)
    (hquarantined : slot.state.quarantined = true) :
    ∃ slot', (s.call c).slots[k]? = some slot' ∧ slot'.state.quarantined = true := by
  cases c with
  | registerConnector connector exchange =>
    refine ⟨slot, ?_, hquarantined⟩
    simp only [call, registerConnector]
    split_ifs
    · exact hk
    · exact hk
    · exact (List.getElem?_append_left (List.getElem?_eq_some_iff.mp hk).1).trans hk
  | setCanonicalSnapshot exchange snapshot | setCanonicalSnapshotFetcher exchange hasFetcher
    | markReconnectRequired exchange =>
    exact quarantined_modifySlot exchange (fun _ => rfl) hk hquarantined
  | bindPositionLedger ledger => exact ⟨slot, hk, hquarantined⟩
  | runReconciliationCycle reconnectPhase answers =>
    have hcycle := @ServiceConfig.cycleFrom_slot s.config _ s.log _ 0 _ answers reconnectPhase
      hzero hk
    generalize houtcome : s.config.outcomeAt reconnectPhase answers 0 s.slots k = outcome at hcycle
    generalize hafter : (s.config.cycleFrom reconnectPhase answers 0 s.slots s.log).slots[k]? =
      after at hcycle
    cases hcycle with
    | passedOver => exact ⟨slot, hafter, hquarantined⟩
    | visited outcome v hactive _ =>
      rw [hquarantined] at hactive
      cases hactive

/-- A call makes a cycle call the connector in slot `k`. -/
def CallsConnector (k : ℕ) (s : ReconciliationService) : ServiceCall → Prop
  | .runReconciliationCycle reconnectPhase answers =>
    .reconcile k ∈ (s.cycle reconnectPhase answers).calls ∨
      .fetch k ∈ (s.cycle reconnectPhase answers).calls
  | _ => False

theorem not_callsConnector (hk : s.slots[k]? = some slot)
    (hquarantined : slot.state.quarantined = true) (c : ServiceCall) :
    ¬ s.CallsConnector k c := by
  cases c with
  | runReconciliationCycle reconnectPhase answers =>
    rintro (h | h)
    · exact ServiceConfig.not_called_of_quarantined hk hquarantined (Or.inl rfl) h
        (Nat.zero_add k).symm
    · exact ServiceConfig.not_called_of_quarantined hk hquarantined (Or.inr rfl) h
        (Nat.zero_add k).symm
  | _ => exact id

/-- A venue that is quarantined is out for good. -/
theorem quarantined_forever {later : List ServiceCall} (hzero : ∀ c ∈ later, c.Zeroed)
    (hk : s.slots[k]? = some slot) (hquarantined : slot.state.quarantined = true) :
    (∃ slot', (later.foldl call s).slots[k]? = some slot' ∧ slot'.state.quarantined = true) ∧
      AllSteps call (fun s c => ¬ s.CallsConnector k c) s later := by
  induction later generalizing s slot with
  | nil => exact ⟨⟨slot, hk, hquarantined⟩, trivial⟩
  | cons c later ih =>
    obtain ⟨slot', hk', hquarantined'⟩ :=
      quarantined_call (hzero c List.mem_cons_self) hk hquarantined
    obtain ⟨hstays, hsteps⟩ :=
      ih (fun c' hc' => hzero c' (List.mem_cons_of_mem _ hc')) hk' hquarantined'
    exact ⟨hstays, not_callsConnector hk hquarantined c, hsteps⟩

/-- **When a venue is quarantined**: exactly when the last outcome of its visits quarantines it,
which no outcome before it has done. It stays so, and no cycle calls its connector again. -/
theorem quarantined_run (config : ServiceConfig) (log : ServiceLog) (calls : List ServiceCall)
    (hzero : ∀ c ∈ calls, c.Zeroed) (k : ℕ) (slot : VenueSlot)
    (hk : (calls.foldl call (ofConfig config log)).slots[k]? = some slot) :
    (slot.state.quarantined = true ↔ ∃ before outcome,
      history k (ofConfig config log) calls = before ++ [outcome] ∧
        outcome.Quarantines config.policy before) ∧
    (∀ before outcome after, history k (ofConfig config log) calls = before ++ outcome :: after →
      outcome.Quarantines config.policy before → after = []) ∧
    (slot.state.quarantined = true → ∀ later : List ServiceCall, (∀ c ∈ later, c.Zeroed) →
      (∃ slot', ((calls ++ later).foldl call (ofConfig config log)).slots[k]? = some slot' ∧
        slot'.state.quarantined = true) ∧
      AllSteps call (fun s c => ¬ s.CallsConnector k c) (calls.foldl call (ofConfig config log))
        later) := by
  have hpolicy : (calls.foldl call (ofConfig config log)).config = config :=
    foldl_induction (P := fun s : ReconciliationService => s.config = config)
      (fun s c h (_ : True) => (call_config c).trans h) rfl fun _ _ => trivial
  have htracks := (tracks_run (tracks_ofConfig config log) hzero).tracked k slot hk
  rw [hpolicy] at htracks
  refine ⟨htracks.quarantined, htracks.first, fun hquarantined later hlater => ?_⟩
  rw [List.foldl_append]
  exact quarantined_forever hlater hk hquarantined

/-- Four fetches that fail, against a budget of three. -/
def fourFailures : List ServiceCall :=
  .registerConnector 0 .binance ::
    List.replicate 4 (.runReconciliationCycle false firstFails)

/-- The fourth one quarantines the venue. -/
theorem quarantined_fourFailures :
    ∃ slot, (fourFailures.foldl call (ofConfig new.config new.log)).slots[0]? = some slot ∧
      slot.state.quarantined = true := by
  refine ⟨_, rfl, (quarantined_run new.config new.log fourFailures ?_ 0 _ rfl).1.mpr ?_⟩
  · intro c hc
    rcases List.mem_cons.mp hc with rfl | hc
    · trivial
    · rw [List.eq_of_mem_replicate hc]
      exact fun _ => rfl
  · exact ⟨List.replicate 3 (.failed .errorRestFailure), .failed .errorRestFailure, by decide,
      Or.inr (by decide)⟩

/-! ## The largest budget -/

/-- A service with one connector, the largest budget for its failures, and no quarantine. -/
structure Unlimited (s : ReconciliationService) : Prop where
  budget : s.config.policy.snapshotFailureRetryBudget = 4294967295
  active : ∃ slot, s.slots = [slot] ∧ slot.state.quarantined = false

/-- A fetch that fails does not use up the largest budget. -/
theorem Unlimited.cycle (h : s.Unlimited) :
    s.outcomeAt 0 (.runReconciliationCycle false firstFails) = some (.failed .errorRestFailure) ∧
      (s.call (.runReconciliationCycle false firstFails)).Unlimited := by
  obtain ⟨hbudget, slot, hslots, hactive⟩ := h
  have hfinds : Visit.Finds s.config.policy slot.state (.failed .errorRestFailure)
      (s.config.visit slot s.log 0 (firstFails 0) false) :=
    @ServiceConfig.visit_finds s.config slot s.log 0 (firstFails 0) false rfl
  have hspared : ¬ s.config.policy.Halts slot.state (.failed .errorRestFailure) := by
    rintro (h | h)
    · cases h
    · have hbound := (slot.state.snapshotFailureRetries + 1).toNat_lt
      rw [hbudget, gt_iff_lt, UInt32.lt_iff_toNat_lt] at h
      exact absurd h (by change ¬ 4294967295 < _; omega)
  obtain ⟨res, hres⟩ := Option.ne_none_iff_exists'.mp (mt hfinds.returned.mp (by simp))
  have hcycle : (s.cycle false firstFails).slots =
      [(s.config.visit slot s.log 0 (firstFails 0) false).slot] := by
    rw [ReconciliationService.cycle, hslots, ServiceConfig.cycleFrom]
    simp only [hactive, Bool.false_eq_true, if_false, hres]
  refine ⟨?_, hbudget, _, hcycle, ?_⟩
  · simp only [outcomeAt, hslots, ServiceConfig.outcomeAt, hactive, Bool.false_eq_true, if_false]
    rfl
  · rw [Bool.eq_false_iff, ne_eq, hfinds.quarantined, hactive]
    simpa using hspared

theorem Unlimited.run (h : s.Unlimited) (n : ℕ) :
    history 0 s (List.replicate n (.runReconciliationCycle false firstFails)) =
        List.replicate n (.failed .errorRestFailure) ∧
      ((List.replicate n (.runReconciliationCycle false firstFails)).foldl call s).Unlimited := by
  induction n generalizing s with
  | zero => exact ⟨rfl, h⟩
  | succ n ih =>
    obtain ⟨houtcome, hnext⟩ := h.cycle
    obtain ⟨hhistory, hrun⟩ := ih hnext
    rw [List.replicate_succ, history, houtcome, hhistory]
    exact ⟨rfl, hrun⟩

theorem failures_replicate (res : ConnectorResult) (n : ℕ) :
    CycleOutcome.failures (List.replicate n (.failed res)) = n := by
  induction n with
  | zero => rfl
  | succ n ih =>
    rw [List.replicate_succ', CycleOutcome.failures_append, ih]
    rfl

/-- The service at the start of those runs. -/
def unlimited : ReconciliationService :=
  ofConfig ⟨new.config.thresholds, ⟨3, 3, 4294967295⟩⟩ new.log

theorem unlimited_run (n : ℕ) :
    CycleOutcome.failures (history 0 unlimited (.registerConnector 0 .binance ::
        List.replicate n (.runReconciliationCycle false firstFails))) = n ∧
      ∃ slot, ((ServiceCall.registerConnector 0 .binance ::
        List.replicate n (.runReconciliationCycle false firstFails)).foldl call
          unlimited).slots[0]? = some slot ∧ slot.state.quarantined = false := by
  have hstart : (unlimited.call (.registerConnector 0 .binance)).Unlimited := ⟨rfl, _, rfl, rfl⟩
  obtain ⟨hhistory, -, slot, hslots, hactive⟩ := hstart.run n
  refine ⟨?_, slot, ?_, hactive⟩
  · rw [history, hhistory]
    exact failures_replicate _ n
  · rw [List.foldl_cons, hslots]
    rfl

/-- **The largest budget is never used up**: one failure more than it allows, and the venue is not
quarantined. -/
theorem unlimited_not_quarantined :
    CycleOutcome.failures (history 0 unlimited (.registerConnector 0 .binance ::
        List.replicate (4294967295 + 1) (.runReconciliationCycle false firstFails))) =
          unlimited.config.policy.snapshotFailureRetryBudget.toNat + 1 ∧
      ∃ slot, ((ServiceCall.registerConnector 0 .binance ::
        List.replicate (4294967295 + 1) (.runReconciliationCycle false firstFails)).foldl call
          unlimited).slots[0]? = some slot ∧ slot.state.quarantined = false :=
  ⟨(unlimited_run (4294967295 + 1)).1, (unlimited_run (4294967295 + 1)).2⟩

end ReconciliationService

end TradingInfrastructure
