import TradingInfrastructure.Foundations.Runs
import TradingInfrastructure.Reconciliation.Quarantine

/-!
# What reconciliation reads of memory

A decision of the service has no initializer and is filled in where a check fails. A snapshot that
passes them all is returned with the flag that memory holds, and what a failing check does not
assign is read when the decision is applied. The members that count the connectors and the
incidents, and the totals of a snapshot of the ledger, have no initializer either. Two runs whose
memories agree on these where they are read have the same results, quarantines, incidents and ledger
snapshots (`outputs_congr_service`).
-/

namespace TradingInfrastructure

/-! ## What a check finds -/

/-- What the checks find of a snapshot, whatever memory holds. -/
inductive Finding
  | nothing
  | insane (reason : String)
  | orderDrift (mismatchClass : MismatchClass) (reason : String)
  | fillGap
  | halt (mismatchClass : MismatchClass) (reason : String)

namespace DriftThresholds

variable (t : DriftThresholds)

/-- The first row that has something wrong with it. -/
def insanity (snapshot : ReconciliationSnapshot) : Option String :=
  (snapshot.openOrders.items.findSome? t.orderSanity).or
    ((snapshot.balances.items.findSome? t.balanceSanity).or
      ((snapshot.positions.items.findSome? t.positionSanity).or
        (snapshot.fills.items.findSome? t.fillSanity)))

/-- What a comparison finds of a sane snapshot. -/
def drifted (venue canonical : ReconciliationSnapshot) : Finding :=
  match canonical.openOrders.items.findSome? (t.orderDrift venue) with
  | some (mismatchClass, reason) => .orderDrift mismatchClass reason
  | none =>
    if venue.openOrders.items.any fun order => (canonical.findOrder order).isNone then
      .orderDrift .missingOrder "missing_order"
    else if t.fillGapDetected venue canonical then .fillGap
    else if canonical.balances.items.any (t.balanceDrift venue) then
      .halt .balanceDrift "balance_drift"
    else if canonical.positions.items.any (t.positionDrift venue) then
      .halt .positionDrift "position_drift"
    else .nothing

/-- What the checks find. -/
def find (snapshot : ReconciliationSnapshot) (canonical : Option ReconciliationSnapshot) :
    Finding :=
  match t.insanity snapshot with
  | some reason => .insane reason
  | none =>
    match canonical with
    | some canonical => t.drifted snapshot canonical
    | none => .nothing

end DriftThresholds

namespace Finding

/-- The decision that a finding makes of what memory holds. -/
def decision (out : DriftDecision) : Finding → DriftDecision
  | .nothing => out
  | .insane reason => out.insane reason
  | .orderDrift mismatchClass reason => out.classifyOrderDrift mismatchClass reason
  | .fillGap => out.classifyFillGap
  | .halt mismatchClass reason =>
    out.mismatchOf mismatchClass .riskHaltRecommended .critical reason true

/-- The memories are what is read of the finding: no flag where the snapshot is sane, the same
retry count where the finding quarantines, and else the same quarantine, unless the retries are used
up. -/
def SameReads (policy : RemediationPolicy) (state : VenueState) (m n : DriftDecision) :
    Finding → Prop
  | .nothing => m.mismatch = false ∧ n.mismatch = false
  | .insane _ => m.retryCount = n.retryCount
  | .orderDrift _ _ => m.mismatch = false ∧ n.mismatch = false ∧
    (m.quarantine = n.quarantine ∨ state.orderDriftRetries + 1 > policy.orderDriftRetryBudget)
  | .fillGap => m.mismatch = false ∧ n.mismatch = false ∧
    (m.quarantine = n.quarantine ∨ state.fillGapRetries + 1 > policy.fillGapRetryBudget)
  | .halt _ _ => m.mismatch = false ∧ n.mismatch = false ∧ m.retryCount = n.retryCount

end Finding

namespace DriftThresholds

variable {t : DriftThresholds} {out : DriftDecision} {snapshot venue canonical :
  ReconciliationSnapshot}

theorem evaluateSnapshotSanity_eq : t.evaluateSnapshotSanity out snapshot =
    match t.insanity snapshot with
    | some reason => out.insane reason
    | none => out := by
  unfold evaluateSnapshotSanity insanity
  cases snapshot.openOrders.items.findSome? t.orderSanity with
  | some reason => rfl
  | none =>
  cases snapshot.balances.items.findSome? t.balanceSanity with
  | some reason => rfl
  | none =>
  cases snapshot.positions.items.findSome? t.positionSanity with
  | some reason => rfl
  | none => rfl

/-- A sane snapshot is compared where memory holds no flag. -/
theorem evaluateDrift_eq (hsane : t.insanity venue = none) (hflag : out.mismatch = false) :
    t.evaluateDrift out venue canonical = (t.drifted venue canonical).decision out := by
  unfold evaluateDrift drifted
  rw [evaluateSnapshotSanity_eq, hsane]
  simp only [hflag, if_false, Bool.false_eq_true]
  cases canonical.openOrders.items.findSome? (t.orderDrift venue) with
  | some found => rfl
  | none =>
    simp only
    split_ifs <;> rfl

/-- **A decision** is what is found, in what memory holds. -/
theorem evaluate_eq (canonical : Option ReconciliationSnapshot)
    (hflag : t.insanity snapshot = none → out.mismatch = false) :
    t.evaluate out snapshot canonical = (t.find snapshot canonical).decision out := by
  have hsanity := @evaluateSnapshotSanity_eq t out snapshot
  unfold find
  cases hsane : t.insanity snapshot with
  | some reason =>
    rw [hsane] at hsanity
    cases canonical with
    | none => exact hsanity
    | some canonical =>
      rw [evaluate, evaluateDrift, hsanity]
      rfl
  | none =>
    rw [hsane] at hsanity
    cases canonical with
    | none => exact hsanity
    | some canonical => exact evaluateDrift_eq hsane (hflag hsane)

end DriftThresholds

/-! ## What the application of a decision reads -/

namespace DriftDecision

/-- The class has a retry count of its own. -/
def Counted (mismatchClass : MismatchClass) : Prop :=
  mismatchClass = .fillGap ∨ mismatchClass = .missingOrder ∨ mismatchClass = .qtyDrift

/-- The retries that the decision counts are used up. -/
def UsesUp (policy : RemediationPolicy) (state : VenueState) (mismatchClass : MismatchClass) :
    Prop :=
  mismatchClass = .fillGap ∧ state.fillGapRetries + 1 > policy.fillGapRetryBudget ∨
    (mismatchClass = .missingOrder ∨ mismatchClass = .qtyDrift) ∧
      state.orderDriftRetries + 1 > policy.orderDriftRetryBudget

/-- The decisions agree on what is read when they are applied. -/
structure SameEffect (policy : RemediationPolicy) (state : VenueState) (d e : DriftDecision) :
    Prop where
  mismatchClass : d.mismatchClass = e.mismatchClass
  action : d.action = e.action
  severity : d.severity = e.severity
  reason : d.reason = e.reason
  retryCount : Counted d.mismatchClass ∨ d.retryCount = e.retryCount
  quarantine : d.action = .quarantineVenue ∨ d.action = .riskHaltRecommended ∨
    UsesUp policy state d.mismatchClass ∨ d.quarantine = e.quarantine

variable {policy : RemediationPolicy} {state : VenueState} {d e m n : DriftDecision}

/-- A successful fetch leaves the retries that the effect depends on. -/
theorem SameEffect.fetched (h : SameEffect policy state d e) :
    SameEffect policy { state with snapshotFailureRetries := 0 } d e :=
  ⟨h.mismatchClass, h.action, h.severity, h.reason, h.retryCount, h.quarantine⟩

theorem sameEffect_insane (h : m.retryCount = n.retryCount) (reason : String) :
    SameEffect policy state (m.insane reason) (n.insane reason) :=
  ⟨rfl, rfl, rfl, rfl, .inr h, .inl rfl⟩

theorem sameEffect_halt (h : m.retryCount = n.retryCount) (mismatchClass : MismatchClass)
    (reason : String) :
    SameEffect policy state
      (m.mismatchOf mismatchClass .riskHaltRecommended .critical reason true)
      (n.mismatchOf mismatchClass .riskHaltRecommended .critical reason true) :=
  ⟨rfl, rfl, rfl, rfl, .inr h, .inr (.inl rfl)⟩

theorem sameEffect_orderDrift {mismatchClass : MismatchClass}
    (hclass : mismatchClass = .missingOrder ∨ mismatchClass = .qtyDrift)
    (h : m.quarantine = n.quarantine ∨
      state.orderDriftRetries + 1 > policy.orderDriftRetryBudget) (reason : String) :
    SameEffect policy state (m.classifyOrderDrift mismatchClass reason)
      (n.classifyOrderDrift mismatchClass reason) := by
  refine ⟨rfl, rfl, rfl, rfl, .inl (.inr hclass), .inr (.inr ?_)⟩
  rcases h with h | h
  · exact .inr h
  · exact .inl (.inr ⟨hclass, h⟩)

theorem sameEffect_fillGap (h : m.quarantine = n.quarantine ∨
    state.fillGapRetries + 1 > policy.fillGapRetryBudget) :
    SameEffect policy state m.classifyFillGap n.classifyFillGap := by
  refine ⟨rfl, rfl, rfl, rfl, .inl (.inl rfl), .inr (.inr ?_)⟩
  rcases h with h | h
  · exact .inr h
  · exact .inl (.inl ⟨rfl, h⟩)

/-- **A finding** has the same effect where the memories agree on what is read. -/
theorem sameEffect_decision {finding : Finding}
    (hclass : ∀ mismatchClass reason, finding = .orderDrift mismatchClass reason →
      mismatchClass = .missingOrder ∨ mismatchClass = .qtyDrift)
    (h : finding.SameReads policy state m n) :
    SameEffect policy state (finding.decision m) (finding.decision n) ∨ finding = .nothing := by
  cases finding with
  | nothing => exact .inr rfl
  | insane reason => exact .inl (sameEffect_insane h reason)
  | orderDrift mismatchClass reason =>
    exact .inl (sameEffect_orderDrift (hclass _ _ rfl) h.2.2 reason)
  | fillGap => exact .inl (sameEffect_fillGap h.2.2)
  | halt mismatchClass reason => exact .inl (sameEffect_halt h.2.2 mismatchClass reason)

/-- Once the retries are counted: the decisions agree on what is recorded, and both quarantine or
neither does. -/
structure AppliesAs (d e : DriftDecision) : Prop where
  mismatchClass : d.mismatchClass = e.mismatchClass
  action : d.action = e.action
  severity : d.severity = e.severity
  reason : d.reason = e.reason
  retryCount : d.retryCount = e.retryCount
  quarantine : d.action = .quarantineVenue ∨ d.action = .riskHaltRecommended ∨
    d.quarantine = e.quarantine

/-- **The retries** make the same of decisions with the same effect. -/
theorem countRetries_congr (h : SameEffect policy state d e) :
    (policy.countRetries state d).1 = (policy.countRetries state e).1 ∧
      AppliesAs (policy.countRetries state d).2 (policy.countRetries state e).2 := by
  obtain ⟨mismatch, mismatchClass, action, severity, retryCount, quarantine, reason⟩ := d
  obtain ⟨mismatch', mismatchClass', action', severity', retryCount', quarantine', reason'⟩ := e
  obtain ⟨hclass, haction, hseverity, hreason, hretry, hquarantine⟩ := h
  simp only at hclass haction hseverity hreason hretry hquarantine
  subst hclass haction hseverity hreason
  cases mismatchClass with
  | none | balanceDrift | positionDrift =>
    simp only [Counted, UsesUp, reduceCtorEq, false_and, or_self, false_or] at hretry hquarantine
    exact ⟨rfl, rfl, rfl, rfl, rfl, hretry, hquarantine⟩
  | missingOrder | qtyDrift =>
    simp only [RemediationPolicy.countRetries]
    by_cases hused : state.orderDriftRetries + 1 > policy.orderDriftRetryBudget
    · rw [if_pos hused, if_pos hused]
      exact ⟨trivial, rfl, rfl, rfl, rfl, rfl, .inr (.inl rfl)⟩
    · rw [if_neg hused, if_neg hused]
      simp only [UsesUp, reduceCtorEq, hused, false_and, and_false, or_self, false_or]
        at hquarantine
      exact ⟨trivial, rfl, rfl, rfl, rfl, rfl, hquarantine⟩
  | fillGap =>
    simp only [RemediationPolicy.countRetries]
    by_cases hused : state.fillGapRetries + 1 > policy.fillGapRetryBudget
    · rw [if_pos hused, if_pos hused]
      exact ⟨rfl, rfl, rfl, rfl, rfl, rfl, .inr (.inl rfl)⟩
    · rw [if_neg hused, if_neg hused]
      simp only [UsesUp, reduceCtorEq, hused, false_and, and_false, or_self, false_or]
        at hquarantine
      exact ⟨rfl, rfl, rfl, rfl, rfl, rfl, hquarantine⟩

theorem AppliesAs.quarantines (h : AppliesAs d e) :
    (d.quarantine || d.action == .quarantineVenue || d.action == .riskHaltRecommended) =
      (e.quarantine || e.action == .quarantineVenue || e.action == .riskHaltRecommended) := by
  rcases h.quarantine with haction | haction | hquarantine
  · rw [← h.action, haction]
    simp
  · rw [← h.action, haction]
    simp
  · rw [hquarantine, h.action]

end DriftDecision

/-! ## Two services -/

/-- Logs that differ only in the number of incidents dropped. -/
structure ServiceLog.Alike (l l' : ServiceLog) : Prop where
  incidentTrail : l.incidentTrail = l'.incidentTrail
  incidentCount : l.incidentCount = l'.incidentCount
  positionLedger : l.positionLedger = l'.positionLedger

/-- Visits that differ only in the number of incidents dropped. -/
structure Visit.Alike (v v' : Visit) : Prop where
  slot : v.slot = v'.slot
  log : v.log.Alike v'.log
  calls : v.calls = v'.calls
  returned : v.returned = v'.returned

/-- The answers to a visit with another memory. -/
def VenueAnswers.withMemory (answers : VenueAnswers) (memory : DriftDecision) : VenueAnswers :=
  { answers with memory }

theorem ServiceLog.Alike.recordIncident {l l' : ServiceLog} (h : l.Alike l') {d e : DriftDecision}
    (hde : DriftDecision.AppliesAs d e) (exchange : Exchange) (reconnectPhase : Bool) (now : ℤ) :
    (l.recordIncident exchange d reconnectPhase now).Alike
      (l'.recordIncident exchange e reconnectPhase now) := by
  unfold ServiceLog.recordIncident
  rw [h.incidentCount]
  split_ifs
  · exact ⟨h.incidentTrail, rfl, h.positionLedger⟩
  · refine ⟨?_, rfl, h.positionLedger⟩
    simp only [h.incidentTrail, hde.mismatchClass, hde.action, hde.severity, hde.retryCount,
      hde.reason]

namespace ServiceConfig

variable {config : ServiceConfig} {slot : VenueSlot} {l l' : ServiceLog} {calls : List CycleCall}
  {i : ℕ} {answers : VenueAnswers} {reconnectPhase : Bool} {now : ℤ} {res : ConnectorResult}
  {m n d e : DriftDecision}

/-- **A decision is applied** to the same effect. -/
theorem applyDecision_congr (hlog : l.Alike l')
    (h : DriftDecision.SameEffect config.policy slot.state d e) :
    Visit.Alike (config.applyDecision slot l calls d reconnectPhase now res)
      (config.applyDecision slot l' calls e reconnectPhase now res) := by
  obtain ⟨hstate, happlies⟩ := DriftDecision.countRetries_congr h
  have hhook : ∀ exchange, fireHook exchange (config.policy.countRetries slot.state d).2 =
      fireHook exchange (config.policy.countRetries slot.state e).2 := by
    intro exchange
    simp only [fireHook, happlies.action, happlies.mismatchClass, happlies.reason]
  refine ⟨?_, ?_, ?_, rfl⟩
  · simp only [applyDecision]
    rw [happlies.quarantines, hstate, happlies.mismatchClass, happlies.action, happlies.severity]
  · simp only [applyDecision, hstate]
    exact hlog.recordIncident happlies _ _ _
  · simp only [applyDecision, hstate, hhook]

/-- What a visit that fails reads: the class, and the quarantine where the retries are not used
up. -/
def FailureReads (config : ServiceConfig) (state : VenueState) (res : ConnectorResult)
    (m n : DriftDecision) : Prop :=
  m.mismatchClass = n.mismatchClass ∧
    (m.quarantine = n.quarantine ∨ res = .authFailed ∨
      state.snapshotFailureRetries + 1 > config.policy.snapshotFailureRetryBudget)

theorem failVisit_congr (hlog : l.Alike l')
    (h : config.FailureReads slot.state res m n) (reason : String) :
    Visit.Alike (config.failVisit slot l calls (answers.withMemory m) reconnectPhase res reason)
      (config.failVisit slot l' calls (answers.withMemory n) reconnectPhase res reason) := by
  obtain ⟨hclass, hquarantine⟩ := h
  simp only [failVisit, VenueAnswers.withMemory, RemediationPolicy.classifySnapshotFailure]
  refine applyDecision_congr hlog ?_
  by_cases hused : res = .authFailed ∨
      slot.state.snapshotFailureRetries + 1 > config.policy.snapshotFailureRetryBudget
  · rw [if_pos hused, if_pos hused]
    exact ⟨hclass, rfl, rfl, rfl, .inr rfl, .inl rfl⟩
  · rw [if_neg hused, if_neg hused]
    exact ⟨hclass, rfl, rfl, rfl, .inr rfl, .inr (.inr (.inr (hquarantine.resolve_right hused)))⟩

theorem passVisit_congr (hlog : l.Alike l') :
    Visit.Alike (passVisit slot l calls (answers.withMemory m) reconnectPhase)
      (passVisit slot l' calls (answers.withMemory n) reconnectPhase) := by
  refine ⟨rfl, ⟨hlog.incidentTrail, hlog.incidentCount, ?_⟩, rfl, rfl⟩
  simp only [passVisit, VenueAnswers.withMemory, hlog.positionLedger]

/-- The snapshot that the one of the venue is compared with. -/
def canonicalFor (slot : VenueSlot) (answers : VenueAnswers) : Option ReconciliationSnapshot :=
  if slot.hasFetcher then answers.canonical else slot.canonicalSnapshot

/-- **What a visit reads of memory.** -/
def VisitReads (config : ServiceConfig) (slot : VenueSlot) (answers : VenueAnswers)
    (reconnectPhase : Bool) (m n : DriftDecision) : Prop :=
  if reconnectPhase && slot.reconnectRequired && answers.reconcile != .ok then
    config.FailureReads slot.state answers.reconcile m n
  else if answers.fetch.1 ≠ .ok then config.FailureReads slot.state answers.fetch.1 m n
  else if slot.hasFetcher && answers.canonical.isNone then m.retryCount = n.retryCount
  else
    (config.thresholds.find answers.fetch.2 (canonicalFor slot answers)).SameReads config.policy
      slot.state m n

/-- The order drifts that the checks find are of the two classes. -/
theorem find_orderDrift {t : DriftThresholds} {snapshot : ReconciliationSnapshot}
    {canonical : Option ReconciliationSnapshot} {mismatchClass : MismatchClass} {reason : String}
    (h : t.find snapshot canonical = .orderDrift mismatchClass reason) :
    mismatchClass = .missingOrder ∨ mismatchClass = .qtyDrift := by
  unfold DriftThresholds.find at h
  cases hsane : t.insanity snapshot with
  | some reason => simp [hsane] at h
  | none =>
    cases canonical with
    | none => simp [hsane] at h
    | some canonical =>
      simp only [hsane, DriftThresholds.drifted] at h
      cases hdrift : canonical.openOrders.items.findSome? (t.orderDrift snapshot) with
      | some found =>
        obtain ⟨order, -, hfound⟩ := List.exists_of_findSome?_eq_some hdrift
        simp only [hdrift, Finding.orderDrift.injEq] at h
        exact h.1 ▸ t.orderDrift_class hfound
      | none =>
        simp only [hdrift] at h
        split_ifs at h
        exact .inl (Finding.orderDrift.inj h).1.symm

/-- A finding about a sane snapshot is read with the flag. -/
theorem flags_of_find {policy : RemediationPolicy} {state : VenueState} {t : DriftThresholds}
    {snapshot : ReconciliationSnapshot} {canonical : Option ReconciliationSnapshot}
    (hsane : t.insanity snapshot = none)
    (h : (t.find snapshot canonical).SameReads policy state m n) :
    m.mismatch = false ∧ n.mismatch = false := by
  have hnot : ∀ reason, t.find snapshot canonical ≠ .insane reason := by
    intro reason
    unfold DriftThresholds.find DriftThresholds.drifted
    rw [hsane]
    cases canonical with
    | none => simp
    | some canonical =>
      simp only
      cases canonical.openOrders.items.findSome? (t.orderDrift snapshot) with
      | some found => simp
      | none =>
        simp only
        split_ifs <;> simp
  cases hfind : t.find snapshot canonical with
  | insane reason => exact absurd hfind (hnot reason)
  | nothing =>
    rw [hfind] at h
    exact h
  | orderDrift _ _ | fillGap | halt _ _ =>
    rw [hfind] at h
    exact ⟨h.1, h.2.1⟩

/-- All findings but one are mismatches. -/
theorem mismatch_decision {finding : Finding} (out : DriftDecision)
    (h : finding ≠ .nothing) : (finding.decision out).mismatch = true := by
  cases finding with
  | nothing => exact absurd rfl h
  | _ => rfl

/-- **The check of a snapshot**: the decisions are applied to the same effect, or neither is a
mismatch. -/
theorem checkVisit_congr (hlog : l.Alike l')
    (h : if slot.hasFetcher && answers.canonical.isNone then m.retryCount = n.retryCount
      else (config.thresholds.find answers.fetch.2 (canonicalFor slot answers)).SameReads
        config.policy slot.state m n) :
    Visit.Alike (config.checkVisit slot l calls i (answers.withMemory m) reconnectPhase)
      (config.checkVisit slot l' calls i (answers.withMemory n) reconnectPhase) := by
  unfold checkVisit
  simp only [VenueAnswers.withMemory]
  by_cases hfetcher : (slot.hasFetcher && answers.canonical.isNone) = true
  · rw [if_pos hfetcher] at h
    simp only [hfetcher, if_true]
    exact applyDecision_congr hlog (DriftDecision.sameEffect_insane h _)
  · rw [if_neg hfetcher] at h
    have hflags : config.thresholds.insanity answers.fetch.2 = none →
        m.mismatch = false ∧ n.mismatch = false := fun hsane => flags_of_find hsane h
    simp only [hfetcher, if_false, Bool.false_eq_true,
      DriftThresholds.evaluate_eq _ fun hsane => (hflags hsane).1,
      DriftThresholds.evaluate_eq _ fun hsane => (hflags hsane).2]
    change Finding.SameReads _ _ m n (config.thresholds.find answers.fetch.2
      (if slot.hasFetcher then answers.canonical else slot.canonicalSnapshot)) at h
    by_cases hnothing : config.thresholds.find answers.fetch.2
        (if slot.hasFetcher then answers.canonical else slot.canonicalSnapshot) = .nothing
    · rw [hnothing] at h
      simp only [hnothing, Finding.decision, h.1, h.2, Bool.false_eq_true, if_false]
      exact passVisit_congr hlog
    · have heffect := (DriftDecision.sameEffect_decision (fun _ _ hfind =>
        find_orderDrift hfind) h).resolve_right hnothing
      simp only [mismatch_decision m hnothing, mismatch_decision n hnothing, if_true]
      exact applyDecision_congr hlog heffect.fetched

theorem fetchVisit_congr (hlog : l.Alike l')
    (h : if answers.fetch.1 ≠ .ok then config.FailureReads slot.state answers.fetch.1 m n
      else if slot.hasFetcher && answers.canonical.isNone then m.retryCount = n.retryCount
      else (config.thresholds.find answers.fetch.2 (canonicalFor slot answers)).SameReads
        config.policy slot.state m n) :
    Visit.Alike (config.fetchVisit slot l calls i (answers.withMemory m) reconnectPhase)
      (config.fetchVisit slot l' calls i (answers.withMemory n) reconnectPhase) := by
  unfold fetchVisit
  by_cases hfetch : answers.fetch.1 ≠ .ok
  · have hm : (answers.withMemory m).fetch.1 ≠ .ok := hfetch
    have hn : (answers.withMemory n).fetch.1 ≠ .ok := hfetch
    rw [if_pos hfetch] at h
    rw [if_pos hm, if_pos hn]
    exact failVisit_congr hlog h _
  · have hm : ¬(answers.withMemory m).fetch.1 ≠ .ok := hfetch
    have hn : ¬(answers.withMemory n).fetch.1 ≠ .ok := hfetch
    rw [if_neg hfetch] at h
    rw [if_neg hm, if_neg hn]
    exact checkVisit_congr hlog h

/-- **One visit** to the same effect. -/
theorem visit_congr (hlog : l.Alike l') (h : config.VisitReads slot answers reconnectPhase m n) :
    Visit.Alike (config.visit slot l i (answers.withMemory m) reconnectPhase)
      (config.visit slot l' i (answers.withMemory n) reconnectPhase) := by
  unfold VisitReads at h
  unfold visit
  by_cases hdue : (reconnectPhase && slot.reconnectRequired) = true
  · rw [if_pos hdue, if_pos hdue]
    by_cases hlocal : answers.reconcile ≠ .ok
    · have hm : (answers.withMemory m).reconcile ≠ .ok := hlocal
      have hn : (answers.withMemory n).reconcile ≠ .ok := hlocal
      rw [if_pos (by simpa [hdue] using hlocal)] at h
      rw [if_pos hm, if_pos hn]
      exact @failVisit_congr config { slot with reconnectRequired := false } l l'
        [.reconcile i] answers reconnectPhase answers.reconcile m n hlog h _
    · have hm : ¬(answers.withMemory m).reconcile ≠ .ok := hlocal
      have hn : ¬(answers.withMemory n).reconcile ≠ .ok := hlocal
      rw [if_neg (by simpa [hdue] using hlocal)] at h
      rw [if_neg hm, if_neg hn]
      exact fetchVisit_congr hlog h
  · rw [if_neg (by simp only [hdue, Bool.false_and, Bool.false_eq_true, not_false_eq_true])] at h
    rw [if_neg hdue, if_neg hdue]
    exact fetchVisit_congr hlog h

end ServiceConfig

/-! ## Runs of two services -/

/-- Cycles that differ only in the number of incidents dropped. -/
structure Cycle.Alike (c c' : Cycle) : Prop where
  slots : c.slots = c'.slots
  log : c.log.Alike c'.log
  calls : c.calls = c'.calls
  result : c.result = c'.result

namespace ServiceConfig

variable (config : ServiceConfig) (reconnectPhase : Bool)

/-- The visits that a cycle makes from slot `i` on meet a condition. -/
def AllVisits (P : ℕ → VenueSlot → Prop) (answers : ℕ → VenueAnswers) :
    ℕ → List VenueSlot → ServiceLog → Prop
  | _, [], _ => True
  | i, slot :: slots, log =>
    if slot.state.quarantined then AllVisits P answers (i + 1) slots log
    else
      let visit := config.visit slot log i (answers i) reconnectPhase
      P i slot ∧ (visit.returned = none →
        AllVisits P answers (i + 1) slots visit.log)

/-- What a cycle reads of memory in the visits that it makes. -/
def CycleReads (answers : ℕ → VenueAnswers) (m n : ℕ → DriftDecision) :
    ℕ → List VenueSlot → ServiceLog → Prop :=
  config.AllVisits reconnectPhase
    (fun i slot => config.VisitReads slot (answers i) reconnectPhase (m i) (n i))
    fun i => (answers i).withMemory (m i)

/-- A snapshot that is checked and passes every sanity check is no mismatch. -/
def SanePasses (slot : VenueSlot) (answers : VenueAnswers) (memory : DriftDecision) : Prop :=
  ¬(reconnectPhase && slot.reconnectRequired && answers.reconcile != .ok) → answers.fetch.1 = .ok →
    ¬(slot.hasFetcher && answers.canonical.isNone) →
    config.thresholds.insanity answers.fetch.2 = none →
    (config.thresholds.evaluateSnapshotSanity memory answers.fetch.2).mismatch = false

/-- The visits of a cycle in which sane snapshots are no mismatches. -/
def CycleSanePasses (answers : ℕ → VenueAnswers) (m : ℕ → DriftDecision) :
    ℕ → List VenueSlot → ServiceLog → Prop :=
  config.AllVisits reconnectPhase
    (fun i slot => config.SanePasses reconnectPhase slot (answers i) (m i))
    fun i => (answers i).withMemory (m i)

end ServiceConfig

/-- What holds of the visits of a cycle, when another condition does. -/
theorem ServiceConfig.AllVisits.imp {config : ServiceConfig} {reconnectPhase : Bool}
    {P Q : ℕ → VenueSlot → Prop} {answers : ℕ → VenueAnswers} (hPQ : ∀ i slot, P i slot → Q i slot)
    {i : ℕ} {slots : List VenueSlot} {log : ServiceLog}
    (h : config.AllVisits reconnectPhase P answers i slots log) :
    config.AllVisits reconnectPhase Q answers i slots log := by
  induction slots generalizing i log with
  | nil => trivial
  | cons slot slots ih =>
    rw [ServiceConfig.AllVisits] at h ⊢
    by_cases hquarantined : slot.state.quarantined = true
    · rw [if_pos hquarantined] at h ⊢
      exact ih h
    · rw [if_neg hquarantined] at h ⊢
      exact ⟨hPQ i slot h.1, fun hreturned => ih (h.2 hreturned)⟩

theorem ServiceConfig.VisitReads.sanePasses {config : ServiceConfig} {slot : VenueSlot}
    {answers : VenueAnswers} {reconnectPhase : Bool} {m n : DriftDecision}
    (h : config.VisitReads slot answers reconnectPhase m n) :
    config.SanePasses reconnectPhase slot answers m := by
  intro hlocal hfetch hfetcher hsane
  unfold ServiceConfig.VisitReads at h
  rw [if_neg hlocal, if_neg (not_not_intro hfetch), if_neg hfetcher] at h
  rw [DriftThresholds.evaluateSnapshotSanity_eq, hsane]
  exact (flags_of_find hsane h).1

/-- **One cycle** to the same effect. -/
theorem ServiceConfig.cycleFrom_congr {config : ServiceConfig} {reconnectPhase : Bool}
    {answers : ℕ → VenueAnswers} {m n : ℕ → DriftDecision} {i : ℕ} {slots : List VenueSlot}
    {l l' : ServiceLog} (hlog : l.Alike l')
    (h : config.CycleReads reconnectPhase answers m n i slots l) :
    Cycle.Alike
      (config.cycleFrom reconnectPhase (fun i => (answers i).withMemory (m i)) i slots l)
      (config.cycleFrom reconnectPhase (fun i => (answers i).withMemory (n i)) i slots l') := by
  induction slots generalizing i l l' with
  | nil => exact ⟨rfl, hlog, rfl, rfl⟩
  | cons slot slots ih =>
    rw [ServiceConfig.cycleFrom, ServiceConfig.cycleFrom]
    rw [ServiceConfig.CycleReads, ServiceConfig.AllVisits] at h
    by_cases hquarantined : slot.state.quarantined = true
    · rw [if_pos hquarantined] at h
      simp only [hquarantined, if_true]
      obtain ⟨hslots, hrest, hcalls, hresult⟩ := ih hlog h
      exact ⟨by rw [hslots], hrest, hcalls, hresult⟩
    · rw [if_neg hquarantined] at h
      simp only [hquarantined, if_false, Bool.false_eq_true]
      obtain ⟨hslot, hvisit, hcalls, hreturned⟩ := ServiceConfig.visit_congr (i := i) hlog h.1
      rw [← hreturned]
      cases hres : (config.visit slot l i ((answers i).withMemory (m i))
        reconnectPhase).returned with
      | some result => exact ⟨by rw [hslot], hvisit, hcalls, rfl⟩
      | none =>
        obtain ⟨hslots, hrest, hcalls', hresult⟩ := ih hvisit (h.2 hres)
        exact ⟨by rw [hslot, hslots], hrest, by rw [hcalls, hcalls'], hresult⟩

namespace PositionLedger

/-- What a snapshot of the ledger is read for in memory: the totals that it adds to. -/
def Snapshot.totals (memory : Snapshot) : Snapshot :=
  { memory with symbol := default, venues := [], globalAvgEntryPrice := 0 }

/-- The average entry price in memory is not looked at. -/
theorem foldl_addVenue_average (now : ℤ) (venues : List VenuePosition) (out : Snapshot) (px : ℚ) :
    venues.foldl (addVenue now) { out with globalAvgEntryPrice := px } =
      { venues.foldl (addVenue now) out with globalAvgEntryPrice := px } := by
  induction venues generalizing out with
  | nil => rfl
  | cons v venues ih =>
    have hstep : addVenue now { out with globalAvgEntryPrice := px } v =
        { addVenue now out v with globalAvgEntryPrice := px } := by
      unfold addVenue
      split_ifs <;> rfl
    rw [List.foldl_cons, List.foldl_cons, hstep]
    exact ih _

/-- **A snapshot of the ledger** reads the totals alone. -/
theorem snapshot_congr {l : PositionLedger} {m n : Snapshot} (h : m.totals = n.totals) (now : ℤ) :
    l.snapshot m now = l.snapshot n now := by
  have hstart : ({ m with symbol := l.symbol, venues := List.replicate maxVenues default } :
        Snapshot) =
      { ({ n with symbol := l.symbol, venues := List.replicate maxVenues default } : Snapshot) with
        globalAvgEntryPrice := m.globalAvgEntryPrice } := by
    simp only [Snapshot.totals, Snapshot.mk.injEq] at h
    simp only [Snapshot.mk.injEq]
    tauto
  simp only [snapshot]
  rw [hstart, foldl_addVenue_average]

end PositionLedger

/-- What memory holds in a call: the decisions of the visits, and a snapshot of the ledger. -/
structure ServiceMemory where
  decisions : ℕ → DriftDecision
  ledger : PositionLedger.Snapshot

/-- What is seen of a service after a call: its result, the quarantines, the incidents and a
snapshot of the ledger that is bound. -/
structure ServiceAnswer where
  result : Option ConnectorResult := none
  accepted : Bool := true
  quarantined : List Bool
  incidentCount : ℕ
  incidentTrail : List ReconciliationIncident
  ledger : Option PositionLedger.Snapshot

/-- The call with another memory for its decisions. -/
def ServiceCall.withMemory (memory : ℕ → DriftDecision) : ServiceCall → ServiceCall
  | .runReconciliationCycle reconnectPhase answers =>
    .runReconciliationCycle reconnectPhase fun i => (answers i).withMemory (memory i)
  | c => c

namespace ReconciliationService

/-- `find_state`. -/
def findState (s : ReconciliationService) (exchange : Exchange) : Option VenueState :=
  (s.slots.find? fun slot => slot.state.registered && slot.state.exchange == exchange).map (·.state)

/-- What a call returns. -/
def returns (s : ReconciliationService) : ServiceCall → Option ConnectorResult × Bool
  | .registerConnector connector exchange => (none, (s.registerConnector connector exchange).2)
  | .setCanonicalSnapshot exchange snapshot => (none, (s.setCanonicalSnapshot exchange snapshot).2)
  | .setCanonicalSnapshotFetcher exchange hasFetcher =>
    (none, (s.setCanonicalSnapshotFetcher exchange hasFetcher).2)
  | .bindPositionLedger _ => (none, true)
  | .markReconnectRequired exchange => (none, (s.markReconnectRequired exchange).2)
  | .runReconciliationCycle reconnectPhase answers =>
    (some (s.runReconciliationCycle reconnectPhase answers).2, true)

/-- A call at a time, and what is seen after it. -/
def answered (s : ReconciliationService) (memory : ServiceMemory) (c : ServiceCall × ℤ) :
    ReconciliationService × ServiceAnswer :=
  let after := s.call (c.1.withMemory memory.decisions)
  (after,
    { result := (s.returns (c.1.withMemory memory.decisions)).1
      accepted := (s.returns (c.1.withMemory memory.decisions)).2
      quarantined := [.binance, .okx, .coinbase, .kraken, .unknown].map fun exchange =>
        ((after.findState exchange).map (·.quarantined)).getD false
      incidentCount := after.log.incidentCount
      incidentTrail := after.log.incidentTrail
      ledger := after.log.positionLedger.map fun ledger => ledger.snapshot memory.ledger c.2 })

/-- Services that differ only in the number of incidents dropped. -/
structure Alike (s t : ReconciliationService) : Prop where
  config : s.config = t.config
  slots : s.slots = t.slots
  log : s.log.Alike t.log

/-- **The memories agree on what the call reads**: in the visits of a cycle, whose slots have
connectors that are registered, and in the snapshot of a ledger that is bound. -/
def SameReads (s : ReconciliationService) (m n : ServiceMemory) (c : ServiceCall × ℤ) : Prop :=
  (match c.1 with
    | .runReconciliationCycle reconnectPhase answers =>
      (∀ slot ∈ s.slots, slot.state.registered = true) ∧
        s.config.CycleReads reconnectPhase answers m.decisions n.decisions 0 s.slots s.log
    | _ => True) ∧
  ((s.call (c.1.withMemory m.decisions)).log.positionLedger = none ∨
    m.ledger.totals = n.ledger.totals)

variable {s t : ReconciliationService} {m n : ServiceMemory} {c : ServiceCall × ℤ}

theorem Alike.modifySlot (h : Alike s t) (exchange : Exchange) (f : VenueSlot → VenueSlot) :
    Alike (s.modifySlot exchange f).1 (t.modifySlot exchange f).1 ∧
      (s.modifySlot exchange f).2 = (t.modifySlot exchange f).2 := by
  obtain ⟨config, slots, log, bound⟩ := s
  obtain ⟨config', slots', log', bound'⟩ := t
  obtain ⟨hconfig, hslots, hlog⟩ := h
  simp only at hconfig hslots hlog
  subst hconfig hslots
  simp only [ReconciliationService.modifySlot, indexFor]
  cases slots.findIdx? fun slot => slot.state.exchange == exchange with
  | none => exact ⟨⟨rfl, rfl, hlog⟩, rfl⟩
  | some i => exact ⟨⟨rfl, rfl, hlog⟩, rfl⟩

theorem Alike.registerConnector (h : Alike s t) (connector : ℕ) (exchange : Exchange) :
    Alike (s.registerConnector connector exchange).1 (t.registerConnector connector exchange).1 ∧
      (s.registerConnector connector exchange).2 = (t.registerConnector connector exchange).2 := by
  unfold ReconciliationService.registerConnector
  simp only [h.slots]
  split_ifs
  · exact ⟨h, rfl⟩
  · exact ⟨h, rfl⟩
  · exact ⟨⟨h.config, rfl, h.log⟩, rfl⟩

theorem Alike.cycle (h : Alike s t) {reconnectPhase : Bool} {answers : ℕ → VenueAnswers}
    {m n : ℕ → DriftDecision}
    (hreads : s.config.CycleReads reconnectPhase answers m n 0 s.slots s.log) :
    Cycle.Alike (s.cycle reconnectPhase fun i => (answers i).withMemory (m i))
      (t.cycle reconnectPhase fun i => (answers i).withMemory (n i)) := by
  unfold ReconciliationService.cycle
  rw [← h.config, ← h.slots]
  exact ServiceConfig.cycleFrom_congr h.log hreads

/-- A call keeps the services alike, and returns the same. -/
theorem Alike.call (h : Alike s t) (hreads : SameReads s m n c) :
    Alike (s.call (c.1.withMemory m.decisions)) (t.call (c.1.withMemory n.decisions)) ∧
      s.returns (c.1.withMemory m.decisions) = t.returns (c.1.withMemory n.decisions) := by
  obtain ⟨c, now⟩ := c
  have hcall := hreads.1
  cases c with
  | registerConnector connector exchange =>
    exact (h.registerConnector connector exchange).imp_right fun h => congrArg (Prod.mk none) h
  | setCanonicalSnapshot exchange snapshot =>
    exact (h.modifySlot exchange _).imp_right fun h => congrArg (Prod.mk none) h
  | setCanonicalSnapshotFetcher exchange hasFetcher =>
    exact (h.modifySlot exchange _).imp_right fun h => congrArg (Prod.mk none) h
  | bindPositionLedger ledger =>
    exact ⟨⟨h.config, h.slots, h.log.incidentTrail, h.log.incidentCount, rfl⟩, rfl⟩
  | markReconnectRequired exchange =>
    exact (h.modifySlot exchange _).imp_right fun h => congrArg (Prod.mk none) h
  | runReconciliationCycle reconnectPhase answers =>
    obtain ⟨hslots, hlog, -, hresult⟩ := h.cycle hcall.2
    exact ⟨⟨h.config, hslots, hlog⟩, congrArg (fun result => (some result, true)) hresult⟩

theorem Alike.findState (h : Alike s t) (exchange : Exchange) :
    s.findState exchange = t.findState exchange := by
  unfold ReconciliationService.findState
  rw [h.slots]

/-- **One call**: memories that agree on what it reads let the same be seen. -/
theorem answered_congr (h : Alike s t) (hreads : SameReads s m n c) :
    Alike (s.answered m c).1 (t.answered n c).1 ∧ (s.answered m c).2 = (t.answered n c).2 := by
  obtain ⟨hafter, hreturns⟩ := h.call hreads
  refine ⟨hafter, ?_⟩
  have hledger : (s.call (c.1.withMemory m.decisions)).log.positionLedger.map
        (fun ledger => ledger.snapshot m.ledger c.2) =
      (t.call (c.1.withMemory n.decisions)).log.positionLedger.map
        fun ledger => ledger.snapshot n.ledger c.2 := by
    rw [← hafter.log.positionLedger]
    rcases hreads.2 with hnone | htotals
    · rw [hnone]
      rfl
    · exact congrArg (Option.map · _) (funext fun ledger =>
        PositionLedger.snapshot_congr htotals c.2)
  simp only [answered, hreturns, hafter.log.incidentCount, hafter.log.incidentTrail, hledger,
    funext hafter.findState]

/-- In a cycle, sane snapshots are no mismatches. -/
def CallSanePasses (s : ReconciliationService) (m : ServiceMemory) (c : ServiceCall × ℤ) : Prop :=
  match c.1 with
  | .runReconciliationCycle reconnectPhase answers =>
    s.config.CycleSanePasses reconnectPhase answers m.decisions 0 s.slots s.log
  | _ => True

theorem SameReads.callSanePasses (h : SameReads s m n c) : CallSanePasses s m c := by
  obtain ⟨c, now⟩ := c
  cases c with
  | runReconciliationCycle reconnectPhase answers =>
    exact h.1.2.imp fun _ _ hvisit => hvisit.sanePasses
  | _ => trivial

/-! ## A new service -/

/-- What memory holds of the members that nothing sets in a new service: the counts, and the
thresholds and the policy where the constructor is not given them. The arrays bound the count of
connectors. -/
structure FoundMembers where
  config : ServiceConfig
  connectorCount : ℕ
  incidentCount : ℕ
  droppedIncidentCount : UInt32
  bound : connectorCount ≤ 4

/-- A new service, as its members are found. -/
def found (f : FoundMembers) : ReconciliationService where
  config := f.config
  slots := List.replicate f.connectorCount { connector := 0, state := {} }
  log := { incidentCount := f.incidentCount, droppedIncidentCount := f.droppedIncidentCount }
  bound := List.length_replicate.trans_le f.bound

/-- **Reconciliation on two memories** that agree on what is read has the same results, quarantines,
incidents and ledger snapshots, and no sane snapshot is a mismatch. -/
theorem outputs_congr_service (f g : FoundMembers) (hconfig : f.config = g.config)
    (hconnectors : f.connectorCount = g.connectorCount)
    (hincidents : f.incidentCount = g.incidentCount)
    {calls : List (ServiceMemory × ServiceMemory × ServiceCall × ℤ)}
    (h : AllSteps (fun s x => (s.answered x.1 x.2.2).1) (fun s x => s.SameReads x.1 x.2.1 x.2.2)
      (found f) calls) :
    outputs answered (found f) (firstRun calls) = outputs answered (found g) (secondRun calls) ∧
      AllSteps (fun s x => (s.answered x.1 x.2.2).1)
        (fun s x => s.CallSanePasses x.1 x.2.2) (found f)
        calls := by
  have halike : Alike (found f) (found g) := by
    refine ⟨hconfig, ?_, rfl, hincidents, rfl⟩
    simp only [found, hconnectors]
  refine ⟨@outputs_congr _ _ _ _ answered Alike SameReads (fun _ _ _ _ _ => answered_congr) calls
    _ _ halike h, ?_⟩
  exact h.imp fun _ _ hreads => hreads.callSanePasses

/-! ## A flag that is found -/

/-- A new service whose counts are found zero. -/
def foundZero : FoundMembers where
  config := new.config
  connectorCount := 0
  incidentCount := 0
  droppedIncidentCount := 0
  bound := by decide

/-- A memory of zeros, but for the flag of the decisions. -/
def flagged (mismatch : Bool) : ServiceMemory where
  decisions := fun _ => ⟨mismatch, .none, .none, .info, 0, false, []⟩
  ledger := default

/-- An empty snapshot. -/
def emptySnapshot : VenueAnswers where
  reconcile := .ok
  fetch := (.ok, .empty)
  canonical := none
  nowNs := 0
  nowSystem := 0
  nowSteady := 0
  memory := ⟨false, .none, .none, .info, 0, false, []⟩

/-- **The flag in memory** decides on an empty snapshot. -/
theorem emptySnapshot_differs :
    (outputs answered (found foundZero)
        [(flagged false, .registerConnector 0 .binance, 0),
          (flagged false, .runReconciliationCycle false fun _ => emptySnapshot, 1)]).map
            (·.result) = [none, some .ok] ∧
      (outputs answered (found foundZero)
        [(flagged false, .registerConnector 0 .binance, 0),
          (flagged true, .runReconciliationCycle false fun _ => emptySnapshot, 1)]).map
            (·.result) = [none, some .errorUnknown] := by
  decide +kernel

/-- Two memories that differ in what is not read of a sane snapshot. -/
def unreadDecisions (m : ServiceMemory) : ServiceMemory :=
  { m with decisions := fun _ => ⟨false, .fillGap, .cancelAllOrders, .critical, 7, true, []⟩ }

theorem outputs_congr_emptySnapshot :
    outputs answered (found foundZero)
        [(flagged false, .registerConnector 0 .binance, 0),
          (flagged false, .runReconciliationCycle false fun _ => emptySnapshot, 1)] =
      outputs answered (found { foundZero with droppedIncidentCount := 3 })
        [(unreadDecisions (flagged false), .registerConnector 0 .binance, 0),
          (unreadDecisions (flagged false), .runReconciliationCycle false fun _ => emptySnapshot,
            1)] :=
  (@outputs_congr_service foundZero { foundZero with droppedIncidentCount := 3 } rfl rfl rfl
    [(flagged false, unreadDecisions (flagged false), .registerConnector 0 .binance, 0),
      (flagged false, unreadDecisions (flagged false),
        .runReconciliationCycle false fun _ => emptySnapshot, 1)]
    ⟨⟨trivial, .inl rfl⟩, ⟨⟨by decide +kernel, ⟨rfl, rfl⟩, fun _ => trivial⟩, .inl rfl⟩,
      trivial⟩).1

end ReconciliationService

end TradingInfrastructure
