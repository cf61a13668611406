import TradingInfrastructure.Portfolio.PositionLedger
import TradingInfrastructure.Reconciliation.Drift

/-!
# The reconciliation service

`core/execution/common/reconciliation/reconciliation_service.hpp`. A cycle visits one connector
after another: it reconciles it locally when a reconnect is marked, fetches its snapshot, checks the
snapshot, and returns at the first one that fails.

The arrays of the service are one list of slots, of the connectors registered. What a connector, a
fetcher of a canonical snapshot, the clocks and the memory of a fresh decision hold for a visit are
arguments. The hooks are calls in the record of what a cycle did.
-/

namespace TradingInfrastructure

/-- `RemediationPolicy`. -/
structure RemediationPolicy where
  orderDriftRetryBudget : UInt32
  fillGapRetryBudget : UInt32
  snapshotFailureRetryBudget : UInt32
  deriving DecidableEq

/-- `VenueState`. -/
structure VenueState where
  exchange : Exchange := .binance
  registered : Bool := false
  quarantined : Bool := false
  lastReconcileTsNs : ℤ := 0
  lastDriftCheckTsNs : ℤ := 0
  mismatchCount : UInt32 := 0
  orderDriftRetries : UInt32 := 0
  fillGapRetries : UInt32 := 0
  snapshotFailureRetries : UInt32 := 0
  fillReplayRequests : UInt32 := 0
  lastMismatch : MismatchClass := .none
  lastAction : DriftAction := .none
  lastSeverity : SeverityLevel := .info
  deriving DecidableEq

/-- `ReconciliationIncident`. -/
structure ReconciliationIncident where
  tsNs : ℤ
  exchange : Exchange
  mismatchClass : MismatchClass
  action : DriftAction
  severity : SeverityLevel
  reconnectPhase : Bool
  retryCount : UInt32
  reason : CString
  deriving DecidableEq

/-- What the arrays of the service hold of one connector, which is known by its address. -/
structure VenueSlot where
  connector : ℕ
  state : VenueState
  canonicalSnapshot : Option ReconciliationSnapshot := none
  latestSnapshot : Option ReconciliationSnapshot := none
  hasFetcher : Bool := false
  reconnectRequired : Bool := false

/-- What the venues share: the incidents and the ledger that is bound. -/
structure ServiceLog where
  incidentTrail : List ReconciliationIncident := []
  incidentCount : ℕ
  droppedIncidentCount : UInt32
  positionLedger : Option PositionLedger := none

/-- What answers a visit: the connector, the fetcher of its canonical snapshot, the clocks, and the
memory of a fresh decision. -/
structure VenueAnswers where
  reconcile : ConnectorResult
  fetch : ConnectorResult × ReconciliationSnapshot
  canonical : Option ReconciliationSnapshot
  nowNs : ℤ
  nowSystem : ℤ
  nowSteady : ℤ
  memory : DriftDecision

/-- What a cycle does: with the connector in a slot, or through a hook. -/
inductive CycleCall
  | reconcile (slot : ℕ)
  | fetch (slot : ℕ)
  | check (slot : ℕ)
  | cancelAllHook (exchange : Exchange) (mismatchClass : MismatchClass) (reason : CString)
  | riskHaltHook (exchange : Exchange) (mismatchClass : MismatchClass) (reason : CString)
  deriving DecidableEq

/-- `MAX_INCIDENT_TRAIL`. -/
def maxIncidentTrail : ℕ := 256

/-! ## Decisions -/

namespace RemediationPolicy

/-- `classify_snapshot_failure`: the state with one more failure, and the decision. -/
def classifySnapshotFailure (policy : RemediationPolicy) (out : DriftDecision) (state : VenueState)
    (res : ConnectorResult) (reason : String) : VenueState × DriftDecision :=
  let retries := state.snapshotFailureRetries + 1
  let failed := { out with mismatch := true, retryCount := retries, reason := reason.toList }
  ({ state with snapshotFailureRetries := retries },
    if res = .authFailed ∨ retries > policy.snapshotFailureRetryBudget then
      { failed with action := .quarantineVenue, severity := .critical, quarantine := true }
    else { failed with action := .cancelAllOrders, severity := .warning })

/-- A retry budget is used up. -/
def halted (decision : DriftDecision) : DriftDecision :=
  { decision with
    mismatchClass := .none, action := .riskHaltRecommended, severity := .critical,
      quarantine := true }

/-- The first part of `apply_decision`: the retries of the venue, and what they make of the
decision. -/
def countRetries (policy : RemediationPolicy) (state : VenueState) (decision : DriftDecision) :
    VenueState × DriftDecision :=
  match decision.mismatchClass with
  | .fillGap =>
    let retries := state.fillGapRetries + 1
    let decision := { decision with retryCount := retries }
    if retries > policy.fillGapRetryBudget then
      ({ state with fillGapRetries := retries }, halted decision)
    else
      ({ state with fillGapRetries := retries, fillReplayRequests := state.fillReplayRequests + 1 },
        decision)
  | .missingOrder | .qtyDrift =>
    let retries := state.orderDriftRetries + 1
    let decision := { decision with retryCount := retries }
    ({ state with orderDriftRetries := retries },
      if retries > policy.orderDriftRetryBudget then halted decision else decision)
  | .none | .balanceDrift | .positionDrift => (state, decision)

end RemediationPolicy

/-- `record_incident`. -/
def ServiceLog.recordIncident (log : ServiceLog) (exchange : Exchange) (decision : DriftDecision)
    (reconnectPhase : Bool) (nowNs : ℤ) : ServiceLog :=
  if log.incidentCount ≥ maxIncidentTrail then
    { log with droppedIncidentCount := log.droppedIncidentCount + 1 }
  else
    { log with
      incidentCount := log.incidentCount + 1
      incidentTrail := log.incidentTrail ++
        [{ tsNs := nowNs, exchange, mismatchClass := decision.mismatchClass
           action := decision.action, severity := decision.severity, reconnectPhase
           retryCount := decision.retryCount, reason := strncpyBuf 48 decision.reason }] }

/-- `fire_hook`, with both hooks set. -/
def fireHook (exchange : Exchange) (decision : DriftDecision) : List CycleCall :=
  match decision.action with
  | .cancelAllOrders => [.cancelAllHook exchange decision.mismatchClass decision.reason]
  | .riskHaltRecommended => [.riskHaltHook exchange decision.mismatchClass decision.reason]
  | .none | .quarantineVenue | .requestFillReplay => []

/-! ## The visit of a venue -/

/-- What a visit leaves: the slot, what is shared, what was done, and what the cycle returns at
once, if it does. -/
structure Visit where
  slot : VenueSlot
  log : ServiceLog
  calls : List CycleCall
  returned : Option ConnectorResult

/-- What does not change while a service runs. -/
structure ServiceConfig where
  thresholds : DriftThresholds
  policy : RemediationPolicy
  deriving DecidableEq

namespace ServiceConfig

variable (config : ServiceConfig)

/-- `apply_decision`, after which the cycle returns. -/
def applyDecision (slot : VenueSlot) (log : ServiceLog) (calls : List CycleCall)
    (decision : DriftDecision) (reconnectPhase : Bool) (nowNs : ℤ)
    (returned : ConnectorResult) : Visit :=
  let counted := config.policy.countRetries slot.state decision
  let state := { counted.1 with
    lastMismatch := counted.2.mismatchClass, lastAction := counted.2.action
    lastSeverity := counted.2.severity }
  let quarantines := counted.2.quarantine || counted.2.action == .quarantineVenue ||
    counted.2.action == .riskHaltRecommended
  { slot := { slot with
      state := if quarantines then
          { state with quarantined := true, mismatchCount := state.mismatchCount + 1 }
        else state }
    log := log.recordIncident state.exchange counted.2 reconnectPhase nowNs
    calls := calls ++ fireHook state.exchange counted.2
    returned := some returned }

/-- A local reconcile or a fetch that fails. -/
def failVisit (slot : VenueSlot) (log : ServiceLog) (calls : List CycleCall)
    (answers : VenueAnswers)
    (reconnectPhase : Bool) (res : ConnectorResult) (reason : String) : Visit :=
  let failed := config.policy.classifySnapshotFailure answers.memory slot.state res reason
  config.applyDecision { slot with state := failed.1 } log calls failed.2 reconnectPhase
    answers.nowNs res

/-- A snapshot without a mismatch is taken over. -/
def passVisit (slot : VenueSlot) (log : ServiceLog) (calls : List CycleCall)
    (answers : VenueAnswers)
    (reconnectPhase : Bool) : Visit :=
  let stamped :=
    if reconnectPhase then
      { slot.state with lastReconcileTsNs := answers.nowNs, mismatchCount := 0 }
    else { slot.state with lastDriftCheckTsNs := answers.nowNs }
  { slot := { slot with
      state := { stamped with
        lastMismatch := .none, lastAction := .none, lastSeverity := .info
        orderDriftRetries := 0, fillGapRetries := 0 } }
    log := { log with
      positionLedger := log.positionLedger.map fun ledger =>
        ledger.reconcilePositions slot.state.exchange answers.fetch.2 answers.nowSystem
          answers.nowSteady }
    calls
    returned := none }

/-- The check of a snapshot that was fetched. -/
def checkVisit (slot : VenueSlot) (log : ServiceLog) (calls : List CycleCall) (i : ℕ)
    (answers : VenueAnswers) (reconnectPhase : Bool) : Visit :=
  let fetched := { slot with
    latestSnapshot := some answers.fetch.2
    state := { slot.state with snapshotFailureRetries := 0 } }
  let canonical := if slot.hasFetcher then answers.canonical else slot.canonicalSnapshot
  if slot.hasFetcher && answers.canonical.isNone then
    config.applyDecision fetched log calls (answers.memory.insane "canonical snapshot fetch failed")
      reconnectPhase answers.nowNs .errorUnknown
  else
    let decision := config.thresholds.evaluate answers.memory answers.fetch.2 canonical
    if decision.mismatch then
      config.applyDecision fetched log (calls ++ [.check i]) decision reconnectPhase answers.nowNs
        .errorUnknown
    else passVisit fetched log (calls ++ [.check i]) answers reconnectPhase

/-- The fetch of a snapshot. -/
def fetchVisit (slot : VenueSlot) (log : ServiceLog) (calls : List CycleCall) (i : ℕ)
    (answers : VenueAnswers) (reconnectPhase : Bool) : Visit :=
  if answers.fetch.1 ≠ .ok then
    config.failVisit slot log (calls ++ [.fetch i]) answers reconnectPhase answers.fetch.1
      (if reconnectPhase then "snapshot fetch failed" else "periodic snapshot fetch failed")
  else config.checkVisit slot log (calls ++ [.fetch i]) i answers reconnectPhase

/-- The body of the loop of `run_reconciliation_cycle`, for a venue that is not quarantined. -/
def visit (slot : VenueSlot) (log : ServiceLog) (i : ℕ) (answers : VenueAnswers)
    (reconnectPhase : Bool) : Visit :=
  if reconnectPhase && slot.reconnectRequired then
    let cleared := { slot with reconnectRequired := false }
    if answers.reconcile ≠ .ok then
      config.failVisit cleared log [.reconcile i] answers reconnectPhase answers.reconcile
        "local reconcile failed"
    else config.fetchVisit cleared log [.reconcile i] i answers reconnectPhase
  else config.fetchVisit slot log [] i answers reconnectPhase

end ServiceConfig

/-! ## The cycle -/

/-- What a cycle leaves, from the first slot it came to. -/
structure Cycle where
  slots : List VenueSlot
  log : ServiceLog
  calls : List CycleCall
  result : ConnectorResult

/-- The loop of `run_reconciliation_cycle`, from slot `i` on. -/
def ServiceConfig.cycleFrom (config : ServiceConfig) (reconnectPhase : Bool)
    (answers : ℕ → VenueAnswers) : ℕ → List VenueSlot → ServiceLog → Cycle
  | _, [], log => ⟨[], log, [], .ok⟩
  | i, slot :: slots, log =>
    if slot.state.quarantined then
      let rest := config.cycleFrom reconnectPhase answers (i + 1) slots log
      { rest with slots := slot :: rest.slots }
    else
      let visit := config.visit slot log i (answers i) reconnectPhase
      match visit.returned with
      | some result => ⟨visit.slot :: slots, visit.log, visit.calls, result⟩
      | none =>
        let rest := config.cycleFrom reconnectPhase answers (i + 1) slots visit.log
        { rest with slots := visit.slot :: rest.slots, calls := visit.calls ++ rest.calls }

/-- `ReconciliationService`, which keeps at most `MAX_CONNECTORS` connectors. -/
structure ReconciliationService where
  config : ServiceConfig
  slots : List VenueSlot := []
  log : ServiceLog
  bound : slots.length ≤ 4 := by decide

namespace ReconciliationService

/-- `MAX_CONNECTORS`. -/
def maxConnectors : ℕ := 4

theorem length_cycleFrom {config : ServiceConfig} {reconnectPhase : Bool}
    {answers : ℕ → VenueAnswers}
    {i : ℕ} {slots : List VenueSlot} {log : ServiceLog} :
    (config.cycleFrom reconnectPhase answers i slots log).slots.length = slots.length := by
  induction slots generalizing i log with
  | nil => rfl
  | cons slot slots ih =>
    rw [ServiceConfig.cycleFrom]
    by_cases hquarantined : slot.state.quarantined = true
    · simp only [hquarantined, if_true, List.length_cons, ih]
    · simp only [hquarantined, if_false, Bool.false_eq_true]
      cases (config.visit slot log i (answers i) reconnectPhase).returned with
      | some result => rfl
      | none => simp only [List.length_cons, ih]

/-- What a cycle does to the service. -/
def cycle (s : ReconciliationService) (reconnectPhase : Bool)
    (answers : ℕ → VenueAnswers) : Cycle :=
  s.config.cycleFrom reconnectPhase answers 0 s.slots s.log

/-- `run_reconciliation_cycle`, with the service that it leaves. -/
def runReconciliationCycle (s : ReconciliationService) (reconnectPhase : Bool)
    (answers : ℕ → VenueAnswers) : ReconciliationService × ConnectorResult :=
  ({ s with
      slots := (s.cycle reconnectPhase answers).slots, log := (s.cycle reconnectPhase answers).log
      bound := length_cycleFrom.trans_le s.bound },
    (s.cycle reconnectPhase answers).result)

/-- `register_connector`, for a connector with an address and an exchange. -/
def registerConnector (s : ReconciliationService) (connector : ℕ) (exchange : Exchange) :
    ReconciliationService × Bool :=
  if s.slots.any fun slot => slot.connector == connector then (s, true)
  else if h : s.slots.length ≥ maxConnectors then (s, false)
  else
    ({ s with
        slots := s.slots ++ [{ connector, state := { exchange, registered := true } }]
        bound := by
          have hmax : maxConnectors = 4 := rfl
          simp only [List.length_append, List.length_singleton]
          omega }, true)

/-- `index_for`. -/
def indexFor (s : ReconciliationService) (exchange : Exchange) : Option ℕ :=
  s.slots.findIdx? fun slot => slot.state.exchange == exchange

/-- A change of the slot of an exchange, if it has one. -/
def modifySlot (s : ReconciliationService) (exchange : Exchange) (f : VenueSlot → VenueSlot) :
    ReconciliationService × Bool :=
  match s.indexFor exchange with
  | some i =>
    ({ s with slots := s.slots.modify i f, bound := (List.length_modify ..).trans_le s.bound },
    true)
  | none => (s, false)

/-- `set_canonical_snapshot`. -/
def setCanonicalSnapshot (s : ReconciliationService) (exchange : Exchange)
    (snapshot : ReconciliationSnapshot) : ReconciliationService × Bool :=
  s.modifySlot exchange fun slot => { slot with canonicalSnapshot := some snapshot }

/-- `set_canonical_snapshot_fetcher`. -/
def setCanonicalSnapshotFetcher (s : ReconciliationService) (exchange : Exchange)
    (hasFetcher : Bool) :
    ReconciliationService × Bool :=
  s.modifySlot exchange fun slot => { slot with hasFetcher := hasFetcher }

/-- `mark_reconnect_required`. -/
def markReconnectRequired (s : ReconciliationService) (exchange : Exchange) :
    ReconciliationService × Bool :=
  s.modifySlot exchange fun slot => { slot with reconnectRequired := true }

/-- `bind_position_ledger`. -/
def bindPositionLedger (s : ReconciliationService) (ledger : Option PositionLedger) :
    ReconciliationService :=
  { s with log := { s.log with positionLedger := ledger } }

end ReconciliationService

end TradingInfrastructure
