import TradingInfrastructure.Engine.CommittedExposure
import TradingInfrastructure.Reconciliation.Quarantine

/-!
# The live loop

An iteration of the main loop of `core/engine/trading_engine_main.cpp` in a live run: where the kill
switch is active, the cancels are issued and the loop is left; otherwise the iteration may submit a
decision, reconnect venues and reconcile them, and refresh the accounting with the snapshots.

When an iteration does which of these, what the intent engine, the plan and the scheduler decide,
and what the venues answer are arguments. No canonical snapshot is registered in a live run.
-/

namespace TradingInfrastructure

namespace ReconciliationService

/-- `is_quarantined`. -/
def isQuarantined (s : ReconciliationService) (exchange : Exchange) : Bool :=
  match (s.indexFor exchange).bind fun i => s.slots[i]? with
  | some slot => slot.state.quarantined
  | none => false

/-- `latest_snapshot_for`. -/
def latestSnapshotFor (s : ReconciliationService) (exchange : Exchange) :
    Option ReconciliationSnapshot :=
  (s.indexFor exchange).bind fun i => s.slots[i]?.bind VenueSlot.latestSnapshot

end ReconciliationService

/-! ## The loop -/

/-- What a live run keeps. -/
structure LiveEngine where
  submit : SubmitEngine
  accounting : LiveSessionAccounting
  reconciliation : ReconciliationService
  left : Bool := false

/-- What an iteration does. -/
inductive LiveStep
  /-- The heartbeat is late, or another thread triggers the kill switch. -/
  | trigger (reason : KillReason)
  /-- `submit_decision`, with the accounting of the engine. -/
  | decide (call : DecisionCall)
  /-- Venues are connected again, and `reconcile_on_reconnect` runs. -/
  | reconnect (exchanges : List Exchange) (answers : ℕ → VenueAnswers)
  /-- `run_periodic_drift_check` runs, and the accounting is refreshed. -/
  | reconcile (answers : ℕ → VenueAnswers) (markPrice : Exchange → ℚ) (now : ℤ)

/-- An iteration: the steps that it takes, in this order, and the replies to the cancels that it may
issue at its start. -/
structure LoopTurn where
  woken : Option KillReason := none
  decision : Option DecisionCall := none
  reconnect : Option (List Exchange × (ℕ → VenueAnswers)) := none
  reconcile : Option ((ℕ → VenueAnswers) × (Exchange → ℚ) × ℤ) := none
  replies : LiveVenue → HttpResponse

def LoopTurn.steps (t : LoopTurn) : List LiveStep :=
  t.woken.toList.map .trigger ++ (t.decision.toList.map .decide ++
    (t.reconnect.toList.map (fun r => .reconnect r.1 r.2) ++
      t.reconcile.toList.map fun r => .reconcile r.1 r.2.1 r.2.2))

namespace EngineOptions

/-- The venues that are reconciled, in the order of their connectors. -/
def reconciled (o : EngineOptions) : List Exchange :=
  [(o.runBinance, Exchange.binance), (o.runKraken, .kraken), (o.runOkx, .okx),
    (o.runCoinbase, .coinbase)].filterMap fun venue => if venue.1 then some venue.2 else none

end EngineOptions

namespace LiveEngine

variable (o : EngineOptions)

/-- The loop has been left, or an exception has ended the engine. -/
def stopped (e : LiveEngine) : Bool :=
  e.left || e.submit.cancels.ended || e.submit.fault.isSome

/-- `refresh_accounting` of one venue. -/
def refreshAccounting (s : ReconciliationService) (markPrice : Exchange → ℚ) (now : ℤ)
    (a : LiveSessionAccounting) (exchange : Exchange) : LiveSessionAccounting :=
  match s.latestSnapshotFor exchange with
  | some snapshot => a.ingestReconciliation exchange snapshot o.symbol (markPrice exchange) now
  | none => a

/-- The service after the connectors were asked to connect. -/
def reconnected (s : ReconciliationService) (exchanges : List Exchange)
    (answers : ℕ → VenueAnswers) : ReconciliationService :=
  let marked := exchanges.foldl (fun s exchange => (s.markReconnectRequired exchange).1) s
  if exchanges = [] then marked else (marked.runReconciliationCycle true answers).1

/-- One step of an iteration. -/
def step (e : LiveEngine) (s : LiveStep) : LiveEngine :=
  if e.stopped then e
  else
    match s with
    | .trigger reason =>
      { e with submit.risk.killSwitch := e.submit.risk.killSwitch.trigger reason }
    | .decide call =>
      { e with submit := e.submit.submitDecision o { call with accounting := e.accounting } }
    | .reconnect exchanges answers =>
      { e with reconciliation := reconnected e.reconciliation exchanges answers }
    | .reconcile answers markPrice now =>
      let reconciliation := (e.reconciliation.runReconciliationCycle false answers).1
      { e with
        reconciliation
        accounting := o.reconciled.foldl (refreshAccounting o reconciliation markPrice now)
          e.accounting }

/-- One iteration. -/
def turn (e : LiveEngine) (t : LoopTurn) : LiveEngine :=
  if e.stopped then e
  else if e.submit.risk.killSwitch.active then
    { e with
      submit.cancels := e.submit.cancels.issueKillSwitchCancels o.toEngineVenues (true, t.replies)
      left := true }
  else t.steps.foldl (step o) e

/-- The connectors of the service, as they are registered. -/
def registered (config : ServiceConfig) (log : ServiceLog) : ReconciliationService :=
  o.reconciled.zipIdx.foldl (fun s venue => (s.registerConnector venue.2 venue.1).1)
    (.ofConfig config log)

/-- What the run is configured with. -/
structure Setup where
  risk : GlobalRiskConfig
  futuresRisk : FuturesRiskGateConfig
  breaker : CircuitBreakerConfig
  service : ServiceConfig
  log : ServiceLog
  capital : Exchange → ℚ × ℚ

/-- The engine before its first iteration: the venues are registered, connected and configured. -/
def start (setup : Setup) (exchanges : List Exchange) (answers : ℕ → VenueAnswers) :
    LiveEngine where
  submit := .new setup.risk setup.futuresRisk {} setup.breaker
  accounting := o.reconciled.foldl
    (fun a exchange => a.configureVenue exchange (setup.capital exchange).1
      (setup.capital exchange).2) .new
  reconciliation := reconnected (registered o setup.service setup.log) exchanges answers

end LiveEngine

end TradingInfrastructure
