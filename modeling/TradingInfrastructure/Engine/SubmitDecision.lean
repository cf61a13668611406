import TradingInfrastructure.Engine.KillSwitchCancels
import TradingInfrastructure.Portfolio.LiveSessionAccounting
import TradingInfrastructure.Risk.CircuitBreaker
import TradingInfrastructure.Risk.Netting
import TradingInfrastructure.Router.SmartOrderRouter

/-!
# Submitting a decision

`submit_decision` of `core/engine/trading_engine_main.cpp`. Each child order of a decision passes
the kill switch, the order rate, a check of its price and one of the capital, is committed to the
global risk controls, passes the drawdown check and goes to a connector. The first four and the risk
controls skip the child or end the decision; nothing takes a commit back.

What the clocks, other threads, the market and the connectors do while a child is handled is an
argument (`ChildEnvironment`). The state has a flag for a decision that has ended early and for a
run that has left the symbol table of the risk controls.
-/

namespace TradingInfrastructure

/-- The options and the configuration that the submission of orders reads. The mode is `shadow` or
another one. -/
structure EngineOptions extends EngineVenues where
  shadow : Bool
  futuresOnlyMode : Bool
  hedgeMode : Bool
  defaultLeverageCap : ℚ
  futuresDefaultMaxLeverage : ℚ
  binanceTakerFeeBps : ℚ
  krakenTakerFeeBps : ℚ
  okxTakerFeeBps : ℚ
  coinbaseTakerFeeBps : ℚ

/-- The connector that an order goes to. -/
inductive SubmitTarget
  | shadow (exchange : Exchange)
  | live (venue : LiveVenue)
  deriving DecidableEq

/-- What happens around one child order. -/
structure ChildEnvironment where
  killed : Option KillReason := none
  nowNs : ℤ := 0
  systemNowNs : ℤ := 0
  binanceMid : ℚ := 0
  replies : LiveVenue → HttpResponse
  submit : SubmitTarget → Order → ConnectorResult

/-- The arguments of `submit_decision`, with the capital and the positions it reads. -/
structure DecisionCall where
  side : Side
  children : List (ChildOrder × ChildEnvironment)
  accounting : LiveSessionAccounting
  currentPosition : ℚ
  targetPosition : ℚ

/-- What became of a child order. -/
inductive ChildOutcome
  | skipped
  | halted
  | submitted (order : Order) (result : ConnectorResult)
  deriving DecidableEq

/-- The state that the submissions share. The kill switch is that of the risk controls. -/
structure SubmitEngine where
  risk : GlobalRiskControls
  breaker : CircuitBreaker
  cancels : KillSwitchEngine := {}
  nextId : ℕ := 1
  halted : Bool := false
  fault : Option RiskFault := none

/-- `make_child_order`. -/
def makeChildOrder (symbol : CString) (exchange : Exchange) (side : Side) (qty price : ℚ)
    (tif : TimeInForce) (clientOrderId : ℕ) : Order :=
  { clientOrderId, symbol := copySymbol symbol, exchange, side, type := .limit, tif, price,
    quantity := qty }

namespace EngineOptions

variable (o : EngineOptions)

/-- The fee that the capital check assumes. -/
def feeBps : Exchange → ℚ
  | .binance => o.binanceTakerFeeBps
  | .kraken => o.krakenTakerFeeBps
  | .okx => o.okxTakerFeeBps
  | .coinbase | .unknown => o.coinbaseTakerFeeBps

/-- `leverage_guess`. -/
def leverageGuess : ℚ :=
  if o.defaultLeverageCap > 0 then o.defaultLeverageCap else max 1 o.futuresDefaultMaxLeverage

/-- The capital check. The shadow mode has none. -/
def affordable (call : DecisionCall) (child : ChildOrder) : Bool :=
  if o.shadow then true
  else if o.futuresOnlyMode then
    call.accounting.canAffordFuturesOrder .binance child.quantity child.limitPrice
      (o.feeBps child.exchange) o.leverageGuess
  else
    call.accounting.canAffordSpotOrder child.exchange (copySymbol o.symbol).chars call.side
      child.quantity child.limitPrice (o.feeBps child.exchange)

/-- `signed_notional`. -/
def signedNotional (side : Side) (child : ChildOrder) : ℚ :=
  child.quantity * child.limitPrice * side.sign

/-- `futures_ctx`. -/
def futuresContext (call : DecisionCall) (risk : GlobalRiskControls) (child : ChildOrder)
    (env : ChildEnvironment) : FuturesRiskContext :=
  let metrics := call.accounting.venueMetrics .binance
  { collateralNotional :=
      if metrics.freeCollateral > 0 then metrics.freeCollateral else metrics.startEquity
    currentAbsNotional := risk.grossNotional
    maintenanceMarginRatio := 0
    markPrice := child.limitPrice
    indexPrice := if env.binanceMid > 0 then env.binanceMid else child.limitPrice
    fundingRateBps := 0
    hoursToFunding := 8 }

/-- The commit of a child order to the risk controls. -/
def commit (call : DecisionCall) (risk : GlobalRiskControls) (child : ChildOrder)
    (env : ChildEnvironment) : Except RiskFault (GlobalRiskCheckResult × GlobalRiskControls) :=
  let symbol := some (copySymbol o.symbol).chars
  if o.futuresOnlyMode then do
    let (result, _, risk) ← risk.commitFuturesOrder child.exchange symbol
      (signedNotional call.side child) (futuresContext call risk child env)
    return (result, risk)
  else risk.commitOrder child.exchange symbol (signedNotional call.side child)

/-- The order of a child as its connector is given it. -/
def orderOf (call : DecisionCall) (child : ChildOrder) (env : ChildEnvironment) (id : ℕ) : Order :=
  let order := { makeChildOrder o.symbol child.exchange call.side child.quantity child.limitPrice
    child.tif id with submitTsNs := env.systemNowNs }
  if o.futuresOnlyMode then
    { order with
      exchange := .binance
      futuresPositionMode := if o.hedgeMode then .hedge else .oneWay
      futuresPositionSide := match call.side with | .bid => .long | .ask => .short
      reduceOnly :=
        (decide (call.currentPosition > 0) && call.side == .ask &&
          decide (call.targetPosition ≥ 0)) ||
          (decide (call.currentPosition < 0) && call.side == .bid &&
            decide (call.targetPosition ≤ 0)) }
  else order

/-- The connector of an order, if there is one. -/
def target (exchange : Exchange) : Option SubmitTarget :=
  if o.futuresOnlyMode then some (if o.shadow then .shadow .binance else .live .binanceFutures)
  else if o.shadow then
    match exchange with
    | .unknown => none
    | exchange => some (.shadow exchange)
  else
    match exchange with
    | .binance => some (.live .binance)
    | .kraken => some (.live .kraken)
    | .okx => some (.live .okx)
    | .coinbase => some (.live .coinbase)
    | .unknown => none

/-- What the connector answers. -/
def submitResult (child : ChildOrder) (env : ChildEnvironment) (order : Order) : ConnectorResult :=
  match o.target child.exchange with
  | some target => env.submit target order
  | none => .errorUnknown

end EngineOptions

namespace SubmitEngine

variable (o : EngineOptions)

/-- The engine as another thread leaves it, which may have triggered the kill switch. -/
def observe (e : SubmitEngine) (env : ChildEnvironment) : SubmitEngine :=
  match env.killed with
  | some reason => { e with risk := { e.risk with killSwitch := e.risk.killSwitch.trigger reason } }
  | none => e

/-- `issue_kill_switch_cancels`, and the end of the loop. -/
def halt (e : SubmitEngine) (env : ChildEnvironment) : SubmitEngine × ChildOutcome :=
  ({ e with
      cancels := e.cancels.issueKillSwitchCancels o.toEngineVenues
        (e.risk.killSwitch.active, env.replies)
      halted := true }, .halted)

/-- From the drawdown check on: the order is committed, with what the risk controls are then. -/
def deliver (e : SubmitEngine) (call : DecisionCall) (child : ChildOrder) (env : ChildEnvironment)
    (order : Order) : SubmitEngine × ChildOutcome :=
  let drawdown := e.breaker.checkDrawdown e.risk.killSwitch call.accounting.globalMetrics.netPnl
  let e := { e with breaker := drawdown.2.1, risk := { e.risk with killSwitch := drawdown.2.2 } }
  if drawdown.1 ≠ .ok then e.halt o env
  else (e, .submitted order (o.submitResult child env order))

/-- From the numbering of the order on. -/
def commitAndDeliver (e : SubmitEngine) (call : DecisionCall) (child : ChildOrder)
    (env : ChildEnvironment) : SubmitEngine × ChildOutcome :=
  let order := o.orderOf call child env e.nextId
  let e := { e with nextId := e.nextId + 1 }
  if !o.affordable call child then (e, .skipped)
  else
    match o.commit call e.risk child env with
    | .error fault => ({ e with fault := some fault }, .halted)
    | .ok (result, risk) =>
      if result ≠ .ok then ({ e with risk }, .skipped)
      else deliver o { e with risk } call child env order

/-- The body of the loop for one child order. -/
def processChild (e : SubmitEngine) (call : DecisionCall) (child : ChildOrder)
    (env : ChildEnvironment) :
    SubmitEngine × ChildOutcome :=
  let e := e.observe env
  if e.risk.killSwitch.active then e.halt o env
  else
    let rate := e.breaker.checkOrderRate env.nowNs
    let e := { e with breaker := rate.2 }
    if rate.1 ≠ .ok then e.halt o env
    else if child.limitPrice ≤ 0 then (e, .skipped)
    else e.commitAndDeliver o call child env

/-- The loop has ended, or the engine has. -/
def stopped (e : SubmitEngine) : Bool := e.halted || e.cancels.ended || e.fault.isSome

/-- One turn of the loop, which does nothing once the loop has ended. -/
def submitChild (call : DecisionCall) (e : SubmitEngine) (child : ChildOrder × ChildEnvironment) :
    SubmitEngine :=
  if e.stopped then e else (e.processChild o call child.1 child.2).1

/-- The engine at the start of a decision. -/
def start (e : SubmitEngine) : SubmitEngine := { e with halted := false }

/-- `submit_decision`. -/
def submitDecision (e : SubmitEngine) (call : DecisionCall) : SubmitEngine :=
  call.children.foldl (submitChild o call) e.start

end SubmitEngine

end TradingInfrastructure
