import TradingInfrastructure.Foundations.Drawdown
import TradingInfrastructure.Shadow.Accounting

/-!
# The decision log

A shadow connector writes a record of each fill, of each order that rests and of each that
`cancel_order` cancels (`log_fill` and `log_order` of `core/shadow/shadow_engine.hpp`).
`analyse_decisions` of `research/backtest/shadow_metrics.py` makes the report of the session of
them.

For each function of the connector that logs there is one here that gives the records it writes, in
their order. Of a record only what the report's counts, profits and fees are made of is kept. The
log file is open.
-/

namespace TradingInfrastructure

/-! ## Records -/

/-- The events of the log. -/
inductive DecisionEvent
  | fill
  | canceled
  | rejected
  | resting
  | stateTransition
  deriving DecidableEq

/-- A record of the log. The amounts are those of a fill. -/
structure DecisionRecord where
  event : DecisionEvent
  feeUsd : ℚ := 0
  cumulativeCashflow : ℚ := 0
  cumulativeRealizedPnl : ℚ := 0
  deriving DecidableEq

/-- The nearest integer, and the even one of two. -/
def roundHalfEven (x : ℚ) : ℤ :=
  if x - ⌊x⌋ < 1 / 2 then ⌊x⌋
  else if 1 / 2 < x - ⌊x⌋ then ⌊x⌋ + 1
  else if Even ⌊x⌋ then ⌊x⌋
  else ⌊x⌋ + 1

/-- The number that `%.6f` prints. -/
def printed (x : ℚ) : ℚ := roundHalfEven (x * 10 ^ 6) / 10 ^ 6

/-- The row of the file. -/
def DecisionRecord.row (r : DecisionRecord) : DecisionRecord :=
  { r with
    feeUsd := printed r.feeUsd
    cumulativeCashflow := printed r.cumulativeCashflow
    cumulativeRealizedPnl := printed r.cumulativeRealizedPnl }

/-! ## What the connector writes -/

namespace ShadowOrder

/-- What `apply_fill` logs: the totals of the connector behind the fill. -/
def applyFillLog (cfg : ShadowConfig) (now : ℤ) (a : ShadowAccounts) (s : ShadowOrder)
    (fillPx fillQty : ℚ) : List DecisionRecord :=
  if fillQty ≤ 0 then []
  else
    let after := (s.applyFill cfg now a fillPx fillQty).1
    [{ event := .fill
       feeUsd := (s.filledBy fillPx fillQty).feeFor cfg / 10000 * fillPx * fillQty
       cumulativeCashflow := after.netCashflow
       cumulativeRealizedPnl := after.realizedPnl }]

/-- What `fill_at_best` logs. A reject is not logged. -/
def fillAtBestLog (cfg : ShadowConfig) (book : OrderBook) (now : ℤ) (a : ShadowAccounts)
    (s : ShadowOrder) (qty : ℚ) : List DecisionRecord :=
  if qty ≤ 0 then []
  else if oppositeBest book s.side ≤ 0 then []
  else s.applyFillLog cfg now a (applySlippage cfg book (oppositeBest book s.side) qty s.side) qty

/-- What `fill_passive_or_cross` logs. A reject is not logged. -/
def fillPassiveOrCrossLog (cfg : ShadowConfig) (book : OrderBook) (now : ℤ) (a : ShadowAccounts)
    (s : ShadowOrder) : List DecisionRecord :=
  let remaining := s.quantity - s.filledQty
  if remaining ≤ 0 then []
  else if topOppositeSize book s.side ≤ 0 then []
  else
    let available := topOppositeSize book s.side * cfg.queueMatchFractionPerCheck
    let consumed := s.consumedByQueue available
    let s := { s with queueAheadQty := s.queueAheadQty - consumed }
    let available := available - consumed
    if available ≤ 0 then []
    else s.fillAtBestLog cfg book now a (if available > remaining then remaining else available)

/-- What the body of the loop of `check_fills` logs. An expiry is not logged. -/
def checkFillLog (cfg : ShadowConfig) (book : OrderBook) (now : ℤ) (a : ShadowAccounts)
    (s : ShadowOrder) : List DecisionRecord :=
  if !s.active || now < s.releaseTsNs then []
  else if s.type = .market then s.fillAtBestLog cfg book now a (s.quantity - s.filledQty)
  else
    let fillable := s.isImmediatelyFillable book
    if s.tif = .ioc && !fillable then []
    else if fillable then s.fillPassiveOrCrossLog cfg book now a
    else []

end ShadowOrder

namespace ShadowConnector

/-- What `submit_order` logs of the slot. -/
def placeOrderLog (cfg : ShadowConfig) (book : OrderBook) (now : ℤ) (a : ShadowAccounts)
    (s : ShadowOrder) : List DecisionRecord :=
  let fillableNow := s.isImmediatelyFillable book
  let released : Bool := s.submitTsNs ≥ s.releaseTsNs
  if released && (s.type = .market || fillableNow) then s.fillAtBestLog cfg book now a s.quantity
  else [{ event := .resting }]

/-- What `submit_order` logs. -/
def submitOrderLog (c : ShadowConnector) (book : OrderBook) (now : ℤ) (order : Order) :
    List DecisionRecord :=
  match c.orders.findIdx? fun s => !s.active with
  | none => []
  | some _ => placeOrderLog c.cfg book now c.accounts (newOrder c.cfg book now order)

/-- What `cancel_order` logs. -/
def cancelOrderLog (c : ShadowConnector) (clientId : ℕ) : List DecisionRecord :=
  match c.orders.findIdx? fun s => s.active && s.clientOrderId == clientId with
  | none => []
  | some _ => [{ event := .canceled }]

/-- What `replace_order` logs. -/
def replaceOrderLog (c : ShadowConnector) (book : OrderBook) (now : ℤ) (clientOrderId : ℕ)
    (replacement : Order) : List DecisionRecord :=
  c.cancelOrderLog clientOrderId ++
    match c.cancelOrder now clientOrderId with
    | (.ok, c) => c.submitOrderLog book now replacement
    | _ => []

/-- What `check_fills` logs. -/
def checkFillsLog (c : ShadowConnector) (book : OrderBook) (now : ℤ) : List DecisionRecord :=
  SlotPool.sweepLog (fun a s => s.checkFill c.cfg book now a)
    (fun a s => s.checkFillLog c.cfg book now a) c.accounts c.orders

/-- What a call logs. `cancel_all` logs nothing. -/
def callLog (c : ShadowConnector) (x : OrderBook × ℤ × Call) : List DecisionRecord :=
  match x with
  | (book, now, .submit order) => c.submitOrderLog book now order
  | (_, _, .cancel clientId) => c.cancelOrderLog clientId
  | (book, now, .replace clientId replacement) => c.replaceOrderLog book now clientId replacement
  | (_, _, .cancelAll _) => []
  | (book, now, .checkFills) => c.checkFillsLog book now

end ShadowConnector

/-! ## The report -/

/-- The counts, profits and fees of the report. -/
structure SessionReport where
  totalOrders : ℕ
  totalFills : ℕ
  totalCancels : ℕ
  totalRejects : ℕ
  totalResting : ℕ
  stateTransitionCount : ℕ
  fillRate : ℚ
  netRealizedPnlUsd : ℚ
  netCashflowUsd : ℚ
  netPnlUsd : ℚ
  maxDrawdownUsd : ℚ
  feesUsd : ℚ
  feeDragUsd : ℚ

/-- One profit of the loop that looks for the drawdown. -/
def SessionReport.drawdownLoop (s : ℚ × ℚ) (pnl : ℚ) : ℚ × ℚ :=
  let peak := if pnl > s.1 then pnl else s.1
  let dd := pnl - peak
  (peak, if dd < s.2 then dd else s.2)

/-- `analyse_decisions`. -/
def analyseDecisions (rows : List DecisionRecord) : SessionReport :=
  let fills := rows.filter fun r => r.event = .fill
  let cancels := rows.filter fun r => r.event = .canceled
  let rejects := rows.filter fun r => r.event = .rejected
  let resting := rows.filter fun r => r.event = .resting
  let transitions := rows.filter fun r => r.event = .stateTransition
  let terminalOrders := fills.length + cancels.length + rejects.length
  let realizedPnlSeries := fills.map DecisionRecord.cumulativeRealizedPnl
  let cashflowSeries := fills.map DecisionRecord.cumulativeCashflow
  let totalFees := (fills.map DecisionRecord.feeUsd).foldl (· + ·) 0
  { totalOrders := terminalOrders + resting.length
    totalFills := fills.length
    totalCancels := cancels.length
    totalRejects := rejects.length
    totalResting := resting.length
    stateTransitionCount := transitions.length
    fillRate := if terminalOrders = 0 then 0 else fills.length / terminalOrders
    netRealizedPnlUsd := realizedPnlSeries.getLastD 0
    netCashflowUsd := cashflowSeries.getLastD 0
    netPnlUsd := realizedPnlSeries.getLastD 0
    maxDrawdownUsd := (realizedPnlSeries.foldl SessionReport.drawdownLoop (0, 0)).2
    feesUsd := totalFees
    feeDragUsd := -totalFees }

end TradingInfrastructure
