import TradingInfrastructure.OrderBook.Basic
import TradingInfrastructure.Portfolio.PositionLedger

/-!
# The shadow connector

`core/shadow/shadow_engine.hpp`: the connector of the shadow mode keeps a pool of orders and fills
them against the book of its venue, at submission or in `check_fills`. The book that a call reads
and the time it reads from the clock are arguments of the call.

The accounts that the source keeps in members of the connector are grouped in a `ShadowAccounts`,
together with the fills it has logged and the updates it has given to its `on_fill` callback.
The intent and the decision prices of an order only feed the log, and are left out.
-/

namespace TradingInfrastructure

structure ShadowConfig where
  binanceMakerFeeBps : ℚ
  binanceTakerFeeBps : ℚ
  krakenMakerFeeBps : ℚ
  krakenTakerFeeBps : ℚ
  okxMakerFeeBps : ℚ
  okxTakerFeeBps : ℚ
  coinbaseMakerFeeBps : ℚ
  coinbaseTakerFeeBps : ℚ
  baseLatencyNs : ℤ
  latencyJitterNs : ℤ
  impactSlippagePerNotionalBps : ℚ
  queueMatchFractionPerCheck : ℚ
  deriving Inhabited

structure ShadowOrder where
  clientOrderId : ℕ := 0
  symbol : Symbol := default
  exchange : Exchange := .binance
  side : Side := .bid
  type : OrderType := .market
  tif : TimeInForce := .gtc
  price : ℚ := 0
  quantity : ℚ := 0
  filledQty : ℚ := 0
  notionalFilled : ℚ := 0
  queueAheadQty : ℚ := 0
  submitTsNs : ℤ := 0
  releaseTsNs : ℤ := 0
  active : Bool := false
  isMaker : Bool := false
  deriving DecidableEq, Inhabited

/-- What `log_fill` writes of a fill. -/
structure ShadowFill where
  side : Side
  fillPx : ℚ
  fillQty : ℚ
  fee : ℚ
  deriving DecidableEq

/-- The accounts of the connector, the fills it has logged and the updates it has emitted. -/
structure ShadowAccounts where
  grossNotional : ℚ := 0
  totalFills : ℕ := 0
  openedPositions : ℕ := 0
  netPosition : ℚ := 0
  avgEntryPrice : ℚ := 0
  realizedPnl : ℚ := 0
  totalFees : ℚ := 0
  netCashflow : ℚ := 0
  positionOpenedAtNs : ℤ := 0
  fillLog : List ShadowFill := []
  updates : List FillUpdate := []
  deriving DecidableEq, Inhabited

namespace ShadowAccounts

/-- `POSITION_EPSILON`. -/
def positionEpsilon : ℚ := 1 / 10 ^ 6

/-- `apply_position_fill_locked`. -/
def applyPositionFill (a : ShadowAccounts) (side : Side) (fillQty fillPx : ℚ) (now : ℤ) :
    ShadowAccounts :=
  let signedQty := side.signed fillQty
  let priorPos := a.netPosition
  if positionSign priorPos = 0 ∨ positionSign priorPos = positionSign signedQty then
    let totalQty := |priorPos| + fillQty
    { a with
      avgEntryPrice :=
        if totalQty > 0 then (a.avgEntryPrice * |priorPos| + fillPx * fillQty) / totalQty else 0
      netPosition := priorPos + signedQty
      positionOpenedAtNs := if positionSign priorPos = 0 then now else a.positionOpenedAtNs }
  else
    let closingQty := min |priorPos| fillQty
    let realizedPnl :=
      if priorPos > 0 then a.realizedPnl + (fillPx - a.avgEntryPrice) * closingQty
      else a.realizedPnl + (a.avgEntryPrice - fillPx) * closingQty
    let netPosition :=
      if |priorPos + signedQty| ≤ positionEpsilon then 0 else priorPos + signedQty
    if netPosition = 0 then
      { a with
        realizedPnl := realizedPnl, netPosition := netPosition,
        avgEntryPrice := 0, positionOpenedAtNs := 0 }
    else if decide (netPosition > 0) ≠ decide (priorPos > 0) then
      { a with
        realizedPnl := realizedPnl, netPosition := netPosition,
        avgEntryPrice := fillPx, positionOpenedAtNs := now }
    else { a with realizedPnl := realizedPnl, netPosition := netPosition }

/-- The notional, the counts, the cash and the fees of a fill. -/
def bookCash (a : ShadowAccounts) (f : ShadowFill) (opened : Bool) : ShadowAccounts :=
  let cashSign : ℚ := if f.side = .ask then 1 else -1
  { a with
    grossNotional := a.grossNotional + f.fillPx * f.fillQty
    totalFills := a.totalFills + 1
    openedPositions := if opened then a.openedPositions + 1 else a.openedPositions
    netCashflow := a.netCashflow + (cashSign * f.fillPx * f.fillQty - f.fee)
    totalFees := a.totalFees + f.fee }

/-- The part of `apply_fill` that books a fill: cash and fees, position, log. -/
def bookFill (a : ShadowAccounts) (f : ShadowFill) (opened : Bool) (now : ℤ) : ShadowAccounts :=
  { (a.bookCash f opened).applyPositionFill f.side f.fillQty f.fillPx now with
    fillLog := a.fillLog ++ [f] }

/-- `ExchangeConnector::emit_fill`: the update goes to the callback. -/
def emit (a : ShadowAccounts) (u : FillUpdate) : ShadowAccounts :=
  { a with updates := a.updates ++ [u] }

/-- `compute_unrealized_pnl_locked`. -/
def computeUnrealizedPnl (a : ShadowAccounts) (mid : ℚ) : ℚ :=
  if a.netPosition = 0 ∨ a.avgEntryPrice ≤ 0 then 0
  else if mid ≤ 0 then 0
  else if a.netPosition > 0 then (mid - a.avgEntryPrice) * a.netPosition
  else (a.avgEntryPrice - mid) * -a.netPosition

/-- `total_pnl`. -/
def totalPnl (a : ShadowAccounts) (mid : ℚ) : ℚ :=
  (a.realizedPnl - a.totalFees) + a.computeUnrealizedPnl mid

end ShadowAccounts

namespace ShadowOrder

/-- The threshold below which `apply_fill` takes a quantity for nothing. -/
def fillTolerance : ℚ := 1 / 10 ^ 12

/-- `fee_for`. -/
def feeFor (cfg : ShadowConfig) (s : ShadowOrder) : ℚ :=
  match s.exchange with
  | .binance => if s.isMaker then cfg.binanceMakerFeeBps else cfg.binanceTakerFeeBps
  | .kraken => if s.isMaker then cfg.krakenMakerFeeBps else cfg.krakenTakerFeeBps
  | .okx => if s.isMaker then cfg.okxMakerFeeBps else cfg.okxTakerFeeBps
  | .coinbase => if s.isMaker then cfg.coinbaseMakerFeeBps else cfg.coinbaseTakerFeeBps
  | .unknown => if s.isMaker then cfg.krakenMakerFeeBps else cfg.krakenTakerFeeBps

/-- The update of `emit_fill`. -/
def fillUpdate (s : ShadowOrder) (fillPx fillQty : ℚ) (now : ℤ) : FillUpdate where
  clientOrderId := s.clientOrderId
  fillPrice := fillPx
  fillQty := fillQty
  cumulativeFilledQty := s.filledQty
  avgFillPrice := if s.filledQty > 0 then s.notionalFilled / s.filledQty else 0
  newState := if s.filledQty ≥ s.quantity then .filled else .partiallyFilled
  localTsNs := now

/-- The update of `emit_cancel`. -/
def cancelUpdate (s : ShadowOrder) (now : ℤ) : FillUpdate where
  clientOrderId := s.clientOrderId
  newState := .canceled
  localTsNs := now

/-- The update of `emit_reject`. -/
def rejectUpdate (s : ShadowOrder) (reason : CString) (now : ℤ) : FillUpdate where
  clientOrderId := s.clientOrderId
  newState := .rejected
  localTsNs := now
  rejectReason := strncpyBuf 64 reason

/-- The order after a fill of some quantity: complete when less than the tolerance is left. -/
def filledBy (s : ShadowOrder) (fillPx fillQty : ℚ) : ShadowOrder :=
  let complete : Bool := s.filledQty + fillQty ≥ s.quantity - fillTolerance
  { s with
    filledQty := if complete then s.quantity else s.filledQty + fillQty
    notionalFilled := s.notionalFilled + fillPx * fillQty
    active := if complete then false else s.active }

/-- `apply_fill`. -/
def applyFill (cfg : ShadowConfig) (now : ℤ) (a : ShadowAccounts) (s : ShadowOrder)
    (fillPx fillQty : ℚ) : ShadowAccounts × ShadowOrder :=
  if fillQty ≤ 0 then (a, s)
  else
    let filled := s.filledBy fillPx fillQty
    let fee := filled.feeFor cfg / 10000 * fillPx * fillQty
    ((a.bookFill ⟨s.side, fillPx, fillQty, fee⟩ (s.filledQty ≤ fillTolerance) now).emit
      (filled.fillUpdate fillPx fillQty now), filled)

/-- `is_immediately_fillable`. -/
def isImmediatelyFillable (book : OrderBook) (s : ShadowOrder) : Bool :=
  match s.type, s.side with
  | .market, _ => true
  | _, .bid => book.getBestAsk > 0 && s.price ≥ book.getBestAsk
  | _, .ask => book.getBestBid > 0 && s.price ≤ book.getBestBid

/-- `top_opposite_size`. -/
def topOppositeSize (book : OrderBook) : Side → ℚ
  | .bid => ((book.getTopLevels 1).2.head?.map PriceLevel.size).getD 0
  | .ask => ((book.getTopLevels 1).1.head?.map PriceLevel.size).getD 0

/-- `apply_slippage`. -/
def applySlippage (cfg : ShadowConfig) (book : OrderBook) (px qty : ℚ) (side : Side) : ℚ :=
  let topSize := topOppositeSize book side
  if topSize ≤ 0 then px
  else
    let impactBps := cfg.impactSlippagePerNotionalBps * (qty / topSize)
    let sign : ℚ := if side = .bid then 1 else -1
    px * (1 + sign * (impactBps / 10000))

/-- The best price of the other side of the book. -/
def oppositeBest (book : OrderBook) : Side → ℚ
  | .bid => book.getBestAsk
  | .ask => book.getBestBid

/-- `emit_reject`, after which the order is no longer active. -/
def rejectWith (reason : CString) (now : ℤ) (a : ShadowAccounts) (s : ShadowOrder) :
    ShadowAccounts × ShadowOrder :=
  (a.emit (s.rejectUpdate reason now), { s with active := false })

/-- `emit_cancel`, after which the order is no longer active. -/
def cancelAt (now : ℤ) (a : ShadowAccounts) (s : ShadowOrder) : ShadowAccounts × ShadowOrder :=
  (a.emit (s.cancelUpdate now), { s with active := false })

/-- `fill_at_best`. -/
def fillAtBest (cfg : ShadowConfig) (book : OrderBook) (now : ℤ) (a : ShadowAccounts)
    (s : ShadowOrder) (qty : ℚ) : ShadowAccounts × ShadowOrder :=
  if qty ≤ 0 then (a, s)
  else if oppositeBest book s.side ≤ 0 then s.rejectWith "no_liquidity".toList now a
  else s.applyFill cfg now a (applySlippage cfg book (oppositeBest book s.side) qty s.side) qty

/-- The part of the available quantity that goes to the queue ahead of the order. -/
def consumedByQueue (s : ShadowOrder) (available : ℚ) : ℚ :=
  if s.queueAheadQty > 0 then
    if available > s.queueAheadQty then s.queueAheadQty else available
  else 0

/-- `fill_passive_or_cross`. -/
def fillPassiveOrCross (cfg : ShadowConfig) (book : OrderBook) (now : ℤ) (a : ShadowAccounts)
    (s : ShadowOrder) : ShadowAccounts × ShadowOrder :=
  let remaining := s.quantity - s.filledQty
  if remaining ≤ 0 then (a, { s with active := false })
  else if topOppositeSize book s.side ≤ 0 then s.rejectWith "no_liquidity".toList now a
  else
    let available := topOppositeSize book s.side * cfg.queueMatchFractionPerCheck
    let consumed := s.consumedByQueue available
    let s := { s with queueAheadQty := s.queueAheadQty - consumed }
    let available := available - consumed
    if available ≤ 0 then (a, s)
    else s.fillAtBest cfg book now a (if available > remaining then remaining else available)

/-- The body of the loop of `check_fills`. -/
def checkFill (cfg : ShadowConfig) (book : OrderBook) (now : ℤ) (a : ShadowAccounts)
    (s : ShadowOrder) : ShadowAccounts × ShadowOrder :=
  if !s.active || now < s.releaseTsNs then (a, s)
  else if s.type = .market then s.fillAtBest cfg book now a (s.quantity - s.filledQty)
  else
    let fillable := s.isImmediatelyFillable book
    if s.tif = .ioc && !fillable then s.cancelAt now a
    else if fillable then s.fillPassiveOrCross cfg book now a
    else (a, s)

/-- The body of the loop of `cancel_all`. -/
def cancelMatching (symbol : CString) (now : ℤ) (a : ShadowAccounts) (s : ShadowOrder) :
    ShadowAccounts × ShadowOrder :=
  if s.active && strncmpEq 15 s.symbol.chars symbol then s.cancelAt now a else (a, s)

/-- `queue_ahead_at_submit`. -/
def queueAheadAtSubmit (book : OrderBook) (s : ShadowOrder) : ℚ :=
  let levels := match s.side with
    | .bid => (book.getTopLevels 8).1
    | .ask => (book.getTopLevels 8).2
  match levels.find? fun level => level.price = s.price with
  | some level => level.size * (6 / 10)
  | none => 0

end ShadowOrder

/-- `ShadowConnector`. -/
structure ShadowConnector where
  cfg : ShadowConfig
  orders : List ShadowOrder
  accounts : ShadowAccounts

namespace ShadowConnector

/-- `MAX_SHADOW_ORDERS`. -/
def maxShadowOrders : ℕ := 256

/-- The constructor. -/
def new (cfg : ShadowConfig) : ShadowConnector := ⟨cfg, List.replicate maxShadowOrders {}, {}⟩

/-- `modeled_latency_ns`. -/
def modeledLatencyNs (cfg : ShadowConfig) (clientOrderId : ℕ) : ℤ :=
  if cfg.latencyJitterNs ≤ 0 then cfg.baseLatencyNs
  else
    let spread := cfg.latencyJitterNs.toNat * 2 + 1
    cfg.baseLatencyNs + ((clientOrderId % spread : ℕ) - cfg.latencyJitterNs)

/-- The slot that `submit_order` fills in for an order. -/
def newOrder (cfg : ShadowConfig) (book : OrderBook) (now : ℤ) (order : Order) : ShadowOrder :=
  let slot : ShadowOrder :=
    { clientOrderId := order.clientOrderId
      symbol := order.symbol
      exchange := order.exchange
      side := order.side
      type := order.type
      tif := order.tif
      price := order.price
      quantity := order.quantity
      submitTsNs := now
      releaseTsNs := now + modeledLatencyNs cfg order.clientOrderId
      active := true
      isMaker := false }
  { slot with queueAheadQty := slot.queueAheadAtSubmit book }

/-- What `submit_order` does with the slot: it is filled at once, or rests. -/
def placeOrder (cfg : ShadowConfig) (book : OrderBook) (now : ℤ) (a : ShadowAccounts)
    (s : ShadowOrder) : ShadowAccounts × ShadowOrder :=
  let fillableNow := s.isImmediatelyFillable book
  let released : Bool := s.submitTsNs ≥ s.releaseTsNs
  if released && (s.type = .market || fillableNow) then s.fillAtBest cfg book now a s.quantity
  else (a, { s with isMaker := true })

/-- `submit_order`. -/
def submitOrder (c : ShadowConnector) (book : OrderBook) (now : ℤ) (order : Order) :
    ConnectorResult × ShadowConnector :=
  match c.orders.findIdx? fun s => !s.active with
  | none => (.errorUnknown, c)
  | some i =>
    let (accounts, slot) := placeOrder c.cfg book now c.accounts (newOrder c.cfg book now order)
    (.ok, { c with orders := c.orders.set i slot, accounts := accounts })

/-- `cancel_order`. -/
def cancelOrder (c : ShadowConnector) (now : ℤ) (clientId : ℕ) :
    ConnectorResult × ShadowConnector :=
  match c.orders.findIdx? fun s => s.active && s.clientOrderId == clientId with
  | none => (.errorUnknown, c)
  | some i =>
    let (accounts, slot) := (c.orders.getD i {}).cancelAt now c.accounts
    (.ok, { c with orders := c.orders.set i slot, accounts := accounts })

/-- `replace_order`. -/
def replaceOrder (c : ShadowConnector) (book : OrderBook) (now : ℤ) (clientOrderId : ℕ)
    (replacement : Order) : ConnectorResult × ShadowConnector :=
  match c.cancelOrder now clientOrderId with
  | (.ok, c) => c.submitOrder book now replacement
  | (result, c) => (result, c)

/-- `cancel_all`. -/
def cancelAll (c : ShadowConnector) (now : ℤ) (symbol : CString) :
    ConnectorResult × ShadowConnector :=
  let (accounts, orders) :=
    SlotPool.sweep (ShadowOrder.cancelMatching symbol now) c.accounts c.orders
  (.ok, { c with orders := orders, accounts := accounts })

/-- `check_fills`. -/
def checkFills (c : ShadowConnector) (book : OrderBook) (now : ℤ) : ShadowConnector :=
  let (accounts, orders) :=
    SlotPool.sweep (fun a s => s.checkFill c.cfg book now a) c.accounts c.orders
  { c with orders := orders, accounts := accounts }

end ShadowConnector

end TradingInfrastructure
