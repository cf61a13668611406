import TradingInfrastructure.Feeds.BookManager
import TradingInfrastructure.Orders.OrderManager
import TradingInfrastructure.Portfolio.PortfolioIntentEngine

/-!
# The market maker

`NeuralAlphaMarketMaker` of `core/execution/market_maker.hpp`, over the order manager and a venue
that works its orders. A call of `on_book_update` is cut into tasks, so that the reports of the
venue, which come on another thread, can fall between any two of them: the round of a loop, a
conversation with the connector, the reading of a book.

What a task reads from outside is a `Reading`: clocks, book, signals, whether the checks of the
circuit breaker let an order through, and how the venue and its connector deal with an order or with
a cancellation. The code leaves the members of the class uninitialized, so a run starts from any
values of them.
-/

namespace TradingInfrastructure

/-- `BookManager::is_ready`. -/
def BookManager.isReady (m : BookManager) : Bool := m.book.initialized

/-- `BookManager::mid_price`. -/
def BookManager.midPrice (m : BookManager) : ℚ := m.book.getMidPrice

/-- `AlphaSignal` with the time stamp that the market maker looks at. -/
structure StampedAlphaSignal extends AlphaSignal where
  tsNs : ℤ
  deriving DecidableEq

/-- `RegimeSignal` with its time stamp. -/
structure StampedRegimeSignal extends RegimeSignal where
  tsNs : ℤ
  deriving DecidableEq

/-- `AlphaSignal{}`, what the reader returns as long as it has nothing to read. -/
def StampedAlphaSignal.zero : StampedAlphaSignal := ⟨⟨0, 0, 0, 0⟩, 0⟩

/-- `RegimeSignal{}`. -/
def StampedRegimeSignal.zero : StampedRegimeSignal := ⟨⟨0, 0⟩, 0⟩

/-- `MarketMakerConfig`, without the paths of the signals. -/
structure MarketMakerConfig where
  symbol : Symbol := default
  exchange : Exchange := .binance
  halfSpreadBps : ℚ := 0
  skewFactor : ℚ := 0
  maxSkewBps : ℚ := 0
  orderQty : ℚ := 0
  maxPosition : ℚ := 0
  requoteBps : ℚ := 0
  requoteSignal : ℚ := 0
  stopLossBps : ℚ := 0
  limitSlipBps : ℚ := 0
  riskMax : ℚ := 0
  riskWidenBps : ℚ := 0
  signalMinBps : ℚ := 0
  inventorySkewDecayPower : ℚ := 0
  shockBlockThreshold : ℚ := 0
  illiquidBlockThreshold : ℚ := 0
  regimeWidenBps : ℚ := 0
  staleNs : ℤ := 0
  deriving DecidableEq

/-- The members of `NeuralAlphaMarketMaker` that change. An id of zero stands for no order. -/
structure NeuralAlphaMarketMaker where
  cfg : MarketMakerConfig
  bidId : ℕ
  askId : ℕ
  stopId : ℕ
  lastQuotedMid : ℚ
  lastSignalBps : ℚ
  entryPrice : ℚ
  injectedSignalBps : ℚ
  injectedRiskScore : ℚ
  injectedSignalSet : Bool
  deriving DecidableEq

/-- Which of the three ids an order is kept under. -/
inductive OrderRole
  | quote (side : Side)
  | stop
  deriving DecidableEq

/-- What `post_quotes` works out before it looks at the position. -/
structure Quotes where
  bidPx : ℚ
  askPx : ℚ
  signalBps : ℚ
  deriving DecidableEq

namespace NeuralAlphaMarketMaker

/-- The id kept for a role. -/
def orderId (mm : NeuralAlphaMarketMaker) : OrderRole → ℕ
  | .quote .bid => mm.bidId
  | .quote .ask => mm.askId
  | .stop => mm.stopId

/-- An assignment to the id kept for a role. -/
def setOrderId (mm : NeuralAlphaMarketMaker) (role : OrderRole) (id : ℕ) :
    NeuralAlphaMarketMaker :=
  match role with
  | .quote .bid => { mm with bidId := id }
  | .quote .ask => { mm with askId := id }
  | .stop => { mm with stopId := id }

@[simp] theorem cfg_setOrderId (mm : NeuralAlphaMarketMaker) (role : OrderRole) (id : ℕ) :
    (mm.setOrderId role id).cfg = mm.cfg := by
  rcases role with (_ | _) | _ <;> rfl

/-- `set_alpha_signal`. -/
def setAlphaSignal (mm : NeuralAlphaMarketMaker) (signalBps riskScore : ℚ) :
    NeuralAlphaMarketMaker :=
  { mm with
    injectedSignalBps := signalBps, injectedRiskScore := riskScore, injectedSignalSet := true }

/-- The entry price after a fill of `signedQty` at `px` that has led to the position `pos`. -/
def entryAfter (entryPrice pos signedQty px : ℚ) : ℚ :=
  let prevPos := pos - signedQty
  if pos = 0 then 0
  else if prevPos = 0 ∨ entryPrice ≤ 0 then px
  else if (prevPos > 0 ∧ signedQty > 0) ∨ (prevPos < 0 ∧ signedQty < 0) then
    (entryPrice * |prevPos| + px * |signedQty|) / (|prevPos| + |signedQty|)
  else entryPrice

/-- `on_fill`, for the order that an update has ended and the position after it. The leg that a stop
has ended is reported to the circuit breaker, which is not part of the model. -/
def onFill (mm : NeuralAlphaMarketMaker) (order : Order) (u : FillUpdate) (pos : ℚ) :
    NeuralAlphaMarketMaker :=
  let forget (id : ℕ) := if order.clientOrderId = id then 0 else id
  let forgotten :=
    { mm with bidId := forget mm.bidId, askId := forget mm.askId, stopId := forget mm.stopId }
  if u.newState ≠ .filled then forgotten
  else
    let entryPrice := entryAfter mm.entryPrice pos (order.side.signed u.fillQty) u.fillPrice
    { forgotten with
      entryPrice := if order.clientOrderId = mm.stopId then 0 else entryPrice }

theorem cfg_onFill (mm : NeuralAlphaMarketMaker) (order : Order) (u : FillUpdate) (pos : ℚ) :
    (mm.onFill order u pos).cfg = mm.cfg := by
  rw [onFill]
  split <;> rfl

/-- `is_stale`. -/
def isStale (mm : NeuralAlphaMarketMaker) (s : StampedAlphaSignal) (now : ℤ) : Bool :=
  s.tsNs == 0 || now - s.tsNs > mm.cfg.staleNs

/-- `RegimeSignalReader::is_stale`. -/
def regimeIsStale (s : StampedRegimeSignal) (staleNs now : ℤ) : Bool :=
  s.tsNs == 0 || now - s.tsNs > staleNs

/-- The prices of `post_quotes` at a net position, for `std::pow` and the two readings of the clock.
Nothing when the regime blocks quoting. -/
def quotes (pow : ℚ → ℚ → ℚ) (mm : NeuralAlphaMarketMaker) (netPos mid : ℚ)
    (sig : StampedAlphaSignal)
    (regime : StampedRegimeSignal) (now nowRegime : ℤ) : Option Quotes :=
  let cfg := mm.cfg
  let stale := mm.isStale sig now
  let signalBps :=
    if stale then 0 else if mm.injectedSignalSet then mm.injectedSignalBps else sig.signalBps
  let riskScore :=
    if stale then 0 else if mm.injectedSignalSet then mm.injectedRiskScore else sig.riskScore
  let regimeStale := regimeIsStale regime cfg.staleNs nowRegime
  let pShock := if regimeStale then 0 else regime.pShock
  let pIlliquid := if regimeStale then 0 else regime.pIlliquid
  if pShock ≥ cfg.shockBlockThreshold ∨ pIlliquid ≥ cfg.illiquidBlockThreshold then none
  else
    let skew :=
      if |signalBps| ≥ cfg.signalMinBps then
        max (-cfg.maxSkewBps) (min cfg.maxSkewBps (cfg.skewFactor * signalBps))
      else 0
    let skew :=
      if cfg.maxPosition > 0 then
        let invRatio := max 0 (min 1 (|netPos| / cfg.maxPosition))
        skew * pow invRatio (max 1 cfg.inventorySkewDecayPower)
      else skew
    let extra := (if riskScore ≥ cfg.riskMax then cfg.riskWidenBps else 0) +
      cfg.regimeWidenBps * (pShock + 1 / 2 * pIlliquid)
    let halfBid := max (cfg.halfSpreadBps - skew + extra) (1 / 2)
    let halfAsk := max (cfg.halfSpreadBps + skew + extra) (1 / 2)
    some
      { bidPx := mid * (1 - halfBid / 10000), askPx := mid * (1 + halfAsk / 10000), signalBps }

/-- The order of `submit_limit`. -/
def limitOrder (mm : NeuralAlphaMarketMaker) (side : Side) (price qty : ℚ) : Order where
  symbol := mm.cfg.symbol
  exchange := mm.cfg.exchange
  side := side
  type := .limit
  tif := .gtx
  price := price
  quantity := qty

/-- The order of `submit_stop_limit`. -/
def stopLimitOrder (mm : NeuralAlphaMarketMaker) (side : Side)
    (stopPx limitPx qty : ℚ) : Order where
  symbol := mm.cfg.symbol
  exchange := mm.cfg.exchange
  side := side
  type := .stopLimit
  tif := .ioc
  stopPrice := stopPx
  price := limitPx
  quantity := qty

/-- The order with which `check_stop` leaves the position, when the loss on it has passed the
limit. -/
def stopOrder (mm : NeuralAlphaMarketMaker) (pos mid : ℚ) : Option Order :=
  if pos = 0 ∨ mm.stopId ≠ 0 ∨ mm.entryPrice ≤ 0 then none
  else
    let unrealBps :=
      if pos > 0 then (mid - mm.entryPrice) / mm.entryPrice * 10000
      else (mm.entryPrice - mid) / mm.entryPrice * 10000
    if unrealBps < -mm.cfg.stopLossBps then
      if pos > 0 then
        some (mm.stopLimitOrder .ask mid (mid * (1 - mm.cfg.limitSlipBps / 10000)) |pos|)
      else some (mm.stopLimitOrder .bid mid (mid * (1 + mm.cfg.limitSlipBps / 10000)) |pos|)
    else none

/-- What `on_book_update` asks before it quotes again: the middle or the signal has moved. -/
def requotes (mm : NeuralAlphaMarketMaker) (mid : ℚ) (sig : StampedAlphaSignal) : Bool :=
  |mid - mm.lastQuotedMid| / mid * 10000 ≥ mm.cfg.requoteBps ||
    |sig.signalBps - mm.lastSignalBps| ≥ mm.cfg.requoteSignal

end NeuralAlphaMarketMaker

/-! ## The tasks of a call -/

/-- What is left to do of a call of `on_book_update`. -/
inductive Task
  /-- The loop of `drain_fills`. -/
  | drainFills
  /-- `on_book_update` behind `drain_fills`. -/
  | readMarket
  | checkStop (mid : ℚ)
  /-- The choice between quoting, quoting again and leaving the quotes. -/
  | considerQuotes (mid : ℚ) (sig : StampedAlphaSignal) (regime : StampedRegimeSignal)
  /-- One half of `cancel_quotes`. -/
  | cancel (side : Side)
  | postQuotes (mid : ℚ) (sig : StampedAlphaSignal) (regime : StampedRegimeSignal)
  /-- `submit_limit` or `submit_stop_limit`, up to the answer of the connector. -/
  | submit (role : OrderRole) (order : Order)
  /-- The rest of it: `OrderManager::submit` has taken the slot and has the answer. -/
  | answered (role : OrderRole) (slot : ℕ) (order : Order) (result : ConnectorResult)
  /-- The end of `post_quotes`. -/
  | rememberQuotes (mid signalBps : ℚ)
  deriving DecidableEq

/-- `cancel_quotes`. -/
def cancelQuotes : List Task := [.cancel .bid, .cancel .ask]

/-- An order that the venue works, with the quantity that can still fill. -/
structure WorkingOrder where
  clientOrderId : ℕ
  side : Side
  unfilled : ℚ
  deriving DecidableEq

/-- What a task reads from outside. The market and the signals are read once in a call, the clocks,
the checks and the venue when they are asked. -/
structure Reading where
  now : ℤ := 0
  nowRegime : ℤ := 0
  book : BookManager := ⟨default⟩
  signal : StampedAlphaSignal := .zero
  regime : StampedRegimeSignal := .zero
  /-- What `run_pre_submit_checks` returns. -/
  checksPass : Bool := true
  /-- The venue works the order from now on, whatever its connector answers. -/
  taken : Bool := true
  result : ConnectorResult := .ok
  /-- The cancellation has ended the order. -/
  cancelled : Bool := true

/-- The market maker with its manager, the tasks left of the current call, the orders that the venue
works, and the sides of all orders so far. -/
structure Quoting where
  maker : NeuralAlphaMarketMaker
  manager : OrderManager
  tasks : List Task
  working : List WorkingOrder
  sideOf : ℕ → Side

namespace Quoting

open NeuralAlphaMarketMaker

/-- A flat start with no orders, whatever the members of the market maker hold. -/
def start (maker : NeuralAlphaMarketMaker) : Quoting where
  maker := maker
  manager := .new 0
  tasks := []
  working := []
  sideOf := fun _ => .bid

/-- `om_.position()`. -/
def position (t : Quoting) : ℚ := t.manager.position

/-- The quantity that can still fill on a side. -/
def workingQty (t : Quoting) (side : Side) : ℚ :=
  (t.working.map fun o => if o.side = side then o.unfilled else 0).sum

/-- `apply_fill` with its callback. -/
def applyFill (t : Quoting) (now : ℤ) (u : FillUpdate) : Quoting :=
  match t.manager.findOrder u.clientOrderId with
  | none => t
  | some i =>
    let order := (t.manager.slots.getD i {}).order
    let manager := t.manager.applyFill now u
    { t with
      manager
      maker := if u.newState.terminal then t.maker.onFill order u manager.position else t.maker }

/-- The order that the venue takes up when a submission is sent. -/
def taking (t : Quoting) (r : Reading) (order : Order) : Option WorkingOrder :=
  if r.checksPass && r.taken && t.manager.findFreeSlot.isSome then
    some { clientOrderId := t.manager.nextId, side := order.side, unfilled := order.quantity }
  else none

/-- A submission up to the answer of the connector. The id stays zero when the checks fail or the
pool is full. -/
def send (t : Quoting) (r : Reading) (role : OrderRole) (order : Order) : Quoting :=
  if !r.checksPass then { t with maker := t.maker.setOrderId role 0 }
  else
    match t.manager.beginSubmit order r.now with
    | none => { t with maker := t.maker.setOrderId role 0 }
    | some (i, m) =>
      { t with
        manager := m
        tasks := .answered role i (t.manager.numbered order r.now) r.result :: t.tasks
        working := (t.taking r order).toList ++ t.working
        sideOf := Function.update t.sideOf t.manager.nextId order.side }

/-- `cancel_quotes` for one side. -/
def cancel (t : Quoting) (r : Reading) (side : Side) : Quoting :=
  let id := t.maker.orderId (.quote side)
  if id = 0 then t
  else
    { t with
      maker := t.maker.setOrderId (.quote side) 0
      working :=
        if r.cancelled then t.working.filter fun o => o.clientOrderId ≠ id else t.working }

/-- `post_quotes`: the checks of the position stand before both submissions. -/
def postQuotes (pow : ℚ → ℚ → ℚ) (t : Quoting) (r : Reading) (mid : ℚ) (sig : StampedAlphaSignal)
    (regime : StampedRegimeSignal) : List Task :=
  let netPos := t.position
  match t.maker.quotes pow netPos mid sig regime r.now r.nowRegime with
  | none => cancelQuotes
  | some quotes =>
    let qty := t.maker.cfg.orderQty
    let bid := if netPos + qty ≤ t.maker.cfg.maxPosition then
      [Task.submit (.quote .bid) (t.maker.limitOrder .bid quotes.bidPx qty)] else []
    let ask := if netPos - qty ≥ -t.maker.cfg.maxPosition then
      [Task.submit (.quote .ask) (t.maker.limitOrder .ask quotes.askPx qty)] else []
    bid ++ ask ++ [.rememberQuotes mid quotes.signalBps]

/-- One task, from a state whose tasks are those behind it. -/
def run (pow : ℚ → ℚ → ℚ) (t : Quoting) (r : Reading) : Task → Quoting
  | .drainFills =>
    match t.manager.fillQueue.pop with
    | none => t
    | some (u, q) =>
      let t' := { t with manager := { t.manager with fillQueue := q } }.applyFill r.now u
      { t' with tasks := .drainFills :: t'.tasks }
  | .readMarket =>
    if !r.book.isReady || r.book.midPrice ≤ 0 then t
    else
      let mid := r.book.midPrice
      { t with
        manager :=
          { t.manager with
            ledger := t.manager.ledger.updateMidPrice t.maker.cfg.symbol.chars
              t.maker.cfg.exchange mid }
        tasks := [.checkStop mid, .considerQuotes mid r.signal r.regime] ++ t.tasks }
  | .checkStop mid =>
    match t.maker.stopOrder t.position mid with
    | none => t
    | some order => { t with tasks := cancelQuotes ++ [.submit .stop order] ++ t.tasks }
  | .considerQuotes mid sig regime =>
    if t.maker.bidId = 0 ∧ t.maker.askId = 0 then
      { t with tasks := .postQuotes mid sig regime :: t.tasks }
    else if t.maker.requotes mid sig then
      { t with tasks := cancelQuotes ++ [.postQuotes mid sig regime] ++ t.tasks }
    else t
  | .cancel side => t.cancel r side
  | .postQuotes mid sig regime => { t with tasks := t.postQuotes pow r mid sig regime ++ t.tasks }
  | .submit role order => t.send r role order
  | .answered role i order result =>
    { t with
      manager := (t.manager.finishSubmit i order result).2
      maker := t.maker.setOrderId role (t.manager.finishSubmit i order result).1 }
  | .rememberQuotes mid signalBps =>
    { t with maker := { t.maker with lastQuotedMid := mid, lastSignalBps := signalBps } }

/-- The venue has the quantity of a fill to give. -/
def canFill (t : Quoting) (u : FillUpdate) : Option ℕ :=
  t.working.findIdx? fun o => o.clientOrderId == u.clientOrderId && u.fillQty ≤ o.unfilled

/-- An order that a terminal update has ended works no more. -/
def ended (u : FillUpdate) (working : List WorkingOrder) : List WorkingOrder :=
  if u.newState.terminal then working.filter fun o => o.clientOrderId ≠ u.clientOrderId
  else working

/-- The venue reports on an order. A report without a quantity may come for any order, a fill only
for one that works and has the quantity left. -/
def report (t : Quoting) (u : FillUpdate) : Quoting :=
  if u.fillQty ≤ 0 then
    { t with manager := t.manager.receive u, working := ended u t.working }
  else
    match t.canFill u with
    | none => t
    | some i =>
      { t with
        manager := t.manager.receive u
        working := ended u
          (t.working.modify i fun o => { o with unfilled := o.unfilled - u.fillQty }) }

/-- What happens in a run: a call of `on_book_update`, which the kill switch may stop, the next task
of the call, a report of the venue, or a call of `set_alpha_signal`. -/
inductive Event
  | onBookUpdate (killed : Bool)
  | proceed (r : Reading)
  | report (u : FillUpdate)
  | setAlphaSignal (signalBps riskScore : ℚ)

def step (pow : ℚ → ℚ → ℚ) (t : Quoting) : Event → Quoting
  | .onBookUpdate killed =>
    if t.tasks = [] ∧ killed = false then { t with tasks := [.drainFills, .readMarket] } else t
  | .proceed r =>
    match t.tasks with
    | [] => t
    | task :: rest => { t with tasks := rest }.run pow r task
  | .report u => t.report u
  | .setAlphaSignal signalBps riskScore =>
    { t with maker := t.maker.setAlphaSignal signalBps riskScore }

end Quoting

end TradingInfrastructure
