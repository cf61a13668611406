import TradingInfrastructure.Router.VenueQualityModel

/-!
# What the engine observes of a venue

The runtime of `core/engine/venue_quality_runtime.hpp`: it tracks the orders submitted and makes
observations of their submissions and fills. Times are nanoseconds.
-/

namespace TradingInfrastructure

/-- `VenueQualityRuntime::TrackedOrder`. -/
structure TrackedOrder where
  active : Bool := false
  clientOrderId : ℕ := 0
  exchange : Exchange := .binance
  side : Side := .bid
  tif : TimeInForce := .gtc
  quantity : ℚ := 0
  filledQty : ℚ := 0
  submittedAt : ℤ := 0
  deriving DecidableEq

/-- `VenueQualityRuntime`. -/
structure VenueQualityRuntime where
  model : VenueQualityModel
  trackedOrders : List TrackedOrder := List.replicate 256 {}

namespace TrackedOrder

/-- `realized_fill_quality_bps`: positive when the fill is better for us than the mid. -/
def realizedFillQualityBps (tracked : TrackedOrder) (fillPrice midPrice : ℚ) : ℚ :=
  if midPrice ≤ 0 ∨ fillPrice ≤ 0 then 0
  else
    match tracked.side with
    | .bid => (midPrice - fillPrice) / midPrice * 10000
    | .ask => (fillPrice - midPrice) / midPrice * 10000

/-- The share of the order that is filled. -/
def filledShare (tracked : TrackedOrder) : ℚ :=
  clamp (tracked.filledQty / tracked.quantity) 0 1

/-- The order after a fill: the larger of what is counted and what the venue reports. -/
def filledBy (tracked : TrackedOrder) (update : FillUpdate) : TrackedOrder :=
  { tracked with
    filledQty :=
      clamp (max tracked.filledQty
        (max update.cumulativeFilledQty (tracked.filledQty + update.fillQty))) 0 tracked.quantity }

end TrackedOrder

namespace VenueQualityRuntime

/-- `find`. -/
def find (r : VenueQualityRuntime) (clientOrderId : ℕ) (exchange : Exchange) : Option ℕ :=
  r.trackedOrders.findIdx? fun tracked =>
    tracked.active && tracked.clientOrderId == clientOrderId && tracked.exchange == exchange

/-- `acquire`. -/
def acquire (r : VenueQualityRuntime) : Option ℕ :=
  r.trackedOrders.findIdx? fun tracked => !tracked.active

/-- The order in a slot. -/
def tracked (r : VenueQualityRuntime) (i : ℕ) : TrackedOrder := r.trackedOrders.getD i {}

/-- Another order in a slot. -/
def setTracked (r : VenueQualityRuntime) (i : ℕ) (tracked : TrackedOrder) : VenueQualityRuntime :=
  { r with trackedOrders := r.trackedOrders.set i tracked }

/-- `release`. -/
def release (r : VenueQualityRuntime) (clientOrderId : ℕ) (exchange : Exchange) :
    VenueQualityRuntime :=
  match r.find clientOrderId exchange with
  | none => r
  | some i => r.setTracked i {}

/-- `on_submit`. -/
def onSubmit (r : VenueQualityRuntime) (order : Order) (result : ConnectorResult) (now : ℤ) :
    VenueQualityRuntime :=
  if result ≠ .ok then
    { r with model := r.model.observeReject order.exchange true }.release order.clientOrderId
      order.exchange
  else
    let r := { r with model := r.model.observeReject order.exchange false }
    match (r.find order.clientOrderId order.exchange).or r.acquire with
    | none => r
    | some i =>
      r.setTracked i
        { active := true
          clientOrderId := order.clientOrderId
          exchange := order.exchange
          side := order.side
          tif := order.tif
          quantity := max 0 order.quantity
          filledQty := 0
          submittedAt := now }

/-- What the model observes of how much of an order is filled, if it has a quantity. -/
def observeFilled (model : VenueQualityModel) (exchange : Exchange) (quantity share : ℚ) :
    VenueQualityModel :=
  if quantity > 0 then model.observeFillProbability exchange share else model

/-- What the model observes of the price of a fill. -/
def observePrice (model : VenueQualityModel) (exchange : Exchange) (tracked : TrackedOrder)
    (fillPrice midPrice : ℚ) : VenueQualityModel :=
  if midPrice > 0 ∧ fillPrice > 0 then
    model.observeMarkout exchange (decide (tracked.tif = .gtx))
      (tracked.realizedFillQualityBps fillPrice midPrice)
  else model

/-- `on_fill`, the part about the quantity filled of the order in slot `i`. -/
def recordFill (r : VenueQualityRuntime) (i : ℕ) (exchange : Exchange) (update : FillUpdate)
    (midPriceLookup : Exchange → ℚ) : VenueQualityRuntime :=
  if update.fillQty > 0 then
    let tracked := (r.tracked i).filledBy update
    let model := observeFilled r.model exchange tracked.quantity tracked.filledShare
    { r.setTracked i tracked with
      model := observePrice model exchange tracked update.fillPrice (midPriceLookup exchange) }
  else r

/-- `on_fill`, the part about the state of the order in slot `i`. -/
def recordState (r : VenueQualityRuntime) (i : ℕ) (exchange : Exchange) (update : FillUpdate)
    (now : ℤ) : VenueQualityRuntime :=
  let tracked := r.tracked i
  if update.newState = .canceled then
    let model := r.model.observeCancelLatency exchange ((now - tracked.submittedAt).tdiv 1000)
    { r with model := observeFilled model exchange tracked.quantity tracked.filledShare }.release
      update.clientOrderId exchange
  else if update.newState = .filled then
    { r with model := observeFilled r.model exchange tracked.quantity 1 }.release
      update.clientOrderId exchange
  else r

/-- `on_fill`. -/
def onFill (r : VenueQualityRuntime) (exchange : Exchange) (update : FillUpdate) (now : ℤ)
    (midPriceLookup : Exchange → ℚ) : VenueQualityRuntime :=
  if update.newState = .rejected then
    { r with model := r.model.observeReject exchange true }.release update.clientOrderId exchange
  else
    match r.find update.clientOrderId exchange with
    | none => r
    | some i => (r.recordFill i exchange update midPriceLookup).recordState i exchange update now

end VenueQualityRuntime

end TradingInfrastructure
