import TradingInfrastructure.Connectors.OkxConnector

/-!
# The Coinbase connector

`core/execution/coinbase/coinbase_connector.cpp`: what the connector makes of an order and of the
replies to its requests. The texts of the requests are left out.
-/

namespace TradingInfrastructure

namespace CoinbaseConnector

variable (lib : VenueLibrary)

/-- `parse_order_id`: whether there is one, and the venue order id as it leaves it. -/
def parseOrderId (body venueOrderId : CString) : Except ReplyFault (Bool × CString) :=
  match lib.parse body with
  | none => return (false, venueOrderId)
  | some json => do
    let success ← json.flag "success"
    if success || json.has "success_response" then
      let id ← (← json.member "success_response").text "order_id"
      return (!id.isEmpty, id)
    else if json.has "order_id" then
      let id ← json.text "order_id"
      return (!id.isEmpty, id)
    else return (!venueOrderId.isEmpty, venueOrderId)

/-- `parse_order_status`. -/
def parseOrderStatus (raw : CString) : OrderState :=
  if raw = "OPEN".toList then .open_
  else if raw = "FILLED".toList then .filled
  else if raw = "CANCELLED".toList then .canceled
  else if raw = "REJECTED".toList ∨ raw = "FAILED".toList then .rejected
  else .pending

/-- `parse_query_status`. -/
def parseQueryStatus (body : CString) (status : FillUpdate) (nowNs : ℤ) :
    Except ReplyFault (Option FillUpdate) :=
  match lib.parse body with
  | none => return none
  | some json => do
    let order ← json.member "order"
    if !order.isObject then return none
    let executed ← order.number "filled_size"
    let average ← order.number "average_filled_price"
    return some { status with
      cumulativeFilledQty := executed, fillQty := executed, avgFillPrice := average
      fillPrice := average, newState := parseOrderStatus (← order.text "status")
      localTsNs := nowNs }

/-- `parse_cancel_result`. -/
def parseCancelResult (body : CString) : Except ReplyFault Bool :=
  match lib.parse body with
  | none => return false
  | some json => do
    match ← json.member "results" with
    | .array (item :: _) => item.flag "success"
    | _ => return false

/-! ## Requests -/

/-- `submit_to_venue`, with the venue order id as it leaves it. -/
def submitToVenue (order : Order) (reply : VenueReply) (venueOrderId : CString) :
    Except ReplyFault (ConnectorResult × CString) := do
  if order.type = .stopLimit then return (.errorInvalidOrder, venueOrderId)
  let _ ← mapSymbol .coinbase order.symbol.chars
  if !reply.ok then return (HttpResponse.classifyHttpError reply.status, venueOrderId)
  let (found, venueOrderId) ← parseOrderId lib reply.body venueOrderId
  return (if found then .ok else .errorUnknown, venueOrderId)

/-- `cancel_at_venue`. -/
def cancelAtVenue (reply : VenueReply) : Except ReplyFault ConnectorResult := do
  if !reply.ok then return HttpResponse.classifyHttpError reply.status
  return if ← parseCancelResult lib reply.body then .ok else .errorUnknown

/-- `replace_at_venue`. -/
def replaceAtVenue (replacement : Order) (reply : VenueReply) (venueOrderId : CString) :
    Except ReplyFault (ConnectorResult × CString) := do
  if replacement.type ≠ .limit then return (.errorInvalidOrder, venueOrderId)
  if !reply.ok then return (HttpResponse.classifyHttpError reply.status, venueOrderId)
  let (found, venueOrderId) ← parseOrderId lib reply.body venueOrderId
  return (if found then .ok else .errorUnknown, venueOrderId)

/-- `query_at_venue`. -/
def queryAtVenue (reply : VenueReply) (status : FillUpdate) (nowNs : ℤ) :
    Except ReplyFault (ConnectorResult × FillUpdate) := do
  if !reply.ok then return (HttpResponse.classifyHttpError reply.status, status)
  match ← parseQueryStatus lib reply.body status nowNs with
  | some status => return (.ok, status)
  | none => return (.errorUnknown, status)

/-! ## The snapshot -/

/-- The limit price in the configuration of an order, where it has one. -/
def configuredPrice (item : Json) : Except ReplyFault ℚ :=
  match item.find "order_configuration".toList with
  | some (.object fields) =>
    let cfg := Json.object fields
    if cfg.has "limit_limit_gtc" then do (← cfg.member "limit_limit_gtc").number "limit_price"
    else if cfg.has "sor_limit_ioc" then do (← cfg.member "sor_limit_ioc").number "limit_price"
    else if cfg.has "limit_limit_fok" then do (← cfg.member "limit_limit_fok").number "limit_price"
    else return 0
  | _ => return 0

/-- An open order. -/
def readOrder (item : Json) : Except ReplyFault ReconciledOrder := do
  let orderId ← item.text "order_id"
  let symbol ← item.text "product_id"
  let side ← item.text "side" "BUY"
  let quantity ← item.number "base_size"
  let filledQuantity ← item.number "filled_size"
  let configured ← configuredPrice item
  let price ← if configured ≤ 0 then item.number "limit_price" else pure configured
  return { venueOrderId := strncpyBuf 64 orderId
           symbol := strncpyBuf 16 symbol
           side := if side == "SELL".toList then .ask else .bid
           quantity, filledQuantity, price
           state := parseOrderStatus (← item.text "status") }

/-- A balance. -/
def readBalance (item : Json) : Except ReplyFault ReconciledBalance := do
  let asset ← item.text "currency"
  let available ← (← item.member "available_balance").number "value"
  let hold ← (← item.member "hold").number "value"
  return { asset := strncpyBuf 16 asset, total := available + hold, available }

/-- A position. -/
def readPosition (item : Json) : Except ReplyFault ReconciledPosition := do
  return { symbol := strncpyBuf 16 (← item.text "product_id")
           quantity := ← item.number "size" (← item.number "number_of_contracts")
           avgEntryPrice := ← item.number "average_entry_price" (← item.number "avg_entry_price") }

/-- A fill. -/
def readFill (item : Json) : Except ReplyFault ReconciledFill := do
  let tradeId ← item.text "trade_id"
  let orderId ← item.text "order_id"
  let symbol ← item.text "product_id"
  let side ← item.text "side" "BUY"
  let quantity ← item.number "size"
  let price ← item.number "price"
  return { exchange := .coinbase
           venueTradeId := strncpyBuf 64 tradeId
           venueOrderId := strncpyBuf 64 orderId
           symbol := strncpyBuf 16 symbol
           side := if side == "SELL".toList then .ask else .bid
           quantity, price
           notional := quantity * price
           fee := ← item.number "commission"
           feeAsset := strncpyBuf 16 (← item.text "commission_currency")
           exchangeTsNs := ← item.int64 "trade_time_ns" }

/-- `append_open_orders`. -/
def appendOpenOrders (body : CString) : FetchStep := fun s => do
  match ← memberOf (lib.parse body) "orders" with
  | .array items => FetchStep.orders readOrder items s
  | _ => return (.errorUnknown, s)

/-- `append_balances`. -/
def appendBalances (body : CString) : FetchStep := fun s => do
  match ← memberOf (lib.parse body) "accounts" with
  | .array items => FetchStep.balances readBalance items s
  | _ => return (.errorUnknown, s)

/-- `append_positions`. -/
def appendPositions (body : CString) : FetchStep := fun s => do
  match ← memberOf (lib.parse body) "positions" with
  | .array items => FetchStep.positions readPosition items s
  | _ => return (.errorUnknown, s)

/-- `append_fills`. -/
def appendFills (body : CString) : FetchStep := fun s => do
  match ← memberOf (lib.parse body) "fills" with
  | .array items => FetchStep.fills readFill items s
  | _ => return (.errorUnknown, s)

/-- `fetch_reconciliation_snapshot`. -/
def fetchReconciliationSnapshot (replies : AccountReplies) :
    Except ReplyFault (ConnectorResult × ReconciliationSnapshot) :=
  FetchStep.andThen (OkxConnector.fetchPart replies.openOrders (appendOpenOrders lib))
    (FetchStep.andThen (OkxConnector.fetchPart replies.account (appendBalances lib))
      (FetchStep.andThen (OkxConnector.fetchFills replies.positions (appendPositions lib))
        (OkxConnector.fetchFills replies.fills (appendFills lib)))) .empty

end CoinbaseConnector

end TradingInfrastructure
