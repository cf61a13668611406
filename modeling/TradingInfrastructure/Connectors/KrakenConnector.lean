import TradingInfrastructure.Connectors.VenueReplies

/-!
# The Kraken connector

`core/execution/kraken/kraken_connector.cpp`: what the connector makes of an order and of the
replies to its requests. The texts of the requests are left out.
-/

namespace TradingInfrastructure

/-- The replies to the requests of a fetch. -/
structure KrakenReplies where
  openOrders : VenueReply
  balance : VenueReply
  trades : VenueReply

namespace KrakenConnector

variable (lib : VenueLibrary)

/-- `parse_order_id`: whether it finds one, and the venue order id as it leaves it. -/
def parseOrderId (body venueOrderId : CString) : Except ReplyFault (Bool × CString) :=
  match lib.parse body with
  | none => return (false, venueOrderId)
  | some json => do
    let txids ← (← json.member "result").member "txid"
    match txids with
    | .array (.string id :: _) => return (!id.isEmpty, id)
    | _ => return (false, venueOrderId)

/-- `classify_kraken_business_error`. -/
def classifyKrakenBusinessError (body : CString) : Except ReplyFault ConnectorResult :=
  match lib.parse body with
  | none => return .errorUnknown
  | some json => do
    match ← json.member "error" with
    | .array (.string error :: _) =>
      let tells := fun word : String => HttpResponse.contains error word.toList
      if tells "Rate limit" then return .errorRateLimit
      else if tells "Insufficient funds" then return .errorInsufficientFunds
      else if tells "Invalid key" || tells "Invalid signature" || tells "Permission denied" then
        return .authFailed
      else if tells "Order" || tells "Tick size" || tells "Pair" || tells "volume" then
        return .errorInvalidOrder
      else return .errorUnknown
    | _ => return .errorUnknown

/-- `parse_order_status`. -/
def parseOrderStatus (raw : CString) : OrderState :=
  if raw = "open".toList then .open_
  else if raw = "pending".toList then .pending
  else if raw = "closed".toList then .filled
  else if raw = "canceled".toList ∨ raw = "expired".toList then .canceled
  else .rejected

/-- `parse_query_status`, which reads the first order of the result. -/
def parseQueryStatus (body : CString) (status : FillUpdate) (nowNs : ℤ) :
    Except ReplyFault (Option FillUpdate) :=
  match lib.parse body with
  | none => return none
  | some json => do
    match ← json.member "result" with
    | .object ((_, order) :: _) =>
      let executed ← order.number "vol_exec"
      let price ← order.number "price"
      return some { status with
        cumulativeFilledQty := executed, fillQty := executed, avgFillPrice := price
        fillPrice := price, newState := parseOrderStatus (← order.text "status")
        localTsNs := nowNs }
    | _ => return none

/-- `parse_cancel_result`. -/
def parseCancelResult (body : CString) : Except ReplyFault Bool :=
  match lib.parse body with
  | none => return false
  | some json => do return decide (0 < (← (← json.member "result").int64 "count"))

/-! ## Requests -/

/-- `submit_to_venue`, with the venue order id as it leaves it. -/
def submitToVenue (order : Order) (reply : VenueReply) (venueOrderId : CString) :
    Except ReplyFault (ConnectorResult × CString) := do
  let _ ← mapSymbol .kraken order.symbol.chars
  if !reply.ok then return (HttpResponse.classifyHttpError reply.status, venueOrderId)
  let (found, venueOrderId) ← parseOrderId lib reply.body venueOrderId
  if found then return (.ok, venueOrderId)
  return (← classifyKrakenBusinessError lib reply.body, venueOrderId)

/-- `cancel_at_venue`. -/
def cancelAtVenue (reply : VenueReply) : Except ReplyFault ConnectorResult := do
  if !reply.ok then return HttpResponse.classifyHttpError reply.status
  return if ← parseCancelResult lib reply.body then .ok else .errorUnknown

/-- `replace_at_venue`, which keeps the venue order id of the order. -/
def replaceAtVenue (entry : VenueOrderEntry) (reply : VenueReply) (venueOrderId : CString) :
    ConnectorResult × CString :=
  if !reply.ok then (HttpResponse.classifyHttpError reply.status, venueOrderId)
  else (.ok, entry.venueOrderId)

/-- `query_at_venue`. -/
def queryAtVenue (reply : VenueReply) (status : FillUpdate) (nowNs : ℤ) :
    Except ReplyFault (ConnectorResult × FillUpdate) := do
  if !reply.ok then return (HttpResponse.classifyHttpError reply.status, status)
  match ← parseQueryStatus lib reply.body status nowNs with
  | some status => return (.ok, status)
  | none => return (.errorUnknown, status)

/-- `cancel_all_at_venue`. -/
def cancelAllAtVenue (reply : VenueReply) : ConnectorResult :=
  if !reply.ok then HttpResponse.classifyHttpError reply.status
  else
    match lib.parse reply.body with
    | some json => if json.has "result" then .ok else .errorUnknown
    | none => .errorUnknown

/-! ## The snapshot -/

/-- An open order, under its id. -/
def readOrder (row : CString × Json) : Except ReplyFault ReconciledOrder := do
  let descr ← row.2.member "descr"
  return { venueOrderId := strncpyBuf 64 row.1
           symbol := strncpyBuf 16 (← descr.text "pair")
           side := if (← descr.text "type" "buy") == "sell".toList then .ask else .bid
           quantity := ← row.2.number "vol"
           filledQuantity := ← row.2.number "vol_exec"
           price := ← descr.number "price"
           state := parseOrderStatus (← row.2.text "status") }

/-- A balance, under its asset. -/
def readBalance (row : CString × Json) : Except ReplyFault ReconciledBalance := do
  let total ← row.2.getNumber.mapError .thrown
  return { asset := strncpyBuf 16 row.1, total, available := total }

/-- A trade, under its id. -/
def readFill (row : CString × Json) : Except ReplyFault ReconciledFill := do
  let orderId ← row.2.text "ordertxid"
  let symbol ← row.2.text "pair"
  let side ← row.2.text "type" "buy"
  let quantity ← row.2.number "vol"
  let price ← row.2.number "price"
  return { exchange := .kraken
           venueTradeId := strncpyBuf 64 row.1
           venueOrderId := strncpyBuf 64 orderId
           symbol := strncpyBuf 16 symbol
           side := if side == "sell".toList then .ask else .bid
           quantity, price
           notional := ← row.2.number "cost" (quantity * price)
           fee := ← row.2.number "fee"
           feeAsset := strncpyBuf 16 (← row.2.text "fee_ccy")
           exchangeTsNs := Json.truncate ((← row.2.number "time") * 10 ^ 9) }

/-- The open orders. -/
def fetchOrders (reply : VenueReply) : FetchStep := fun s => do
  if !reply.ok then return (HttpResponse.classifyHttpError reply.status, s)
  match ← (← memberOf (lib.parse reply.body) "result").member "open" with
  | .object rows => FetchStep.orders readOrder rows s
  | _ => return (.errorUnknown, s)

/-- The balances. -/
def fetchBalances (reply : VenueReply) : FetchStep := fun s => do
  if !reply.ok then return (HttpResponse.classifyHttpError reply.status, s)
  match ← memberOf (lib.parse reply.body) "result" with
  | .object rows => FetchStep.balances readBalance rows s
  | _ => return (.errorUnknown, s)

/-- The trades. -/
def fetchTrades (reply : VenueReply) : FetchStep := fun s => do
  if reply.unavailable then return (.ok, s)
  if !reply.ok then return (HttpResponse.classifyHttpError reply.status, s)
  match ← (← memberOf (lib.parse reply.body) "result").member "trades" with
  | .object rows => FetchStep.fills readFill rows s
  | _ => return (.errorUnknown, s)

/-- `fetch_reconciliation_snapshot`. -/
def fetchReconciliationSnapshot (replies : KrakenReplies) :
    Except ReplyFault (ConnectorResult × ReconciliationSnapshot) :=
  FetchStep.andThen (fetchOrders lib replies.openOrders)
    (FetchStep.andThen (fetchBalances lib replies.balance) (fetchTrades lib replies.trades)) .empty

end KrakenConnector

end TradingInfrastructure
