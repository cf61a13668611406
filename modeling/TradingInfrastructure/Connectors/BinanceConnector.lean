import TradingInfrastructure.Connectors.VenueReplies

/-!
# The Binance connector

`core/execution/binance/binance_connector.cpp`: what the connector makes of an order and of the
replies to its requests. The texts of the requests are left out.
-/

namespace TradingInfrastructure

/-- The order id that a member of a reply holds, if it is a number or a text. -/
def Json.orderId? : Json → Option CString
  | .unsigned n => some (toString n.toNat).toList
  | .integer n => some (toString n).toList
  | .string s => some s
  | _ => none

theorem Json.sizeOf_find {json member : Json} {key : CString} (h : json.find key = some member) :
    sizeOf member < sizeOf json := by
  cases json with
  | object fields =>
    obtain ⟨field, hfield, rfl⟩ := Option.map_eq_some_iff.mp h
    have hmem := List.sizeOf_lt_of_mem (List.mem_of_find?_eq_some hfield)
    rcases field with ⟨k, v⟩
    simp only [Prod.mk.sizeOf_spec] at hmem
    simp only [object.sizeOf_spec]
    omega
  | _ => cases h

/-- The replies to the requests of a fetch. -/
structure BinanceReplies where
  account : VenueReply
  openOrders : VenueReply
  trades : CString → VenueReply

namespace BinanceConnector

variable (lib : VenueLibrary)

/-- `validate_order_request`. -/
def validateOrderRequest (order : Order) : Bool :=
  !order.symbol.chars.isEmpty && decide (0 < order.quantity) && order.type != .stopLimit &&
    (order.type == .market || decide (0 < order.price))

/-- `classify_order_response`. -/
def classifyOrderResponse (reply : VenueReply) : ConnectorResult :=
  let insufficient := match lib.parse reply.body with
    | some json =>
      let message := json.jsonString "msg" lib
      HttpResponse.contains message "insufficient".toList ||
        HttpResponse.contains message "Insufficient".toList
    | none => false
  if insufficient then .errorInsufficientFunds else HttpResponse.classifyHttpError reply.status

/-- `parse_order_id_value`: the order id, where it finds one. -/
def parseOrderIdValue (json : Json) : Option CString :=
  match (json.find "orderId".toList).bind Json.orderId? with
  | some id => some id
  | none =>
    match _hnew : json.find "newOrderResponse".toList with
    | some order => parseOrderIdValue order
    | none =>
      match _hamended : json.find "amendedOrder".toList with
      | some order => parseOrderIdValue order
      | none => none
termination_by sizeOf json
decreasing_by
  · exact Json.sizeOf_find _hnew
  · exact Json.sizeOf_find _hamended

/-- `parse_order_id`. -/
def parseOrderId (body : CString) : Option CString := (lib.parse body).bind parseOrderIdValue

/-- `parse_order_status`. -/
def parseOrderStatus (raw : CString) : OrderState :=
  if raw = "NEW".toList ∨ raw = "PENDING_NEW".toList then .open_
  else if raw = "PARTIALLY_FILLED".toList then .partiallyFilled
  else if raw = "FILLED".toList then .filled
  else if raw = "CANCELED".toList ∨ raw = "PENDING_CANCEL".toList then .canceled
  else if raw = "REJECTED".toList ∨ raw = "EXPIRED".toList ∨ raw = "EXPIRED_IN_MATCH".toList then
    .rejected
  else .pending

/-- `parse_query_status`. -/
def parseQueryStatus (body : CString) (status : FillUpdate) (nowNs : ℤ) :
    Except ReplyFault (Option FillUpdate) :=
  match lib.parse body with
  | none => return none
  | some json => do
    let executed := json.jsonNumber "executedQty" lib
    let average := json.jsonNumber "avgPrice" lib
    let average :=
      if average ≤ 0 ∧ 0 < executed then json.jsonNumber "cummulativeQuoteQty" lib / executed
      else average
    return some { status with
      cumulativeFilledQty := executed, fillQty := executed, avgFillPrice := average
      fillPrice := average, newState := parseOrderStatus (← json.text "status"),
        localTsNs := nowNs }

/-- `parse_cancel_result`. -/
def parseCancelResult (body : CString) : Except ReplyFault Bool :=
  match lib.parse body with
  | none => return false
  | some json =>
    if json.has "cancelResult" then do return (← json.text "cancelResult") == "SUCCESS".toList
    else if json.has "orderId" then return true
    else do return (← json.text "status") == "CANCELED".toList

/-! ## Requests -/

/-- `submit_to_venue`, with the venue order id as it leaves it. -/
def submitToVenue (order : Order) (reply : VenueReply) (venueOrderId : CString) :
    Except ReplyFault (ConnectorResult × CString) := do
  if !validateOrderRequest order then return (.errorInvalidOrder, venueOrderId)
  let _ ← mapSymbol .binance order.symbol.chars
  if !reply.ok then return (classifyOrderResponse lib reply, venueOrderId)
  match parseOrderId lib reply.body with
  | some id => return (.ok, id)
  | none => return (.errorUnknown, venueOrderId)

/-- `cancel_at_venue`. -/
def cancelAtVenue (entry : VenueOrderEntry) (reply : VenueReply) :
    Except ReplyFault ConnectorResult := do
  let _ ← mapSymbol .binance entry.symbol.chars
  if !reply.ok then return classifyOrderResponse lib reply
  return if ← parseCancelResult lib reply.body then .ok else .errorUnknown

/-- `replace_at_venue`. -/
def replaceAtVenue (entry : VenueOrderEntry) (replacement : Order) (reply : VenueReply)
    (venueOrderId : CString) : Except ReplyFault (ConnectorResult × CString) := do
  if !validateOrderRequest replacement then return (.errorInvalidOrder, venueOrderId)
  if entry.symbol ≠ replacement.symbol then return (.errorInvalidOrder, venueOrderId)
  let _ ← mapSymbol .binance entry.symbol.chars
  if !reply.ok then return (classifyOrderResponse lib reply, venueOrderId)
  let cancelled ← parseCancelResult lib reply.body
  if !cancelled && !HttpResponse.contains reply.body "newOrderResponse".toList then
    return (.errorUnknown, venueOrderId)
  match parseOrderId lib reply.body with
  | some id => return (.ok, id)
  | none => return (.errorUnknown, venueOrderId)

/-- `query_at_venue`. -/
def queryAtVenue (entry : VenueOrderEntry) (reply : VenueReply) (status : FillUpdate)
    (nowNs : ℤ) : Except ReplyFault (ConnectorResult × FillUpdate) := do
  let _ ← mapSymbol .binance entry.symbol.chars
  if !reply.ok then return (classifyOrderResponse lib reply, status)
  match ← parseQueryStatus lib reply.body status nowNs with
  | some status => return (.ok, status)
  | none => return (.errorUnknown, status)

/-- `cancel_all_at_venue`. -/
def cancelAllAtVenue (symbol : CString) (reply : VenueReply) :
    Except ReplyFault ConnectorResult := do
  if symbol = [] then return .errorInvalidOrder
  let _ ← mapSymbol .binance symbol
  if !reply.ok then return classifyOrderResponse lib reply
  match lib.parse reply.body with
  | some (.array _) => return .ok
  | _ => return .errorUnknown

/-! ## The snapshot -/

/-- A balance of the account. -/
def readBalance (item : Json) : Except ReplyFault ReconciledBalance := do
  return { asset := strncpyBuf 16 (← item.text "asset")
           total := item.jsonNumber "free" lib + item.jsonNumber "locked" lib
           available := item.jsonNumber "free" lib }

/-- An open order. -/
def readOrder (item : Json) : Except ReplyFault ReconciledOrder := do
  return { clientOrderId := parseClientOrderId (item.jsonString "clientOrderId" lib)
           venueOrderId := strncpyBuf 64 (item.jsonString "orderId" lib)
           symbol := strncpyBuf 16 (item.jsonString "symbol" lib)
           side := if (← item.text "side" "BUY") == "SELL".toList then .ask else .bid
           quantity := item.jsonNumber "origQty" lib
           filledQuantity := item.jsonNumber "executedQty" lib
           price := item.jsonNumber "price" lib
           state := parseOrderStatus (← item.text "status") }

/-- A trade. -/
def readFill (item : Json) : Except ReplyFault ReconciledFill := do
  let orderId ← item.uint64 "orderId"
  let tradeId ← item.uint64 "id"
  let quantity := item.jsonNumber "qty" lib
  let price := item.jsonNumber "price" lib
  return { exchange := .binance
           clientOrderId := orderId.toNat
           venueOrderId := strncpyBuf 64 (toString orderId.toNat).toList
           venueTradeId := strncpyBuf 64 (toString tradeId.toNat).toList
           symbol := strncpyBuf 16 (← item.text "symbol")
           side := if ← item.flag "isBuyer" true then .bid else .ask
           quantity, price
           notional := quantity * price
           fee := item.jsonNumber "commission" lib
           feeAsset := strncpyBuf 16 (← item.text "commissionAsset")
           exchangeTsNs := (← item.int64 "time") * 1000000 }

/-- The balances of the account. -/
def fetchBalances (reply : VenueReply) : FetchStep := fun s => do
  if !reply.ok then return (classifyOrderResponse lib reply, s)
  match lib.parse reply.body with
  | none => return (.errorUnknown, s)
  | some json =>
    match ← json.member "balances" with
    | .array items => FetchStep.balances (readBalance lib) items s
    | _ => return (.errorUnknown, s)

/-- The symbols of the orders of the map, and of the open orders. -/
def symbolsOf (map : VenueOrderMap) (items : List Json) : List CString :=
  textSet (((map.filter fun entry => entry.active && !entry.symbol.chars.isEmpty).filterMap
      fun entry => SymbolMapper.mapForExchange .binance entry.symbol.chars) ++
    ((items.map fun item => item.jsonString "symbol" lib).filter fun symbol => !symbol.isEmpty))

/-- The trades of one symbol after another. -/
def fetchTrades (trades : CString → VenueReply) : List CString → FetchStep
  | [] => .stop .ok
  | symbol :: symbols => fun s => do
    let reply := trades symbol
    if reply.unavailable then fetchTrades trades symbols s
    else if !reply.ok then return (classifyOrderResponse lib reply, s)
    else
      match lib.parse reply.body with
      | some (.array items) =>
        (FetchStep.fills (readFill lib) items).andThen (fetchTrades trades symbols) s
      | _ => return (.errorUnknown, s)

/-- The open orders, and the trades of their symbols. -/
def fetchOrders (map : VenueOrderMap) (replies : BinanceReplies) : FetchStep := fun s => do
  if !replies.openOrders.ok then return (classifyOrderResponse lib replies.openOrders, s)
  match lib.parse replies.openOrders.body with
  | some (.array items) =>
    (FetchStep.orders (readOrder lib) items).andThen
      (fetchTrades lib replies.trades (symbolsOf lib map items)) s
  | _ => return (.errorUnknown, s)

/-- `fetch_reconciliation_snapshot`. -/
def fetchReconciliationSnapshot (map : VenueOrderMap) (replies : BinanceReplies) :
    Except ReplyFault (ConnectorResult × ReconciliationSnapshot) :=
  (FetchStep.andThen (fetchBalances lib replies.account) (fetchOrders lib map replies)) .empty

end BinanceConnector

end TradingInfrastructure
