import TradingInfrastructure.Connectors.VenueReplies

/-!
# The OKX connector

`core/execution/okx/okx_connector.cpp`: what the connector makes of an order and of the replies to
its requests. The texts of the requests are left out.
-/

namespace TradingInfrastructure

/-- The replies to the requests of a fetch: of OKX, and of Coinbase. -/
structure AccountReplies where
  openOrders : VenueReply
  account : VenueReply
  positions : VenueReply
  fills : VenueReply

namespace OkxConnector

variable (lib : VenueLibrary)

/-- The first element of `data`, where there is one. -/
def firstOf (json : Json) : Except ReplyFault (Option Json) := do
  match ← json.member "data" with
  | .array (item :: _) => return some item
  | _ => return none

/-- `parse_order_id`: whether it finds one, and the venue order id as it leaves it. -/
def parseOrderId (body venueOrderId : CString) : Except ReplyFault (Bool × CString) :=
  match lib.parse body with
  | none => return (false, venueOrderId)
  | some json => do
    match ← firstOf json with
    | some item =>
      let id ← item.text "ordId"
      return (!id.isEmpty, id)
    | none => return (false, venueOrderId)

/-- What a code that is not "0" says. -/
def classifyCode (code : CString) (insufficient : Bool) : ConnectorResult :=
  if code = "50011".toList then .errorRateLimit
  else if code = "50113".toList ∨ code = "50114".toList then .authFailed
  else if insufficient ∧ code = "51008".toList then .errorInsufficientFunds
  else .errorInvalidOrder

/-- `classify_okx_business_error`. -/
def classifyOkxBusinessError (body : CString) : Except ReplyFault ConnectorResult :=
  match lib.parse body with
  | none => return .errorUnknown
  | some json => do
    let topCode ← json.text "code"
    if topCode ≠ [] ∧ topCode ≠ "0".toList then return classifyCode topCode false
    match ← firstOf json with
    | some item =>
      let subCode ← item.text "sCode"
      if subCode = [] ∨ subCode = "0".toList then return .errorUnknown
      return classifyCode subCode true
    | none => return .errorUnknown

/-- `parse_order_status`. -/
def parseOrderStatus (raw : CString) : OrderState :=
  if raw = "live".toList then .open_
  else if raw = "partially_filled".toList then .partiallyFilled
  else if raw = "filled".toList then .filled
  else if raw = "canceled".toList then .canceled
  else .rejected

/-- `parse_query_status`. -/
def parseQueryStatus (body : CString) (status : FillUpdate) (nowNs : ℤ) :
    Except ReplyFault (Option FillUpdate) :=
  match lib.parse body with
  | none => return none
  | some json => do
    match ← firstOf json with
    | some item =>
      let executed ← item.number "accFillSz"
      let average ← item.number "avgPx"
      return some { status with
        cumulativeFilledQty := executed, fillQty := executed, avgFillPrice := average
        fillPrice := average, newState := parseOrderStatus (← item.text "state")
        localTsNs := nowNs }
    | none => return none

/-- `parse_cancel_result`. -/
def parseCancelResult (body : CString) : Except ReplyFault Bool :=
  match lib.parse body with
  | none => return false
  | some json => do
    match ← firstOf json with
    | some item => return (← item.text "sCode") == "0".toList
    | none => return false

/-! ## Requests -/

/-- `submit_to_venue`, with the venue order id as it leaves it. The payload of a stop order is
empty. -/
def submitToVenue (order : Order) (reply : VenueReply) (venueOrderId : CString) :
    Except ReplyFault (ConnectorResult × CString) := do
  if order.type = .stopLimit then return (.errorInvalidOrder, venueOrderId)
  let _ ← mapSymbol .okx order.symbol.chars
  if !reply.ok then return (HttpResponse.classifyHttpError reply.status, venueOrderId)
  let (found, venueOrderId) ← parseOrderId lib reply.body venueOrderId
  if found then return (.ok, venueOrderId)
  return (← classifyOkxBusinessError lib reply.body, venueOrderId)

/-- `cancel_at_venue`. -/
def cancelAtVenue (entry : VenueOrderEntry) (reply : VenueReply) :
    Except ReplyFault ConnectorResult := do
  let _ ← mapSymbol .okx entry.symbol.chars
  if !reply.ok then return HttpResponse.classifyHttpError reply.status
  return if ← parseCancelResult lib reply.body then .ok else .errorUnknown

/-- `replace_at_venue`. -/
def replaceAtVenue (entry : VenueOrderEntry) (replacement : Order) (reply : VenueReply)
    (venueOrderId : CString) : Except ReplyFault (ConnectorResult × CString) := do
  if replacement.type = .stopLimit then return (.errorInvalidOrder, venueOrderId)
  let _ ← mapSymbol .okx entry.symbol.chars
  if !reply.ok then return (HttpResponse.classifyHttpError reply.status, venueOrderId)
  let (found, venueOrderId) ← parseOrderId lib reply.body venueOrderId
  return (if found then .ok else .errorUnknown, venueOrderId)

/-- `query_at_venue`. -/
def queryAtVenue (entry : VenueOrderEntry) (reply : VenueReply) (status : FillUpdate)
    (nowNs : ℤ) : Except ReplyFault (ConnectorResult × FillUpdate) := do
  let _ ← mapSymbol .okx entry.symbol.chars
  if !reply.ok then return (HttpResponse.classifyHttpError reply.status, status)
  match ← parseQueryStatus lib reply.body status nowNs with
  | some status => return (.ok, status)
  | none => return (.errorUnknown, status)

/-! ## The snapshot -/

/-- An open order. -/
def readOrder (item : Json) : Except ReplyFault ReconciledOrder := do
  return { venueOrderId := strncpyBuf 64 (← item.text "ordId")
           symbol := strncpyBuf 16 (← item.text "instId")
           side := if (← item.text "side" "buy") == "sell".toList then .ask else .bid
           quantity := ← item.number "sz"
           filledQuantity := ← item.number "accFillSz"
           price := ← item.number "px"
           state := parseOrderStatus (← item.text "state") }

/-- A balance. -/
def readBalance (item : Json) : Except ReplyFault ReconciledBalance := do
  return { asset := strncpyBuf 16 (← item.text "ccy")
           total := ← item.number "eq"
           available := ← item.number "availEq" }

/-- A position. -/
def readPosition (item : Json) : Except ReplyFault ReconciledPosition := do
  return { symbol := strncpyBuf 16 (← item.text "instId")
           quantity := ← item.number "pos"
           avgEntryPrice := ← item.number "avgPx" }

/-- A fill. -/
def readFill (item : Json) : Except ReplyFault ReconciledFill := do
  let tradeId ← item.text "tradeId"
  let orderId ← item.text "ordId"
  let symbol ← item.text "instId"
  let side ← item.text "side" "buy"
  let quantity ← item.number "fillSz"
  let price ← item.number "fillPx"
  return { exchange := .okx
           venueTradeId := strncpyBuf 64 tradeId
           venueOrderId := strncpyBuf 64 orderId
           symbol := strncpyBuf 16 symbol
           side := if side == "sell".toList then .ask else .bid
           quantity, price
           notional := quantity * price
           fee := |← item.number "fee"|
           feeAsset := strncpyBuf 16 (← item.text "feeCcy")
           exchangeTsNs := (← item.int64 "ts") * 1000000 }

/-- `append_open_orders`. -/
def appendOpenOrders (body : CString) : FetchStep := fun s => do
  match ← memberOf (lib.parse body) "data" with
  | .array items => FetchStep.orders readOrder items s
  | _ => return (.errorUnknown, s)

/-- `append_balances`. -/
def appendBalances (body : CString) : FetchStep := fun s => do
  match ← (← (← memberOf (lib.parse body) "data").first).member "details" with
  | .array items => FetchStep.balances readBalance items s
  | _ => return (.errorUnknown, s)

/-- `append_positions`. -/
def appendPositions (body : CString) : FetchStep := fun s => do
  match ← memberOf (lib.parse body) "data" with
  | .array items => FetchStep.positions readPosition items s
  | _ => return (.errorUnknown, s)

/-- `append_fills`. -/
def appendFills (body : CString) : FetchStep := fun s => do
  match ← memberOf (lib.parse body) "data" with
  | .array items => FetchStep.fills readFill items s
  | _ => return (.errorUnknown, s)

/-- The rows of a reply that is OK. -/
def fetchPart (reply : VenueReply) (append : CString → FetchStep) : FetchStep := fun s =>
  if !reply.ok then return (HttpResponse.classifyHttpError reply.status, s)
  else append reply.body s

/-- The fills, where the venue has them. -/
def fetchFills (reply : VenueReply) (append : CString → FetchStep) : FetchStep := fun s =>
  if reply.unavailable then return (.ok, s) else fetchPart reply append s

/-- `fetch_reconciliation_snapshot`. -/
def fetchReconciliationSnapshot (replies : AccountReplies) :
    Except ReplyFault (ConnectorResult × ReconciliationSnapshot) :=
  FetchStep.andThen (fetchPart replies.openOrders (appendOpenOrders lib))
    (FetchStep.andThen (fetchPart replies.account (appendBalances lib))
      (FetchStep.andThen (fetchPart replies.positions (appendPositions lib))
        (fetchFills replies.fills (appendFills lib)))) .empty

end OkxConnector

end TradingInfrastructure
