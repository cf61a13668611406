import TradingInfrastructure.Connectors.BinanceConnector

/-!
# The Binance futures connector

`core/execution/binance/binance_futures_connector.cpp`: what the connector makes of an order, with
the filters of its symbol, and of the replies to its requests. The texts of the requests are left
out. Numbers are rationals.
-/

namespace TradingInfrastructure

/-- `BinanceFuturesSymbolFilters`. -/
structure BinanceFuturesSymbolFilters where
  valid : Bool := false
  minPrice : ℚ := 0
  maxPrice : ℚ := 0
  tickSize : ℚ := 0
  minQty : ℚ := 0
  maxQty : ℚ := 0
  stepSize : ℚ := 0
  minMarketQty : ℚ := 0
  maxMarketQty : ℚ := 0
  marketStepSize : ℚ := 0
  minNotional : ℚ := 0
  triggerProtect : ℚ := 0
  deriving DecidableEq

/-- `symbol_filters_`. -/
abbrev SymbolFilters := List (CString × BinanceFuturesSymbolFilters)

/-- The replies to the requests of a submission or a replacement: for the filters, and for the
order. -/
structure FuturesReplies where
  exchangeInfo : VenueReply
  order : VenueReply

/-- The replies to the requests of a fetch. -/
structure FuturesFetchReplies where
  balance : VenueReply
  openOrders : VenueReply
  positions : VenueReply
  trades : CString → VenueReply

namespace BinanceFuturesConnector

variable (lib : VenueLibrary)

/-- `map_binance_futures_symbol`. -/
def mapBinanceFuturesSymbol (symbol : CString) : Except ReplyFault CString :=
  match SymbolMapper.mapForBinanceUsdmFutures symbol with
  | some mapped => .ok mapped
  | none => .error (.thrown .invalidArgument)

/-- `validate_order_request`. -/
def validateOrderRequest (order : Order) : ConnectorResult :=
  if order.symbol.chars = [] then .errorInvalidOrder
  else if order.closePosition ∧ (order.type ≠ .stopLimit ∨ 0 < order.quantity) then
    .errorFuturesClosePositionConflict
  else if ¬ order.closePosition ∧ order.quantity ≤ 0 then .errorInvalidOrder
  else if order.type = .limit ∧ order.price ≤ 0 then .errorInvalidOrder
  else if order.type = .stopLimit ∧ order.stopPrice ≤ 0 then .errorInvalidOrder
  else if order.futuresPositionMode = .hedge then
    if order.futuresPositionSide ≠ .long ∧ order.futuresPositionSide ≠ .short then
      .errorFuturesPositionSideRequired
    else .ok
  else if order.futuresPositionSide = .long ∨ order.futuresPositionSide = .short then
    .errorFuturesPositionSideInvalid
  else .ok

/-- The code of a reply, if it is an integer: `get<int>`. -/
def codeOf (json : Json) : Option ℤ :=
  match json.find "code".toList with
  | some (.unsigned n) => some ((n.toNat : ℤ).bmod (2 ^ 32))
  | some (.integer n) => some (n.bmod (2 ^ 32))
  | _ => none

/-- `classify_response`. -/
def classifyResponse (reply : VenueReply) : ConnectorResult :=
  match (lib.parse reply.body).bind codeOf with
  | some code =>
    if code = -2015 ∨ code = -2014 then .authFailed
    else if code = -1003 ∨ code = -1008 ∨ code = -1015 then .errorRateLimit
    else if code = -1021 then .errorRestFailure
    else if code = -2022 then .errorInvalidOrder
    else HttpResponse.classifyHttpError reply.status
  | none => HttpResponse.classifyHttpError reply.status

/-- `parse_order_id`. -/
def parseOrderId (body : CString) : Option CString :=
  (lib.parse body).bind fun json => (json.find "orderId".toList).bind Json.orderId?

/-- `parse_order_status`. -/
def parseOrderStatus (raw : CString) : OrderState :=
  if raw = "NEW".toList ∨ raw = "PENDING_NEW".toList then .open_
  else if raw = "PARTIALLY_FILLED".toList then .partiallyFilled
  else if raw = "FILLED".toList then .filled
  else if raw = "CANCELED".toList ∨ raw = "PENDING_CANCEL".toList then .canceled
  else if raw = "REJECTED".toList ∨ raw = "EXPIRED".toList then .rejected
  else .pending

/-- `parse_query_status`. -/
def parseQueryStatus (body : CString) (status : FillUpdate) (nowNs : ℤ) :
    Except ReplyFault (Option FillUpdate) :=
  match lib.parse body with
  | none => return none
  | some json => do
    let executed := json.jsonNumber "executedQty" lib
    let average := json.jsonNumber "avgPrice" lib
    return some { status with
      cumulativeFilledQty := executed, fillQty := executed, avgFillPrice := average
      fillPrice := average, newState := parseOrderStatus (← json.text "status"),
        localTsNs := nowNs }

/-- `parse_cancel_result`. -/
def parseCancelResult (body : CString) : Except ReplyFault Bool :=
  match lib.parse body with
  | none => return false
  | some json =>
    if json.has "orderId" then return true
    else do return (← json.text "status") == "CANCELED".toList

/-! ## The filters of a symbol -/

/-- `normalize_down`. -/
def normalizeDown (value step : ℚ) : ℚ :=
  if step ≤ 0 then value else ⌊value / step + 1 / 10 ^ 12⌋ * step

/-- `within_step_tolerance`. -/
def withinStepTolerance (original normalized step : ℚ) : Bool :=
  |original - normalized| ≤ max (step / 10 ^ 8) (1 / 10 ^ 12)

/-- `parse_double_field`: what is read, or what was there. -/
def parseDoubleField (json : Json) (key : String) (out : ℚ) : ℚ :=
  match json.find key.toList with
  | some (.string s) => (lib.strtod s).getD out
  | some member => member.toNumber?.getD out
  | none => out

/-- What a filter adds. -/
def applyFilter (filter : Json) (out : BinanceFuturesSymbolFilters) :
    Except ReplyFault BinanceFuturesSymbolFilters := do
  let filterType ← filter.text "filterType"
  if filterType == "PRICE_FILTER".toList then
    return { out with
      minPrice := parseDoubleField lib filter "minPrice" out.minPrice
      maxPrice := parseDoubleField lib filter "maxPrice" out.maxPrice
      tickSize := parseDoubleField lib filter "tickSize" out.tickSize }
  else if filterType == "LOT_SIZE".toList then
    return { out with
      minQty := parseDoubleField lib filter "minQty" out.minQty
      maxQty := parseDoubleField lib filter "maxQty" out.maxQty
      stepSize := parseDoubleField lib filter "stepSize" out.stepSize }
  else if filterType == "MARKET_LOT_SIZE".toList then
    return { out with
      minMarketQty := parseDoubleField lib filter "minQty" out.minMarketQty
      maxMarketQty := parseDoubleField lib filter "maxQty" out.maxMarketQty
      marketStepSize := parseDoubleField lib filter "stepSize" out.marketStepSize }
  else if filterType == "MIN_NOTIONAL".toList || filterType == "NOTIONAL".toList then
    let notional := parseDoubleField lib filter "notional" out.minNotional
    return { out with
      minNotional :=
        if notional ≤ 0 then parseDoubleField lib filter "minNotional" notional else notional }
  else return out

/-- `parse_symbol_filters`. -/
def parseSymbolFilters (body : CString) :
    Except ReplyFault (Option BinanceFuturesSymbolFilters) :=
  match (lib.parse body).bind fun json => json.find "symbols".toList with
  | some (.array (symbol :: _)) =>
    match symbol.find "filters".toList with
    | some (.array filters) => do
      let out ← filters.foldlM (fun out filter => applyFilter lib filter out)
        { triggerProtect := parseDoubleField lib symbol "triggerProtect" 0 }
      let out := { out with valid := decide (0 < out.tickSize) && decide (0 < out.stepSize) }
      return if out.valid then some out else none
    | _ => return none
  | _ => return none

/-- `get_symbol_filters`: the filters, or what the request came to. -/
def getSymbolFilters (cache : SymbolFilters) (symbol : CString) (reply : VenueReply) :
    Except ReplyFault ((ConnectorResult ⊕ BinanceFuturesSymbolFilters) × SymbolFilters) := do
  match cache.lookup symbol with
  | some filters => return (.inr filters, cache)
  | none =>
    if !reply.ok then return (.inl (classifyResponse lib reply), cache)
    match ← parseSymbolFilters lib reply.body with
    | some filters => return (.inr filters, (symbol, filters) :: cache)
    | none => return (.inl .errorFuturesFiltersUnavailable, cache)

/-- A value between bounds, of which those that are not positive do not count. -/
def withinBounds (value low high : ℚ) : Bool :=
  !((decide (0 < low) && decide (value + 1 / 10 ^ 12 < low)) ||
    (decide (0 < high) && decide (high < value - 1 / 10 ^ 12)))

/-- The price of a limit order in `normalize_and_validate_order`. -/
def normalizePrice (filters : BinanceFuturesSymbolFilters) (order : Order) :
    ConnectorResult × Order :=
  if order.type = .limit then
    let price := normalizeDown order.price filters.tickSize
    if price ≤ 0 ∨ ¬ withinStepTolerance order.price price filters.tickSize ∨
      ¬ withinBounds price filters.minPrice filters.maxPrice then
      (.errorFuturesPriceFilterViolation, order)
    else (.ok, { order with price })
  else (.ok, order)

/-- The trigger of a stop order in `normalize_and_validate_order`. -/
def normalizeStop (filters : BinanceFuturesSymbolFilters) (order : Order) :
    ConnectorResult × Order :=
  if order.type = .stopLimit then
    let stop := normalizeDown order.stopPrice filters.tickSize
    if stop ≤ 0 ∨ ¬ withinStepTolerance order.stopPrice stop filters.tickSize ∨
      ¬ withinBounds stop filters.minPrice filters.maxPrice ∨
      (0 < order.price ∧ 0 < filters.triggerProtect ∧
        1 / 10 ^ 12 < |stop - order.price| / order.price - filters.triggerProtect) then
      (.errorFuturesTriggerConstraintViolation, order)
    else (.ok, { order with stopPrice := stop })
  else (.ok, order)

/-- The quantity in `normalize_and_validate_order`. -/
def normalizeQuantity (filters : BinanceFuturesSymbolFilters) (order : Order) :
    ConnectorResult × Order :=
  if order.closePosition then (.ok, order)
  else
    let forMarket (market other : ℚ) : ℚ := if order.type = .market ∧
      0 < market then market else other
    let step := forMarket filters.marketStepSize filters.stepSize
    let quantity := normalizeDown order.quantity step
    let referencePrice := match order.type with
      | .limit => order.price
      | .stopLimit => order.stopPrice
      | .market => 0
    if quantity ≤ 0 ∨ ¬ withinStepTolerance order.quantity quantity step ∨
      ¬ withinBounds quantity (forMarket filters.minMarketQty filters.minQty)
        (forMarket filters.maxMarketQty filters.maxQty) then
      (.errorFuturesQtyFilterViolation, order)
    else if 0 < filters.minNotional ∧ 0 < referencePrice ∧
      referencePrice * quantity + 1 / 10 ^ 12 < filters.minNotional then
      (.errorFuturesMinNotionalViolation, { order with quantity })
    else (.ok, { order with quantity })

/-- `normalize_and_validate_order`. -/
def normalizeAndValidateOrder (filters : BinanceFuturesSymbolFilters) (order : Order) :
    ConnectorResult × Order :=
  let (result, order) := normalizePrice filters order
  if result ≠ .ok then (result, order)
  else
    let (result, order) := normalizeStop filters order
    if result ≠ .ok then (result, order) else normalizeQuantity filters order

/-! ## Requests -/

/-- What stands before the request for an order: the filters and the checks. -/
def prepare (cache : SymbolFilters) (order : Order) (reply : VenueReply) :
    Except ReplyFault (ConnectorResult × SymbolFilters) := do
  let symbol ← mapBinanceFuturesSymbol order.symbol.chars
  match ← getSymbolFilters lib cache symbol reply with
  | (.inl result, cache) => return (result, cache)
  | (.inr filters, cache) =>
    let (result, normalized) := normalizeAndValidateOrder filters order
    if result ≠ .ok then return (result, cache)
    return (validateOrderRequest normalized, cache)

/-- What the reply to the request for an order comes to. -/
def readOrderReply (reply : VenueReply) (venueOrderId : CString) : ConnectorResult × CString :=
  if !reply.ok then (classifyResponse lib reply, venueOrderId)
  else
    match parseOrderId lib reply.body with
    | some id => (.ok, id)
    | none => (.errorUnknown, venueOrderId)

/-- `submit_to_venue`, with the venue order id and the filters as it leaves them. -/
def submitToVenue (cache : SymbolFilters) (order : Order) (replies : FuturesReplies)
    (venueOrderId : CString) : Except ReplyFault ((ConnectorResult × CString) × SymbolFilters) := do
  let (result, cache) ← prepare lib cache order replies.exchangeInfo
  if result ≠ .ok then return ((result, venueOrderId), cache)
  return (readOrderReply lib replies.order venueOrderId, cache)

/-- `cancel_at_venue`. -/
def cancelAtVenue (entry : VenueOrderEntry) (reply : VenueReply) :
    Except ReplyFault ConnectorResult := do
  let _ ← mapBinanceFuturesSymbol entry.symbol.chars
  if !reply.ok then return classifyResponse lib reply
  return if ← parseCancelResult lib reply.body then .ok else .errorUnknown

/-- `replace_at_venue`. -/
def replaceAtVenue (cache : SymbolFilters) (entry : VenueOrderEntry) (replacement : Order)
    (replies : FuturesReplies) (venueOrderId : CString) :
    Except ReplyFault ((ConnectorResult × CString) × SymbolFilters) := do
  if entry.symbol ≠ replacement.symbol then return ((.errorInvalidOrder, venueOrderId), cache)
  let (result, cache) ← prepare lib cache replacement replies.exchangeInfo
  if result ≠ .ok then return ((result, venueOrderId), cache)
  return (readOrderReply lib replies.order venueOrderId, cache)

/-- `query_at_venue`. -/
def queryAtVenue (entry : VenueOrderEntry) (reply : VenueReply) (status : FillUpdate)
    (nowNs : ℤ) : Except ReplyFault (ConnectorResult × FillUpdate) := do
  let _ ← mapBinanceFuturesSymbol entry.symbol.chars
  if !reply.ok then return (classifyResponse lib reply, status)
  match ← parseQueryStatus lib reply.body status nowNs with
  | some status => return (.ok, status)
  | none => return (.errorUnknown, status)

/-- `cancel_all_at_venue`. -/
def cancelAllAtVenue (symbol : CString) (reply : VenueReply) :
    Except ReplyFault ConnectorResult := do
  if symbol = [] then return .errorInvalidOrder
  let _ ← mapBinanceFuturesSymbol symbol
  if !reply.ok then return classifyResponse lib reply
  match lib.parse reply.body with
  | some _ => return .ok
  | none => return .errorUnknown

/-! ## The snapshot -/

/-- A balance. -/
def readBalance (item : Json) : Except ReplyFault ReconciledBalance := do
  return { asset := strncpyBuf 16 (item.jsonString "asset" lib)
           total := item.jsonNumber "balance" lib
           available := item.jsonNumber "availableBalance" lib }

/-- An open order. -/
def readOrder (item : Json) : Except ReplyFault ReconciledOrder := do
  return { clientOrderId := parseClientOrderId (item.jsonString "clientOrderId" lib)
           venueOrderId := strncpyBuf 64 (item.jsonString "orderId" lib)
           symbol := strncpyBuf 16 (item.jsonString "symbol" lib)
           side := if item.jsonString "side" lib == "SELL".toList then .ask else .bid
           quantity := item.jsonNumber "origQty" lib
           filledQuantity := item.jsonNumber "executedQty" lib
           price := item.jsonNumber "price" lib
           state := parseOrderStatus (item.jsonString "status" lib) }

/-- A position. -/
def readPosition (item : Json) : Except ReplyFault ReconciledPosition := do
  let positionSide := strncpyBuf 8 (item.jsonString "positionSide" lib)
  return { symbol := strncpyBuf 16 (item.jsonString "symbol" lib)
           positionSide := if positionSide = [] then "BOTH".toList else positionSide
           quantity := item.jsonNumber "positionAmt" lib
           avgEntryPrice := item.jsonNumber "entryPrice" lib
           leverage := item.jsonNumber "leverage" lib }

/-- A trade. -/
def readFill (item : Json) : Except ReplyFault ReconciledFill := do
  let quantity := |item.jsonNumber "qty" lib|
  let price := item.jsonNumber "price" lib
  return { exchange := .binance
           clientOrderId := parseClientOrderId (item.jsonString "clientOrderId" lib)
           venueOrderId := strncpyBuf 64 (item.jsonString "orderId" lib)
           venueTradeId := strncpyBuf 64 (item.jsonString "id" lib)
           symbol := strncpyBuf 16 (item.jsonString "symbol" lib)
           side := if item.jsonString "side" lib == "SELL".toList then .ask else .bid
           quantity, price
           notional := quantity * price
           fee := |item.jsonNumber "commission" lib|
           feeAsset := strncpyBuf 16 (item.jsonString "commissionAsset" lib)
           exchangeTsNs := Json.truncate (item.jsonNumber "time" lib) * 1000000 }

/-- The rows of a reply, where it is an array. -/
def fetchRows (reply : VenueReply) (rows : List Json → FetchStep) : FetchStep := fun s =>
  if !reply.ok then return (classifyResponse lib reply, s)
  else
    match lib.parse reply.body with
    | some (.array items) => rows items s
    | _ => return (.errorUnknown, s)

/-- The rows of a reply that was fetched. -/
def rowsOf (reply : VenueReply) : List Json := ((lib.parse reply.body).map Json.items).getD []

/-- The symbols of the open orders, and of the positions that are not flat. -/
def symbolsOf (openOrders positions : List Json) : List CString :=
  textSet
    ((((openOrders ++ positions.filter fun item => item.jsonNumber "positionAmt" lib ≠ 0).map
      fun item => item.jsonString "symbol" lib)).filter fun symbol => !symbol.isEmpty)

/-- The trades of one symbol after another. -/
def fetchTrades (trades : CString → VenueReply) : List CString → FetchStep
  | [] => .stop .ok
  | symbol :: symbols => fun s =>
    let reply := trades symbol
    if reply.unavailable then fetchTrades trades symbols s
    else
      FetchStep.andThen (fetchRows lib reply (FetchStep.fills (readFill lib)))
        (fetchTrades trades symbols) s

/-- `fetch_reconciliation_snapshot`. -/
def fetchReconciliationSnapshot (replies : FuturesFetchReplies) :
    Except ReplyFault (ConnectorResult × ReconciliationSnapshot) :=
  FetchStep.andThen (fetchRows lib replies.balance (FetchStep.balances (readBalance lib)))
    (FetchStep.andThen (fetchRows lib replies.openOrders (FetchStep.orders (readOrder lib)))
      (FetchStep.andThen (fetchRows lib replies.positions (FetchStep.positions (readPosition lib)))
        (fetchTrades lib replies.trades
          (symbolsOf lib (rowsOf lib replies.openOrders) (rowsOf lib replies.positions))))) .empty

end BinanceFuturesConnector

end TradingInfrastructure
