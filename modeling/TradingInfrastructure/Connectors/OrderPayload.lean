import TradingInfrastructure.Connectors.BinanceFuturesConnector
import TradingInfrastructure.Foundations.DecimalText

/-!
# The payloads of orders

The texts that `core/execution` makes of an order: the parameters of the Binance connectors and
their percent encoding, the form of Kraken, and the JSON of OKX and Coinbase. The time stamp, the
nonce, the signature and what else a request adds to the payload are left out.

A number is a rational. `%.15g` and a stream of precision 15 write the same text.
-/

namespace TradingInfrastructure

open DecimalText

/-- `%.15g`, or a stream of precision 15. -/
def fifteenDigits : ℚ → CString := signed (generalText 15)

/-! ## Forms -/

/-- `append_field`: the next field of a form. -/
def appendField (payload key value : CString) : CString :=
  (if payload = [] then [] else payload ++ ['&']) ++ key ++ '=' :: value

/-- A character that is not encoded. -/
def unreserved (c : Char) : Bool :=
  c.isAlphanum || c == '-' || c == '_' || c == '.' || c == '~'

/-- A hexadecimal digit. -/
def hexDigit (n : ℕ) : Char := "0123456789ABCDEF".toList.getD n '0'

/-- `encode_component`. -/
def encodeComponent (value : CString) : CString :=
  value.flatMap fun c =>
    if unreserved c then [c] else ['%', hexDigit (c.toNat / 16 % 16), hexDigit (c.toNat % 16)]

/-- `percent_encode_params` and `encode_params`. -/
def percentEncodeParams (params : List (CString × CString)) : CString :=
  params.foldl (fun encoded param =>
    appendField encoded (encodeComponent param.1) (encodeComponent param.2)) []

/-- `build_client_order_id`. -/
def buildClientOrderId (idempotencyKey : CString) (clientOrderId : ℕ) : CString :=
  if idempotencyKey ≠ [] then idempotencyKey else "TRT-".toList ++ Nat.toDigits 10 clientOrderId

/-! ## Binance -/

namespace BinanceConnector

/-- `format_decimal`. -/
def formatDecimal : ℚ → CString := fifteenDigits

/-- `side_string`. -/
def sideString : Side → CString
  | .bid => "BUY".toList
  | .ask => "SELL".toList

/-- `tif_string`. -/
def tifString : TimeInForce → CString
  | .gtc => "GTC".toList
  | .ioc => "IOC".toList
  | .fok => "FOK".toList
  | .gtx => "GTX".toList

/-- `build_order_params`, for an order that is valid. -/
def buildOrderParams (order : Order) (clientOrderId : CString) :
    Option (List (CString × CString)) := do
  guard (validateOrderRequest order)
  let symbol ← SymbolMapper.mapForExchange .binance order.symbol.chars
  let params := [("symbol".toList, symbol), ("side".toList, sideString order.side),
    ("newClientOrderId".toList, clientOrderId)]
  if order.type = .market then
    return params ++ [("type".toList, "MARKET".toList),
      ("quantity".toList, formatDecimal order.quantity)]
  else if order.tif = .gtx then
    return params ++ [("type".toList, "LIMIT_MAKER".toList),
      ("quantity".toList, formatDecimal order.quantity),
      ("price".toList, formatDecimal order.price)]
  else
    return params ++ [("type".toList, "LIMIT".toList), ("timeInForce".toList, tifString order.tif),
      ("quantity".toList, formatDecimal order.quantity),
      ("price".toList, formatDecimal order.price)]

end BinanceConnector

/-! ## Binance futures -/

namespace BinanceFuturesConnector

/-- `format_decimal`. -/
def formatDecimal : ℚ → CString := fifteenDigits

/-- `side_string`. -/
def sideString : Side → CString := BinanceConnector.sideString

/-- `tif_string`. -/
def tifString : TimeInForce → CString := BinanceConnector.tifString

/-- `position_side_string`. -/
def positionSideString : FuturesPositionSide → CString
  | .long => "LONG".toList
  | .short => "SHORT".toList
  | .unspecified => "BOTH".toList

/-- `working_type_string`. -/
def workingTypeString : FuturesWorkingType → CString
  | .contractPrice => "CONTRACT_PRICE".toList
  | .markPrice => "MARK_PRICE".toList

/-- The parameters of every order. -/
def commonParams (order : Order) (symbol clientOrderId : CString) : List (CString × CString) :=
  [("symbol".toList, symbol), ("side".toList, sideString order.side),
    ("newClientOrderId".toList, clientOrderId),
    ("positionSide".toList, positionSideString
      (if order.futuresPositionMode = .hedge then order.futuresPositionSide else .unspecified))] ++
    if order.reduceOnly then [("reduceOnly".toList, "true".toList)] else []

/-- `build_order_params`, for an order that is valid. -/
def buildOrderParams (order : Order) (clientOrderId : CString) :
    Option (List (CString × CString)) := do
  guard (validateOrderRequest order = .ok)
  let symbol ← SymbolMapper.mapForBinanceUsdmFutures order.symbol.chars
  let params := commonParams order symbol clientOrderId
  let quantity := ("quantity".toList, formatDecimal order.quantity)
  match order.type with
  | .market =>
    return params ++ [("type".toList, "MARKET".toList)] ++
      if order.closePosition then [] else [quantity]
  | .stopLimit =>
    return params ++ [("type".toList, "STOP_MARKET".toList),
      ("workingType".toList, workingTypeString order.futuresWorkingType),
      ("stopPrice".toList, formatDecimal order.stopPrice)] ++
      if order.closePosition then [("closePosition".toList, "true".toList)] else [quantity]
  | .limit =>
    return params ++ [("type".toList, "LIMIT".toList), ("timeInForce".toList, tifString order.tif),
      quantity, ("price".toList, formatDecimal order.price)]

end BinanceFuturesConnector

/-! ## Kraken -/

namespace KrakenConnector

/-- `order_type_string`. -/
def orderTypeString : OrderType → CString
  | .market => "market".toList
  | .limit => "limit".toList
  | .stopLimit => "stop-loss-limit".toList

/-- `tif_string`. -/
def tifString : TimeInForce → CString
  | .ioc => "ioc".toList
  | .gtc => "gtc".toList
  | .fok => "fok".toList
  | .gtx => "post_only".toList

/-- `decimal_string`. -/
def decimalString : ℚ → CString := fifteenDigits

/-- The side in the form. -/
def sideString : Side → CString
  | .bid => "buy".toList
  | .ask => "sell".toList

/-- `build_order_payload`. -/
def buildOrderPayload (order : Order) : Option CString := do
  let pair ← SymbolMapper.mapForExchange .kraken order.symbol.chars
  let payload := appendField [] "ordertype".toList (orderTypeString order.type)
  let payload := appendField payload "pair".toList pair
  let payload := appendField payload "type".toList (sideString order.side)
  let payload := appendField payload "volume".toList (decimalString order.quantity)
  let payload := if order.type ≠ .market then
      appendField payload "price".toList (decimalString order.price) else payload
  let payload := if order.type = .stopLimit then
      appendField payload "price2".toList (decimalString order.stopPrice) else payload
  let payload := appendField payload "timeinforce".toList (tifString order.tif)
  return if order.tif = .gtx then appendField payload "oflags".toList "post".toList else payload

end KrakenConnector

/-! ## OKX and Coinbase -/

/-- A member of an object whose value is a text. -/
def textMember (key : String) (value : CString) : CString :=
  '"' :: key.toList ++ "\":".toList ++ '"' :: value ++ ['"']

namespace OkxConnector

/-- `format_number`. -/
def formatNumber : ℚ → CString := fifteenDigits

/-- `okx_client_order_id`. -/
def okxClientOrderId (clientOrderId : ℕ) : CString :=
  "TRT-".toList ++ Nat.toDigits 10 clientOrderId ++ "-OKX".toList

/-- `okx_trade_mode`. -/
def okxTradeMode (instId : CString) : CString :=
  if HttpResponse.contains instId "-SWAP".toList ||
    HttpResponse.contains instId "-FUTURES".toList ||
      HttpResponse.contains instId "-OPTION".toList then "cross".toList
  else "cash".toList

/-- `okx_order_type`. -/
def okxOrderType (order : Order) : CString :=
  if order.type = .market then "market".toList
  else
    match order.tif with
    | .ioc => "ioc".toList
    | .fok => "fok".toList
    | .gtx => "post_only".toList
    | .gtc => "limit".toList

/-- The side in the payload. -/
def sideString : Side → CString := KrakenConnector.sideString

/-- `build_order_payload`. There is none for a stop order. -/
def buildOrderPayload (order : Order) : Option CString := do
  guard (order.type ≠ .stopLimit)
  let instId ← SymbolMapper.mapForExchange .okx order.symbol.chars
  let payload := "\x7b".toList ++ textMember "instId" instId ++
    ",".toList ++ textMember "tdMode" (okxTradeMode instId) ++
    ",".toList ++ textMember "clOrdId" (okxClientOrderId order.clientOrderId) ++
    ",".toList ++ textMember "side" (sideString order.side) ++
    ",".toList ++ textMember "ordType" (okxOrderType order) ++
    ",".toList ++ textMember "sz" (formatNumber order.quantity)
  let payload := if order.type ≠ .market then
      payload ++ ",".toList ++ textMember "px" (formatNumber order.price) else payload
  return payload ++ "\x7d".toList

end OkxConnector

namespace CoinbaseConnector

/-- `decimal_string`: `std::to_string` without the zeros at its end. -/
def decimalString (value : ℚ) : CString :=
  let out := trimZeros (signed (fixedText 6) value)
  if out = [] then "0".toList else out

/-- The name of the configuration of a limit order, and what follows its price. -/
def limitConfig : TimeInForce → String × CString
  | .ioc => ("sor_limit_ioc", [])
  | .fok => ("limit_limit_fok", [])
  | .gtc | .gtx => ("limit_limit_gtc", ",\"post_only\":false".toList)

/-- `config`. -/
def orderConfig (order : Order) : CString :=
  match order.type with
  | .market =>
    "\"market_market_ioc\":\x7b".toList ++ textMember "base_size" (decimalString order.quantity) ++
      "\x7d".toList
  | .limit =>
    '"' :: (limitConfig order.tif).1.toList ++ "\":\x7b".toList ++
      textMember "base_size" (decimalString order.quantity) ++ ",".toList ++
      textMember "limit_price" (decimalString order.price) ++ (limitConfig order.tif).2 ++
      "\x7d".toList
  | .stopLimit => []

/-- The side in the payload. -/
def sideString : Side → CString := BinanceConnector.sideString

/-- `build_order_payload`. -/
def buildOrderPayload (order : Order) : Option CString := do
  let productId ← SymbolMapper.mapForExchange .coinbase order.symbol.chars
  return "\x7b".toList ++ textMember "client_order_id" (Nat.toDigits 10 order.clientOrderId) ++
    ",".toList ++ textMember "product_id" productId ++
    ",".toList ++ textMember "side" (sideString order.side) ++
    ",\"order_configuration\":\x7b".toList ++ orderConfig order ++ "\x7d\x7d".toList

end CoinbaseConnector

/-! ## Submissions -/

/-- What `submit_to_venue` is given. Only the futures connector has filters. -/
structure SubmitRequest where
  order : Order
  idempotencyKey : CString
  filters : BinanceFuturesSymbolFilters := {}

/-- The order as its payload is built, with the payload. -/
structure SentOrder where
  order : Order
  payload : CString
  deriving DecidableEq

namespace LiveVenue

/-- The text of a number. -/
def numberText : LiveVenue → ℚ → CString
  | binance => BinanceConnector.formatDecimal
  | binanceFutures => BinanceFuturesConnector.formatDecimal
  | kraken => KrakenConnector.decimalString
  | okx => OkxConnector.formatNumber
  | coinbase => CoinbaseConnector.decimalString

/-- The payload of an order, if the connector builds one. -/
def payloadOf (venue : LiveVenue) (idempotencyKey : CString) (order : Order) : Option CString :=
  match venue with
  | binance =>
    (BinanceConnector.buildOrderParams order
      (buildClientOrderId idempotencyKey order.clientOrderId)).map percentEncodeParams
  | binanceFutures =>
    (BinanceFuturesConnector.buildOrderParams order
      (buildClientOrderId idempotencyKey order.clientOrderId)).map percentEncodeParams
  | kraken => KrakenConnector.buildOrderPayload order
  | okx => OkxConnector.buildOrderPayload order
  | coinbase => CoinbaseConnector.buildOrderPayload order

/-- The order that a payload is built of, if there is one. The futures connector normalizes it. -/
def orderFor (venue : LiveVenue) (r : SubmitRequest) : Option Order :=
  match venue with
  | binanceFutures =>
    match BinanceFuturesConnector.normalizeAndValidateOrder r.filters r.order with
    | (.ok, order) => some order
    | _ => none
  | binance | kraken | okx | coinbase => some r.order

/-- What a connector sends for a request, if it sends something. -/
def sentOrder (venue : LiveVenue) (r : SubmitRequest) : Option SentOrder := do
  let order ← venue.orderFor r
  let payload ← venue.payloadOf r.idempotencyKey order
  return ⟨order, payload⟩

end LiveVenue

end TradingInfrastructure
