import TradingInfrastructure.Connectors.BinanceFuturesConnector
import TradingInfrastructure.Connectors.CoinbaseConnector
import TradingInfrastructure.Connectors.ConnectorRuns
import TradingInfrastructure.Connectors.KrakenConnector
import TradingInfrastructure.Foundations.Retries

/-!
# The connectors of the venues

`LiveConnectorBase` over the five connectors: the operations of the base class, with the virtual
functions of each connector in the place of the calls to the venue. An attempt at a request is first
prepared, and goes out only when that is OK (`attempt_eq`). What is left of it is what the connector
makes of the body of a success.

An exception leaves the stores as they were when it was thrown.
-/

namespace TradingInfrastructure

/-- A request of a connector to its venue. -/
inductive VenueRequest
  | submit (order : Order)
  | cancel (entry : VenueOrderEntry)
  | replace (entry : VenueOrderEntry) (replacement : Order)
  /-- With the time of the attempt that writes the status. -/
  | query (entry : VenueOrderEntry) (nowNs : ℤ)
  | cancelAll (symbol : CString)

/-- What the attempts at a request work on: the venue order id and the status that they may write,
and the filters of the connector. -/
structure RequestState where
  venueOrderId : CString := []
  status : FillUpdate := {}
  filters : SymbolFilters := []
  deriving DecidableEq

namespace RequestState

variable (s : RequestState)

def withId (x : ConnectorResult × CString) : ConnectorResult × RequestState :=
  (x.1, { s with venueOrderId := x.2 })

def withStatus (x : ConnectorResult × FillUpdate) : ConnectorResult × RequestState :=
  (x.1, { s with status := x.2 })

def withFilters (x : (ConnectorResult × CString) × SymbolFilters) :
    ConnectorResult × RequestState :=
  (x.1.1, { s with venueOrderId := x.1.2, filters := x.2 })

end RequestState

namespace LiveVenue

variable (lib : VenueLibrary)

/-! ## One attempt -/

/-- `submit_to_venue`, `cancel_at_venue`, `replace_at_venue`, `query_at_venue` and
`cancel_all_at_venue` of the connector of the venue. -/
def attempt (venue : LiveVenue) (request : VenueRequest) (replies : FuturesReplies)
    (s : RequestState) : Except ReplyFault (ConnectorResult × RequestState) :=
  match venue, request with
  | binance, .submit order =>
    s.withId <$> BinanceConnector.submitToVenue lib order replies.order s.venueOrderId
  | binance, .cancel entry => (·, s) <$> BinanceConnector.cancelAtVenue lib entry replies.order
  | binance, .replace entry replacement =>
    s.withId <$> BinanceConnector.replaceAtVenue lib entry replacement replies.order s.venueOrderId
  | binance, .query entry nowNs =>
    s.withStatus <$> BinanceConnector.queryAtVenue lib entry replies.order s.status nowNs
  | binance, .cancelAll symbol =>
    (·, s) <$> BinanceConnector.cancelAllAtVenue lib symbol replies.order
  | binanceFutures, .submit order =>
    s.withFilters <$>
      BinanceFuturesConnector.submitToVenue lib s.filters order replies s.venueOrderId
  | binanceFutures, .cancel entry =>
    (·, s) <$> BinanceFuturesConnector.cancelAtVenue lib entry replies.order
  | binanceFutures, .replace entry replacement =>
    s.withFilters <$>
      BinanceFuturesConnector.replaceAtVenue lib s.filters entry replacement replies s.venueOrderId
  | binanceFutures, .query entry nowNs =>
    s.withStatus <$> BinanceFuturesConnector.queryAtVenue lib entry replies.order s.status nowNs
  | binanceFutures, .cancelAll symbol =>
    (·, s) <$> BinanceFuturesConnector.cancelAllAtVenue lib symbol replies.order
  | kraken, .submit order =>
    s.withId <$> KrakenConnector.submitToVenue lib order replies.order s.venueOrderId
  | kraken, .cancel _ => (·, s) <$> KrakenConnector.cancelAtVenue lib replies.order
  | kraken, .replace entry _ =>
    .ok (s.withId (KrakenConnector.replaceAtVenue entry replies.order s.venueOrderId))
  | kraken, .query _ nowNs =>
    s.withStatus <$> KrakenConnector.queryAtVenue lib replies.order s.status nowNs
  | kraken, .cancelAll _ => .ok (KrakenConnector.cancelAllAtVenue lib replies.order, s)
  | okx, .submit order =>
    s.withId <$> OkxConnector.submitToVenue lib order replies.order s.venueOrderId
  | okx, .cancel entry => (·, s) <$> OkxConnector.cancelAtVenue lib entry replies.order
  | okx, .replace entry replacement =>
    s.withId <$> OkxConnector.replaceAtVenue lib entry replacement replies.order s.venueOrderId
  | okx, .query entry nowNs =>
    s.withStatus <$> OkxConnector.queryAtVenue lib entry replies.order s.status nowNs
  | coinbase, .submit order =>
    s.withId <$> CoinbaseConnector.submitToVenue lib order replies.order s.venueOrderId
  | coinbase, .cancel _ => (·, s) <$> CoinbaseConnector.cancelAtVenue lib replies.order
  | coinbase, .replace _ replacement =>
    s.withId <$> CoinbaseConnector.replaceAtVenue lib replacement replies.order s.venueOrderId
  | coinbase, .query _ nowNs =>
    s.withStatus <$> CoinbaseConnector.queryAtVenue lib replies.order s.status nowNs
  -- neither venue has a request for all orders
  | okx, .cancelAll _ | coinbase, .cancelAll _ => .ok (.errorInvalidOrder, s)

/-- What stands before the request: OK when it goes out. -/
def prepare (venue : LiveVenue) (request : VenueRequest) (exchangeInfo : VenueReply)
    (filters : SymbolFilters) : Except ReplyFault (ConnectorResult × SymbolFilters) :=
  let mapped (exchange : Exchange) (symbol : CString) := do
    let _ ← mapSymbol exchange symbol
    return (ConnectorResult.ok, filters)
  let mappedFutures (symbol : CString) := do
    let _ ← BinanceFuturesConnector.mapBinanceFuturesSymbol symbol
    return (ConnectorResult.ok, filters)
  let refused := pure (.errorInvalidOrder, filters)
  match venue, request with
  | binance, .submit order =>
    if !BinanceConnector.validateOrderRequest order then refused
    else mapped .binance order.symbol.chars
  | binance, .replace entry replacement =>
    if !BinanceConnector.validateOrderRequest replacement then refused
    else if entry.symbol ≠ replacement.symbol then refused
    else mapped .binance entry.symbol.chars
  | binance, .cancel entry | binance, .query entry _ => mapped .binance entry.symbol.chars
  | binance, .cancelAll symbol => if symbol = [] then refused else mapped .binance symbol
  | binanceFutures, .submit order =>
    BinanceFuturesConnector.prepare lib filters order exchangeInfo
  | binanceFutures, .replace entry replacement =>
    if entry.symbol ≠ replacement.symbol then refused
    else BinanceFuturesConnector.prepare lib filters replacement exchangeInfo
  | binanceFutures, .cancel entry | binanceFutures, .query entry _ =>
    mappedFutures entry.symbol.chars
  | binanceFutures, .cancelAll symbol => if symbol = [] then refused else mappedFutures symbol
  | kraken, .submit order => mapped .kraken order.symbol.chars
  | kraken, _ => pure (.ok, filters)
  | okx, .submit order =>
    if order.type = .stopLimit then refused else mapped .okx order.symbol.chars
  | okx, .replace entry replacement =>
    if replacement.type = .stopLimit then refused else mapped .okx entry.symbol.chars
  | okx, .cancel entry | okx, .query entry _ => mapped .okx entry.symbol.chars
  | coinbase, .submit order =>
    if order.type = .stopLimit then refused else mapped .coinbase order.symbol.chars
  | coinbase, .replace _ replacement =>
    if replacement.type ≠ .limit then refused else pure (.ok, filters)
  | coinbase, .cancel _ | coinbase, .query _ _ => pure (.ok, filters)
  | okx, .cancelAll _ | coinbase, .cancelAll _ => refused

/-- What the connector makes of a failure. -/
def classify (venue : LiveVenue) (reply : VenueReply) : ConnectorResult :=
  match venue with
  | binance => BinanceConnector.classifyOrderResponse lib reply
  | binanceFutures => BinanceFuturesConnector.classifyResponse lib reply
  | kraken | okx | coinbase => HttpResponse.classifyHttpError reply.status

/-- The order id that a body has. -/
def idOr (id : Option CString) (venueOrderId : CString) : ConnectorResult × CString :=
  match id with
  | some id => (.ok, id)
  | none => (.errorUnknown, venueOrderId)

/-- The status that a body has. -/
def statusOr (parsed : Option FillUpdate) (status : FillUpdate) : ConnectorResult × FillUpdate :=
  match parsed with
  | some status => (.ok, status)
  | none => (.errorUnknown, status)

/-- What the connector makes of the body of a success. -/
def readBody (venue : LiveVenue) (request : VenueRequest) (body : CString) (s : RequestState) :
    Except ReplyFault (ConnectorResult × RequestState) :=
  let done (parsed : Except ReplyFault Bool) : Except ReplyFault (ConnectorResult × RequestState) :=
    do return (if ← parsed then .ok else .errorUnknown, s)
  match venue, request with
  | binance, .submit _ =>
    pure (s.withId (idOr (BinanceConnector.parseOrderId lib body) s.venueOrderId))
  | binance, .replace _ _ => do
    let cancelled ← BinanceConnector.parseCancelResult lib body
    if !cancelled && !HttpResponse.contains body "newOrderResponse".toList then
      return (.errorUnknown, s)
    return s.withId (idOr (BinanceConnector.parseOrderId lib body) s.venueOrderId)
  | binance, .cancel _ => done (BinanceConnector.parseCancelResult lib body)
  | binance, .query _ nowNs => do
    return s.withStatus (statusOr (← BinanceConnector.parseQueryStatus lib body s.status nowNs)
      s.status)
  | binance, .cancelAll _ =>
    match lib.parse body with
    | some (.array _) => pure (.ok, s)
    | _ => pure (.errorUnknown, s)
  | binanceFutures, .submit _ | binanceFutures, .replace _ _ =>
    pure (s.withId (idOr (BinanceFuturesConnector.parseOrderId lib body) s.venueOrderId))
  | binanceFutures, .cancel _ => done (BinanceFuturesConnector.parseCancelResult lib body)
  | binanceFutures, .query _ nowNs => do
    return s.withStatus (statusOr
      (← BinanceFuturesConnector.parseQueryStatus lib body s.status nowNs) s.status)
  | binanceFutures, .cancelAll _ =>
    pure (if (lib.parse body).isSome then .ok else .errorUnknown, s)
  | kraken, .submit _ => do
    let (found, venueOrderId) ← KrakenConnector.parseOrderId lib body s.venueOrderId
    let s := { s with venueOrderId }
    if found then return (.ok, s)
    return (← KrakenConnector.classifyKrakenBusinessError lib body, s)
  | kraken, .cancel _ => done (KrakenConnector.parseCancelResult lib body)
  | kraken, .replace entry _ => pure (.ok, { s with venueOrderId := entry.venueOrderId })
  | kraken, .query _ nowNs => do
    return s.withStatus (statusOr (← KrakenConnector.parseQueryStatus lib body s.status nowNs)
      s.status)
  | kraken, .cancelAll _ =>
    pure (if ((lib.parse body).map fun json => json.has "result") = some true then .ok
      else .errorUnknown, s)
  | okx, .submit _ => do
    let (found, venueOrderId) ← OkxConnector.parseOrderId lib body s.venueOrderId
    let s := { s with venueOrderId }
    if found then return (.ok, s)
    return (← OkxConnector.classifyOkxBusinessError lib body, s)
  | okx, .replace _ _ => do
    let (found, venueOrderId) ← OkxConnector.parseOrderId lib body s.venueOrderId
    return (if found then .ok else .errorUnknown, { s with venueOrderId })
  | okx, .cancel _ => done (OkxConnector.parseCancelResult lib body)
  | okx, .query _ nowNs => do
    return s.withStatus (statusOr (← OkxConnector.parseQueryStatus lib body s.status nowNs)
      s.status)
  | coinbase, .submit _ | coinbase, .replace _ _ => do
    let (found, venueOrderId) ← CoinbaseConnector.parseOrderId lib body s.venueOrderId
    return (if found then .ok else .errorUnknown, { s with venueOrderId })
  | coinbase, .cancel _ => done (CoinbaseConnector.parseCancelResult lib body)
  | coinbase, .query _ nowNs => do
    return s.withStatus (statusOr (← CoinbaseConnector.parseQueryStatus lib body s.status nowNs)
      s.status)
  | okx, .cancelAll _ | coinbase, .cancelAll _ => pure (.errorInvalidOrder, s)

/-- What the connector makes of the reply to a request that goes out. -/
def read (venue : LiveVenue) (request : VenueRequest) (reply : VenueReply) (s : RequestState) :
    Except ReplyFault (ConnectorResult × RequestState) :=
  if !reply.ok then pure (venue.classify lib reply, s) else venue.readBody lib request reply.body s

/-! ## The stages of an attempt -/

/-- An attempt at the request is prepared, and goes out when that is OK. -/
def Staged (venue : LiveVenue) (request : VenueRequest) : Prop :=
  ∀ replies s, venue.attempt lib request replies s = (do
    let (result, filters) ← venue.prepare lib request replies.exchangeInfo s.filters
    if result ≠ .ok then return (result, { s with filters })
    venue.read lib request replies.order { s with filters })

theorem staged_binance (request : VenueRequest) : Staged lib .binance request := by
  intro replies s
  cases request with
  | submit order =>
    simp only [attempt, prepare, BinanceConnector.submitToVenue, read, readBody, classify]
    cases BinanceConnector.validateOrderRequest order <;>
      cases mapSymbol .binance order.symbol.chars <;> cases replies.order.ok <;>
      cases BinanceConnector.parseOrderId lib replies.order.body <;> rfl
  | cancel entry =>
    simp only [attempt, prepare, BinanceConnector.cancelAtVenue, read, readBody, classify]
    cases mapSymbol .binance entry.symbol.chars <;> cases replies.order.ok <;>
      cases BinanceConnector.parseCancelResult lib replies.order.body <;> rfl
  | replace entry replacement =>
    simp only [attempt, prepare, BinanceConnector.replaceAtVenue, read, readBody, classify]
    by_cases hsymbol : entry.symbol = replacement.symbol
    · simp only [hsymbol, ne_eq, not_true_eq_false, if_false]
      cases BinanceConnector.validateOrderRequest replacement <;>
        cases mapSymbol .binance replacement.symbol.chars <;> cases replies.order.ok <;>
        cases BinanceConnector.parseCancelResult lib replies.order.body with
        | error e => rfl
        | ok cancelled =>
          cases cancelled <;>
            cases HttpResponse.contains replies.order.body "newOrderResponse".toList <;>
            cases BinanceConnector.parseOrderId lib replies.order.body <;> rfl
    · simp only [hsymbol, ne_eq, not_false_eq_true, if_true]
      cases BinanceConnector.validateOrderRequest replacement <;> rfl
  | query entry nowNs =>
    simp only [attempt, prepare, BinanceConnector.queryAtVenue, read, readBody, classify]
    cases mapSymbol .binance entry.symbol.chars <;> cases replies.order.ok <;>
      cases BinanceConnector.parseQueryStatus lib replies.order.body s.status nowNs with
      | error e => rfl
      | ok parsed => cases parsed <;> rfl
  | cancelAll symbol =>
    simp only [attempt, prepare, BinanceConnector.cancelAllAtVenue, read, readBody, classify]
    by_cases hsymbol : symbol = []
    · simp only [hsymbol, if_true]
      rfl
    · simp only [hsymbol, if_false]
      cases mapSymbol .binance symbol <;> cases replies.order.ok <;>
        cases lib.parse replies.order.body with
        | none => rfl
        | some json => cases json <;> rfl

theorem staged_futures (request : VenueRequest) : Staged lib .binanceFutures request := by
  intro replies s
  cases request with
  | submit order =>
    simp only [attempt, prepare, BinanceFuturesConnector.submitToVenue, read, readBody, classify,
      BinanceFuturesConnector.readOrderReply]
    cases BinanceFuturesConnector.prepare lib s.filters order replies.exchangeInfo with
    | error e => rfl
    | ok x =>
      obtain ⟨result, filters⟩ := x
      cases result <;> cases replies.order.ok <;>
        cases BinanceFuturesConnector.parseOrderId lib replies.order.body <;> rfl
  | cancel entry =>
    simp only [attempt, prepare, BinanceFuturesConnector.cancelAtVenue, read, readBody, classify]
    cases BinanceFuturesConnector.mapBinanceFuturesSymbol entry.symbol.chars <;>
      cases replies.order.ok <;>
      cases BinanceFuturesConnector.parseCancelResult lib replies.order.body <;> rfl
  | replace entry replacement =>
    simp only [attempt, prepare, BinanceFuturesConnector.replaceAtVenue, read, readBody, classify,
      BinanceFuturesConnector.readOrderReply]
    by_cases hsymbol : entry.symbol = replacement.symbol
    · simp only [hsymbol, ne_eq, not_true_eq_false, if_false]
      cases BinanceFuturesConnector.prepare lib s.filters replacement replies.exchangeInfo with
      | error e => rfl
      | ok x =>
        obtain ⟨result, filters⟩ := x
        cases result <;> cases replies.order.ok <;>
          cases BinanceFuturesConnector.parseOrderId lib replies.order.body <;> rfl
    · simp only [hsymbol, ne_eq, not_false_eq_true, if_true]
      rfl
  | query entry nowNs =>
    simp only [attempt, prepare, BinanceFuturesConnector.queryAtVenue, read, readBody, classify]
    cases BinanceFuturesConnector.mapBinanceFuturesSymbol entry.symbol.chars <;>
      cases replies.order.ok <;>
      cases BinanceFuturesConnector.parseQueryStatus lib replies.order.body s.status nowNs with
      | error e => rfl
      | ok parsed => cases parsed <;> rfl
  | cancelAll symbol =>
    simp only [attempt, prepare, BinanceFuturesConnector.cancelAllAtVenue, read, readBody, classify]
    by_cases hsymbol : symbol = []
    · simp only [hsymbol, if_true]
      rfl
    · simp only [hsymbol, if_false]
      cases BinanceFuturesConnector.mapBinanceFuturesSymbol symbol <;> cases replies.order.ok <;>
        cases lib.parse replies.order.body <;> rfl
theorem staged_kraken (request : VenueRequest) : Staged lib .kraken request := by
  intro replies s
  cases request with
  | submit order =>
    simp only [attempt, prepare, KrakenConnector.submitToVenue, read, readBody, classify]
    cases mapSymbol .kraken order.symbol.chars <;> cases replies.order.ok <;>
      cases KrakenConnector.parseOrderId lib replies.order.body s.venueOrderId with
      | error e => rfl
      | ok x =>
        obtain ⟨found, id⟩ := x
        cases found <;>
          cases KrakenConnector.classifyKrakenBusinessError lib replies.order.body <;> rfl
  | cancel entry =>
    simp only [attempt, prepare, KrakenConnector.cancelAtVenue, read, readBody, classify]
    cases replies.order.ok <;> cases KrakenConnector.parseCancelResult lib replies.order.body <;>
      rfl
  | replace entry replacement =>
    simp only [attempt, prepare, KrakenConnector.replaceAtVenue, read, readBody, classify]
    cases replies.order.ok <;> rfl
  | query entry nowNs =>
    simp only [attempt, prepare, KrakenConnector.queryAtVenue, read, readBody, classify]
    cases replies.order.ok <;>
      cases KrakenConnector.parseQueryStatus lib replies.order.body s.status nowNs with
      | error e => rfl
      | ok parsed => cases parsed <;> rfl
  | cancelAll symbol =>
    simp only [attempt, prepare, KrakenConnector.cancelAllAtVenue, read, readBody, classify]
    cases replies.order.ok <;> cases lib.parse replies.order.body with
      | none => rfl
      | some json => cases h : json.has "result" <;> simp [h] <;> rfl

theorem staged_okx (request : VenueRequest) : Staged lib .okx request := by
  intro replies s
  cases request with
  | submit order =>
    simp only [attempt, prepare, OkxConnector.submitToVenue, read, readBody, classify]
    by_cases hstop : order.type = .stopLimit
    · simp only [hstop, if_true]
      rfl
    · simp only [hstop, if_false]
      cases mapSymbol .okx order.symbol.chars <;> cases replies.order.ok <;>
        cases OkxConnector.parseOrderId lib replies.order.body s.venueOrderId with
        | error e => rfl
        | ok x =>
          obtain ⟨found, id⟩ := x
          cases found <;>
            cases OkxConnector.classifyOkxBusinessError lib replies.order.body <;> rfl
  | cancel entry =>
    simp only [attempt, prepare, OkxConnector.cancelAtVenue, read, readBody, classify]
    cases mapSymbol .okx entry.symbol.chars <;> cases replies.order.ok <;>
      cases OkxConnector.parseCancelResult lib replies.order.body <;> rfl
  | replace entry replacement =>
    simp only [attempt, prepare, OkxConnector.replaceAtVenue, read, readBody, classify]
    by_cases hstop : replacement.type = .stopLimit
    · simp only [hstop, if_true]
      rfl
    · simp only [hstop, if_false]
      cases mapSymbol .okx entry.symbol.chars <;> cases replies.order.ok <;>
        cases OkxConnector.parseOrderId lib replies.order.body s.venueOrderId <;> rfl
  | query entry nowNs =>
    simp only [attempt, prepare, OkxConnector.queryAtVenue, read, readBody, classify]
    cases mapSymbol .okx entry.symbol.chars <;> cases replies.order.ok <;>
      cases OkxConnector.parseQueryStatus lib replies.order.body s.status nowNs with
      | error e => rfl
      | ok parsed => cases parsed <;> rfl
  | cancelAll symbol => rfl

theorem staged_coinbase (request : VenueRequest) : Staged lib .coinbase request := by
  intro replies s
  cases request with
  | submit order =>
    simp only [attempt, prepare, CoinbaseConnector.submitToVenue, read, readBody, classify]
    by_cases hstop : order.type = .stopLimit
    · simp only [hstop, if_true]
      rfl
    · simp only [hstop, if_false]
      cases mapSymbol .coinbase order.symbol.chars <;> cases replies.order.ok <;>
        cases CoinbaseConnector.parseOrderId lib replies.order.body s.venueOrderId <;> rfl
  | cancel entry =>
    simp only [attempt, prepare, CoinbaseConnector.cancelAtVenue, read, readBody, classify]
    cases replies.order.ok <;> cases CoinbaseConnector.parseCancelResult lib replies.order.body <;>
      rfl
  | replace entry replacement =>
    simp only [attempt, prepare, CoinbaseConnector.replaceAtVenue, read, readBody, classify]
    by_cases hlimit : replacement.type = .limit
    · simp only [hlimit, ne_eq, not_true_eq_false, if_false]
      cases replies.order.ok <;>
        cases CoinbaseConnector.parseOrderId lib replies.order.body s.venueOrderId <;> rfl
    · simp only [hlimit, ne_eq, not_false_eq_true, if_true]
      rfl
  | query entry nowNs =>
    simp only [attempt, prepare, CoinbaseConnector.queryAtVenue, read, readBody, classify]
    cases replies.order.ok <;>
      cases CoinbaseConnector.parseQueryStatus lib replies.order.body s.status nowNs with
      | error e => rfl
      | ok parsed => cases parsed <;> rfl
  | cancelAll symbol => rfl

/-- **An attempt** is prepared, and goes out when that is OK. -/
theorem attempt_eq (venue : LiveVenue) (request : VenueRequest) : Staged lib venue request := by
  cases venue with
  | binance => exact staged_binance lib request
  | binanceFutures => exact staged_futures lib request
  | kraken => exact staged_kraken lib request
  | okx => exact staged_okx lib request
  | coinbase => exact staged_coinbase lib request

/-- The request of an attempt goes out. -/
def sends (venue : LiveVenue) (request : VenueRequest) (replies : FuturesReplies)
    (s : RequestState) : Bool :=
  match venue.prepare lib request replies.exchangeInfo s.filters with
  | .ok (.ok, _) => true
  | _ => false

/-- The attempt with some number, and the state as it leaves it. -/
def attemptAt (venue : LiveVenue) (request : VenueRequest) (replies : ℕ → FuturesReplies) (n : ℕ)
    (s : RequestState) : Except ReplyFault ConnectorResult × RequestState :=
  match venue.attempt lib request (replies n) s with
  | .ok (result, s) => (.ok result, s)
  | .error fault => (.error fault, s)

end LiveVenue

/-! ## The connector -/

/-- The connector of a venue: the base class, and the filters of the futures connector. -/
structure VenueConnector where
  venue : LiveVenue
  base : LiveConnectorBase
  filters : SymbolFilters := []

/-- An operation of a connector, but for the fetch of a snapshot. -/
inductive VenueOperation
  | submit (order : Order)
  | cancel (clientOrderId : ℕ)
  | replace (clientOrderId : ℕ) (replacement : Order)
  /-- With the status that is filled in, and the time of the attempt that does. -/
  | query (clientOrderId : ℕ) (status : FillUpdate) (nowNs : ℤ)
  | cancelAll (symbol : CString)

/-- Another attempt follows. -/
def retriesAfter : Except ReplyFault ConnectorResult → Bool
  | .ok result => result.isRetryable
  | .error _ => false

namespace VenueConnector

variable (lib : VenueLibrary)

/-- `with_retries`. -/
def withRetries (c : VenueConnector) (request : VenueRequest) (replies : ℕ → FuturesReplies)
    (s : RequestState) : Except ReplyFault ConnectorResult × RequestState :=
  retry retriesAfter (.ok .errorUnknown) (c.venue.attemptAt lib request replies)
    c.base.retryPolicy.maxAttempts 1 s

/-- What comes after the attempts of an operation, unless they throw. -/
def conclude (c : VenueConnector) (x : Except ReplyFault ConnectorResult × RequestState)
    (finish : LiveConnectorBase → ConnectorResult → CString → ConnectorResult × LiveConnectorBase) :
    Except ReplyFault ConnectorResult × VenueConnector :=
  let c := { c with filters := x.2.filters }
  match x.1 with
  | .error fault => (.error fault, c)
  | .ok result =>
    let (result, base) := finish c.base result x.2.venueOrderId
    (.ok result, { c with base })

/-- `submit_order`. -/
def submitOrder (c : VenueConnector) (order : Order) (replies : ℕ → FuturesReplies)
    (opened opened' : Bool) : Except ReplyFault ConnectorResult × VenueConnector :=
  match c.base.beginSubmit order opened with
  | (some result, base) => (.ok result, { c with base })
  | (none, base) =>
    let c := { c with base }
    c.conclude (c.withRetries lib (.submit order) replies { filters := c.filters })
      fun base result venueOrderId => base.finishSubmit order result venueOrderId opened'

/-- `cancel_order`. -/
def cancelOrder (c : VenueConnector) (clientOrderId : ℕ) (replies : ℕ → FuturesReplies)
    (opened opened' : Bool) : Except ReplyFault ConnectorResult × VenueConnector :=
  match c.base.beginCancel clientOrderId opened opened' with
  | (.inl result, base) => (.ok result, { c with base })
  | (.inr mapped, base) =>
    let c := { c with base }
    c.conclude (c.withRetries lib (.cancel mapped) replies { filters := c.filters })
      fun base result _ => base.finishCancel clientOrderId mapped result opened'

/-- `replace_order`. -/
def replaceOrder (c : VenueConnector) (clientOrderId : ℕ) (replacement : Order)
    (replies : ℕ → FuturesReplies) (opened opened' : Bool) :
    Except ReplyFault ConnectorResult × VenueConnector :=
  match c.base.beginReplace clientOrderId replacement opened with
  | (some result, base) => (.ok result, { c with base })
  | (none, base) =>
    let c := { c with base }
    -- the order is mapped, or there is a result
    let mapped := (base.venueOrderMap.get clientOrderId).getD {}
    c.conclude (c.withRetries lib (.replace mapped replacement) replies { filters := c.filters })
      fun base result venueOrderId =>
        base.finishReplace clientOrderId replacement result venueOrderId opened'

/-- `query_order`, with the status as it leaves it. -/
def queryOrder (c : VenueConnector) (clientOrderId : ℕ) (replies : ℕ → FuturesReplies)
    (status : FillUpdate) (nowNs : ℤ) : Except ReplyFault ConnectorResult × FillUpdate :=
  match c.base.venueOrderMap.get clientOrderId with
  | none => (.ok .errorInvalidOrder, status)
  | some mapped =>
    let (result, s) := c.withRetries lib (.query mapped nowNs) replies
      { status, filters := c.filters }
    (result, s.status)

/-- `cancel_all`. -/
def cancelAll (c : VenueConnector) (symbol : CString) (replies : FuturesReplies) :
    Except ReplyFault ConnectorResult :=
  (c.venue.attemptAt lib (.cancelAll symbol) (fun _ => replies) 1 {}).1

/-- What an operation returns, and the connector that it leaves. -/
def serve (c : VenueConnector) (operation : VenueOperation) (replies : ℕ → FuturesReplies)
    (opened opened' : Bool) : Except ReplyFault ConnectorResult × VenueConnector :=
  match operation with
  | .submit order => c.submitOrder lib order replies opened opened'
  | .cancel k => c.cancelOrder lib k replies opened opened'
  | .replace k replacement => c.replaceOrder lib k replacement replies opened opened'
  | .query k status nowNs => ((c.queryOrder lib k replies status nowNs).1, c)
  | .cancelAll symbol => (c.cancelAll lib symbol (replies 1), c)

/-! ## The stages of an operation -/

/-- The request of an operation that gets as far as the venue, and the stores at that point. -/
def asks (c : VenueConnector) (operation : VenueOperation) (opened opened' : Bool) :
    Option (VenueRequest × LiveConnectorBase) :=
  match operation with
  | .submit order =>
    match c.base.beginSubmit order opened with
    | (some _, _) => none
    | (none, base) => some (.submit order, base)
  | .cancel k =>
    match c.base.beginCancel k opened opened' with
    | (.inl _, _) => none
    | (.inr mapped, base) => some (.cancel mapped, base)
  | .replace k replacement =>
    match c.base.beginReplace k replacement opened with
    | (some _, _) => none
    | (none, base) => some (.replace ((base.venueOrderMap.get k).getD {}) replacement, base)
  | .query k _ nowNs => (c.base.venueOrderMap.get k).map fun mapped => (.query mapped nowNs, c.base)
  | .cancelAll symbol => some (.cancelAll symbol, c.base)

/-- What the attempts of an operation start from. -/
def stateOf (c : VenueConnector) : VenueOperation → RequestState
  | .query _ status _ => { status, filters := c.filters }
  | .cancelAll _ => {}
  | _ => { filters := c.filters }

/-- How many attempts an operation may make. -/
def attemptsOf (base : LiveConnectorBase) : VenueOperation → ℕ
  | .cancelAll _ => 1
  | _ => base.retryPolicy.maxAttempts

/-- The attempts that an operation makes. -/
def made (c : VenueConnector) (operation : VenueOperation) (replies : ℕ → FuturesReplies)
    (opened opened' : Bool) : List (ℕ × RequestState) :=
  match c.asks operation opened opened' with
  | none => []
  | some (request, base) =>
    attemptsMade retriesAfter (c.venue.attemptAt lib request replies) (attemptsOf base operation) 1
      (c.stateOf operation)

/-- What an operation does with what the venue has answered. -/
def finish (operation : VenueOperation) (request : VenueRequest) (base : LiveConnectorBase)
    (result : ConnectorResult) (venueOrderId : CString) (opened : Bool) :
    ConnectorResult × LiveConnectorBase :=
  match operation, request with
  | .submit order, _ => base.finishSubmit order result venueOrderId opened
  | .cancel k, .cancel mapped => base.finishCancel k mapped result opened
  | .replace k replacement, _ => base.finishReplace k replacement result venueOrderId opened
  | _, _ => (result, base)

variable {lib : VenueLibrary} {c : VenueConnector} {operation : VenueOperation}
  {replies : ℕ → FuturesReplies} {opened opened' : Bool} {request : VenueRequest}
  {base : LiveConnectorBase}

/-- An operation that does not get to the venue returns. -/
theorem serve_of_not_asks (h : c.asks operation opened opened' = none) :
    ∃ result, (c.serve lib operation replies opened opened').1 = .ok result := by
  cases operation with
  | submit order =>
    simp only [asks] at h
    simp only [serve, submitOrder]
    cases hbegin : c.base.beginSubmit order opened with
    | mk result base =>
      rw [hbegin] at h
      cases result with
      | some result => exact ⟨result, rfl⟩
      | none => cases h
  | cancel k =>
    simp only [asks] at h
    simp only [serve, cancelOrder]
    cases hbegin : c.base.beginCancel k opened opened' with
    | mk result base =>
      rw [hbegin] at h
      cases result with
      | inl result => exact ⟨result, rfl⟩
      | inr mapped => cases h
  | replace k replacement =>
    simp only [asks] at h
    simp only [serve, replaceOrder]
    cases hbegin : c.base.beginReplace k replacement opened with
    | mk result base =>
      rw [hbegin] at h
      cases result with
      | some result => exact ⟨result, rfl⟩
      | none => cases h
  | query k status nowNs =>
    simp only [asks, Option.map_eq_none_iff] at h
    simp only [serve, queryOrder, h]
    exact ⟨_, rfl⟩
  | cancelAll symbol => cases h

/-- What an operation returns, and the stores that it leaves, when its attempts come to `x`. -/
structure Comes (operation : VenueOperation) (request : VenueRequest) (base : LiveConnectorBase)
    (opened : Bool) (x : Except ReplyFault ConnectorResult × RequestState)
    (y : Except ReplyFault ConnectorResult × VenueConnector) : Prop where
  result : y.1 = x.1.map fun result =>
    (finish operation request base result x.2.venueOrderId opened).1
  base : y.2.base = match x.1 with
    | .ok result => (finish operation request base result x.2.venueOrderId opened).2
    | .error _ => base

theorem comes_conclude (operation : VenueOperation) (request : VenueRequest)
    (base : LiveConnectorBase) (opened : Bool)
    (x : Except ReplyFault ConnectorResult × RequestState) :
    Comes operation request base opened x (conclude { c with base } x fun base result v =>
      finish operation request base result v opened) := by
  obtain ⟨result, s⟩ := x
  cases result with
  | ok result => exact ⟨rfl, rfl⟩
  | error fault => exact ⟨rfl, rfl⟩

/-- An operation that leaves the stores. -/
theorem comes_of_unchanged {x : Except ReplyFault ConnectorResult × RequestState}
    (hfinish : ∀ result v, finish operation request c.base result v opened = (result, c.base)) :
    Comes operation request c.base opened x (x.1, c) := by
  obtain ⟨result, s⟩ := x
  cases result with
  | ok result => exact ⟨by simp only [hfinish]; rfl, by simp only [hfinish]⟩
  | error fault => exact ⟨rfl, rfl⟩

/-- **An operation that gets to the venue** returns and leaves what its attempts come to. -/
theorem serve_of_asks (h : c.asks operation opened opened' = some (request, base)) :
    Comes operation request base opened'
      (retry retriesAfter (.ok .errorUnknown) (c.venue.attemptAt lib request replies)
        (attemptsOf base operation) 1 (c.stateOf operation))
      (c.serve lib operation replies opened opened') := by
  cases operation with
  | submit order =>
    simp only [asks] at h
    simp only [serve, submitOrder]
    cases hbegin : c.base.beginSubmit order opened with
    | mk result base =>
      rw [hbegin] at h
      cases result with
      | some result => cases h
      | none =>
        cases h
        exact comes_conclude (.submit order) (.submit order) base opened' _
  | cancel k =>
    simp only [asks] at h
    simp only [serve, cancelOrder]
    cases hbegin : c.base.beginCancel k opened opened' with
    | mk result base =>
      rw [hbegin] at h
      cases result with
      | inl result => cases h
      | inr mapped =>
        cases h
        exact comes_conclude (.cancel k) (.cancel mapped) base opened' _
  | replace k replacement =>
    simp only [asks] at h
    simp only [serve, replaceOrder]
    cases hbegin : c.base.beginReplace k replacement opened with
    | mk result base =>
      rw [hbegin] at h
      cases result with
      | some result => cases h
      | none =>
        cases h
        exact comes_conclude (.replace k replacement)
          (.replace ((base.venueOrderMap.get k).getD {}) replacement) base opened' _
  | query k status nowNs =>
    obtain ⟨mapped, hget, heq⟩ := Option.map_eq_some_iff.mp h
    cases heq
    simp only [serve, queryOrder, hget]
    exact comes_of_unchanged fun _ _ => rfl
  | cancelAll symbol =>
    cases h
    have hone : retry retriesAfter (.ok .errorUnknown)
        (c.venue.attemptAt lib (.cancelAll symbol) replies) 1 1 {} =
          c.venue.attemptAt lib (.cancelAll symbol) replies 1 {} := by simp [retry_succ]
    simp only [attemptsOf, stateOf, hone]
    exact comes_of_unchanged fun _ _ => rfl

/-- What the connector makes of an attempt. -/
def reading (lib : VenueLibrary) (c : VenueConnector) (request : VenueRequest)
    (replies : ℕ → FuturesReplies) (x : ℕ × RequestState) : Except ReplyFault ConnectorResult :=
  (c.venue.attemptAt lib request replies x.1 x.2).1

/-- **The last attempt decides.** Each attempt before it is followed by another one. -/
theorem serve_of_made (h : c.asks operation opened opened' = some (request, base)) :
    (c.made lib operation replies opened opened' = [] ∧
      Comes operation request base opened' (.ok .errorUnknown, c.stateOf operation)
        (c.serve lib operation replies opened opened')) ∨
    ∃ x, (c.made lib operation replies opened opened').getLast? = some x ∧
      (∀ y ∈ c.made lib operation replies opened opened',
        retriesAfter (c.reading lib request replies y) = true ∨ y = x) ∧
      Comes operation request base opened' (c.venue.attemptAt lib request replies x.1 x.2)
        (c.serve lib operation replies opened opened') := by
  have hserve := @serve_of_asks lib c operation replies opened opened' request base h
  have hmade : c.made lib operation replies opened opened' = attemptsMade retriesAfter
      (c.venue.attemptAt lib request replies) (attemptsOf base operation) 1
      (c.stateOf operation) := by rw [made, h]
  cases hmax : attemptsOf base operation with
  | zero =>
    rw [hmax] at hmade hserve
    exact Or.inl ⟨hmade, hserve⟩
  | succ left =>
    rw [hmax] at hmade hserve
    rw [retry_eq_last] at hserve
    refine Or.inr ⟨_, ?_, fun y hy => ?_, hserve⟩
    · rw [hmade, List.getLast?_eq_some_getLast]
    · rw [hmade] at hy
      exact again_or_last hy

end VenueConnector

end TradingInfrastructure
