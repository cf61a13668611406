import TradingInfrastructure.Connectors.IdempotencyJournal

/-!
# The live connector

`VenueOrderMap` of `core/execution/common/connectors/venue_order_map.hpp` and the submissions,
cancels and replacements of `LiveConnectorBase`, in the same directory. The calls to the venue are
virtual functions of the connector. Their answers, one for each attempt, are arguments of the
operations, as is whether each append opens the journal file.

An operation that reaches the venue is given in the two parts that lie before and after it.
-/

namespace TradingInfrastructure

/-- `VenueOrderEntry`. -/
structure VenueOrderEntry where
  clientOrderId : ℕ := 0
  venueOrderId : CString := []
  exchange : Exchange := .binance
  symbol : Symbol := default
  active : Bool := false
  deriving DecidableEq, Inhabited

/-- `VenueOrderMap`. -/
abbrev VenueOrderMap := List VenueOrderEntry

namespace VenueOrderMap

/-- `MAX_ENTRIES`. -/
def maxEntries : ℕ := 512

/-- A new map, and what `clear` leaves. -/
def empty : VenueOrderMap := List.replicate maxEntries {}

/-- `find`. -/
def find (m : VenueOrderMap) (clientOrderId : ℕ) : Option ℕ :=
  m.findIdx? fun e => e.active && e.clientOrderId == clientOrderId

/-- `find_free_slot`. -/
def findFreeSlot (m : VenueOrderMap) : Option ℕ := m.findIdx? fun e => !e.active

/-- `get`. -/
def get (m : VenueOrderMap) (clientOrderId : ℕ) : Option VenueOrderEntry :=
  (m.find clientOrderId).map (m.getD · {})

/-- `upsert`: nothing when the map is full. -/
def upsert (m : VenueOrderMap) (clientOrderId : ℕ) (venueOrderId : CString) (exchange : Exchange)
    (symbol : CString) : Option VenueOrderMap :=
  ((m.find clientOrderId).or m.findFreeSlot).map fun i => m.modify i fun _ =>
    { clientOrderId := clientOrderId, venueOrderId := strncpyBuf 48 venueOrderId,
      exchange := exchange, symbol := copySymbol symbol, active := true }

/-- `erase`. -/
def erase (m : VenueOrderMap) (clientOrderId : ℕ) : VenueOrderMap :=
  match m.find clientOrderId with
  | some i => m.modify i fun _ => {}
  | none => m

end VenueOrderMap

/-! ## The venue -/

/-- `RetryPolicy`, without the backoff between attempts. -/
structure RetryPolicy where
  maxAttempts : ℕ

/-- `is_retryable`. -/
def ConnectorResult.isRetryable : ConnectorResult → Bool
  | .errorRateLimit | .errorRestFailure | .errorUnknown => true
  | _ => false

/-- What one attempt returns, and the venue order id that it writes, if it does. -/
structure VenueAnswer where
  result : ConnectorResult
  venueOrderId : Option CString := none

/-- `with_retries`, from some attempt on: the result, and the venue order id as the attempts leave
it. -/
def withRetries (answers : ℕ → VenueAnswer) : ℕ → ℕ → CString → ConnectorResult × CString
  | 0, _, venueOrderId => (.errorUnknown, venueOrderId)
  | left + 1, attempt, venueOrderId =>
    let answer := answers attempt
    let venueOrderId := answer.venueOrderId.getD venueOrderId
    if answer.result = .ok then (.ok, venueOrderId)
    else if !answer.result.isRetryable || left == 0 then (answer.result, venueOrderId)
    else withRetries answers left (attempt + 1) venueOrderId

/-- `exchange_to_string`. -/
def Exchange.toCString : Exchange → CString
  | .binance => "BINANCE".toList
  | .okx => "OKX".toList
  | .coinbase => "COINBASE".toList
  | .kraken => "KRAKEN".toList
  | .unknown => "UNKNOWN".toList

/-! ## The connector -/

/-- `LiveConnectorBase`, without the credentials that go into the requests. -/
structure LiveConnectorBase where
  exchange : Exchange
  retryPolicy : RetryPolicy
  journal : IdempotencyJournal
  venueOrderMap : VenueOrderMap

namespace LiveConnectorBase

/-- The constructor, for the journal file that is there. -/
def new (exchange : Exchange) (retryPolicy : RetryPolicy) (file : CString) : LiveConnectorBase where
  exchange := exchange
  retryPolicy := retryPolicy
  journal := .load file
  venueOrderMap := .empty

/-- `make_idempotency_key`. -/
def makeIdempotencyKey (c : LiveConnectorBase) (clientOrderId : ℕ) : CString :=
  "TRT-".toList ++ Nat.toDigits 10 clientOrderId ++ ['-'] ++ c.exchange.toCString

/-- The attempts of an operation at the venue. -/
def attempt (c : LiveConnectorBase) (answers : ℕ → VenueAnswer) : ConnectorResult × CString :=
  withRetries answers c.retryPolicy.maxAttempts 1 []

/-- The entry of an order at the venue, or an error when the map is full. -/
def mapOrder (c : LiveConnectorBase) (clientOrderId : ℕ) (venueOrderId : CString)
    (symbol : Symbol) :
    ConnectorResult × LiveConnectorBase :=
  match c.venueOrderMap.upsert clientOrderId venueOrderId c.exchange symbol.chars with
  | some m => (.ok, { c with venueOrderMap := m })
  | none => (.errorUnknown, c)

/-- `mapOrder` leaves the map with the order, unless the map is full. -/
theorem mapOrder_snd (c : LiveConnectorBase) (k : ℕ) (v : CString) (symbol : Symbol) :
    (c.mapOrder k v symbol).2 = { c with
      venueOrderMap := (c.venueOrderMap.upsert k v c.exchange symbol.chars).getD
        c.venueOrderMap } := by
  unfold mapOrder
  cases c.venueOrderMap.upsert k v c.exchange symbol.chars <;> rfl

/-- It succeeds when the map has a place for the order. -/
theorem mapOrder_ok {c : LiveConnectorBase} {k : ℕ} {v : CString} {symbol : Symbol}
    (hok : (c.mapOrder k v symbol).1 = .ok) :
    ∃ m, c.venueOrderMap.upsert k v c.exchange symbol.chars = some m ∧
      (c.mapOrder k v symbol).2 = { c with venueOrderMap := m } := by
  unfold mapOrder at hok ⊢
  cases hup : c.venueOrderMap.upsert k v c.exchange symbol.chars with
  | none =>
    rw [hup] at hok
    cases hok
  | some m => exact ⟨m, rfl, rfl⟩

/-- The journal has a venue order id, and not the sign that stands for none. -/
def hasVenueOrderId (d : JournalDecision) : Bool :=
  match d.venueOrderId with
  | [] => false
  | ch :: _ => ch != '-'

/-- `submit_order` up to the call of the venue: its result when there is none. -/
def beginSubmit (c : LiveConnectorBase) (order : Order) (opened : Bool) :
    Option ConnectorResult × LiveConnectorBase :=
  let (recovery, journal) := c.journal.begin .submit order.clientOrderId 0 opened
  let c := { c with journal := journal }
  if recovery.alreadyAcked then
    if hasVenueOrderId recovery then
      let (result, c) := c.mapOrder order.clientOrderId recovery.venueOrderId order.symbol
      (some result, c)
    else (some .ok, c)
  else if !recovery.shouldSendToVenue then (some .errorUnknown, c)
  else (none, c)

/-- `submit_order` after the call of the venue. -/
def finishSubmit (c : LiveConnectorBase) (order : Order) (result : ConnectorResult)
    (venueOrderId : CString) (opened : Bool) : ConnectorResult × LiveConnectorBase :=
  if result = .ok then
    { c with
      journal := c.journal.ack .submit order.clientOrderId venueOrderId 0 opened }.mapOrder
        order.clientOrderId venueOrderId order.symbol
  else (result, { c with journal := c.journal.fail .submit order.clientOrderId 0 opened })

/-- `submit_order`. -/
def submitOrder (c : LiveConnectorBase) (order : Order) (answers : ℕ → VenueAnswer)
    (opened opened' : Bool) : ConnectorResult × LiveConnectorBase :=
  match c.beginSubmit order opened with
  | (some result, c) => (result, c)
  | (none, c) =>
    let (result, venueOrderId) := c.attempt answers
    c.finishSubmit order result venueOrderId opened'

/-- `cancel_order` up to the call of the venue: its result when there is none, or the entry that the
venue is asked to cancel. -/
def beginCancel (c : LiveConnectorBase) (clientOrderId : ℕ) (opened opened' : Bool) :
    (ConnectorResult ⊕ VenueOrderEntry) × LiveConnectorBase :=
  let replaceState := c.journal.lookup .replace clientOrderId
  if replaceState.state = .inFlight ∨ replaceState.state = .acked then (.inl .errorInvalidOrder, c)
  else
    let (decision, journal) := c.journal.begin .cancel clientOrderId 0 opened
    let c := { c with journal := journal }
    if decision.alreadyAcked then (.inl .ok, c)
    else if !decision.shouldSendToVenue then (.inl .errorUnknown, c)
    else
      match c.venueOrderMap.get clientOrderId with
      | none =>
        (.inl .errorInvalidOrder,
          { c with journal := c.journal.fail .cancel clientOrderId 0 opened' })
      | some mapped => (.inr mapped, c)

/-- `cancel_order` after the call of the venue. -/
def finishCancel (c : LiveConnectorBase) (clientOrderId : ℕ) (mapped : VenueOrderEntry)
    (result : ConnectorResult) (opened : Bool) : ConnectorResult × LiveConnectorBase :=
  if result = .ok then
    (result, { c with
      journal := c.journal.ack .cancel clientOrderId mapped.venueOrderId 0 opened
      venueOrderMap := c.venueOrderMap.erase clientOrderId })
  else (result, { c with journal := c.journal.fail .cancel clientOrderId 0 opened })

/-- `cancel_order`. -/
def cancelOrder (c : LiveConnectorBase) (clientOrderId : ℕ) (answers : ℕ → VenueAnswer)
    (opened opened' : Bool) : ConnectorResult × LiveConnectorBase :=
  match c.beginCancel clientOrderId opened opened' with
  | (.inl result, c) => (result, c)
  | (.inr mapped, c) => c.finishCancel clientOrderId mapped (c.attempt answers).1 opened'

/-- `replace_order`. -/
def replaceOrder (c : LiveConnectorBase) (clientOrderId : ℕ) (replacement : Order)
    (answers : ℕ → VenueAnswer) (opened opened' : Bool) : ConnectorResult × LiveConnectorBase :=
  let cancelState := c.journal.lookup .cancel clientOrderId
  if cancelState.state = .inFlight ∨ cancelState.state = .acked then (.errorInvalidOrder, c)
  else
    match c.venueOrderMap.get clientOrderId with
    | none => (.errorInvalidOrder, c)
    | some _ =>
      let (decision, journal) :=
        c.journal.begin .replace clientOrderId replacement.clientOrderId opened
      let c := { c with journal := journal }
      if decision.alreadyAcked then
        if hasVenueOrderId decision then
          { c with venueOrderMap := c.venueOrderMap.erase clientOrderId }.mapOrder
            replacement.clientOrderId decision.venueOrderId replacement.symbol
        else (.ok, c)
      else if !decision.shouldSendToVenue then (.errorUnknown, c)
      else
        let (result, newVenueOrderId) := c.attempt answers
        if result ≠ .ok then
          (result, { c with
            journal := c.journal.fail .replace clientOrderId replacement.clientOrderId opened' })
        else
          { c with
            journal := c.journal.ack .replace clientOrderId newVenueOrderId
              replacement.clientOrderId opened'
            venueOrderMap := c.venueOrderMap.erase clientOrderId }.mapOrder
              replacement.clientOrderId newVenueOrderId replacement.symbol

/-- `reconcile`. -/
def reconcile (c : LiveConnectorBase) : LiveConnectorBase :=
  { c with journal := c.journal.recover, venueOrderMap := .empty }

end LiveConnectorBase

end TradingInfrastructure
