import TradingInfrastructure.Feeds.BinanceFeedHandler

/-!
# The Coinbase feed handler

`core/feeds/coinbase/coinbase_feed_handler.cpp`: snapshots and updates come on one stream with one
sequence. Updates before the first snapshot are kept as texts and replayed on it; after it, an
update that is not the next one triggers a resynchronisation. Heartbeats are only timed.

The callbacks are set, as the engine sets them. A conversion that throws inside a `try` loses its
level or its trade; the others end `process_message` with the exception.
-/

namespace TradingInfrastructure

/-- `CoinbaseFeedHandler`, with the calls of its callbacks so far and the number of calls of
`trigger_resnapshot`. -/
structure CoinbaseFeedHandler where
  state : FeedState := .disconnected
  running : Bool := false
  lastSequence : UInt64 := 0
  lastHeartbeatNs : ℤ := 0
  lastEventTimeExchangeNs : ℤ := 0
  reconnectRequested : Bool := false
  authRejected : Bool := false
  subscriptionRejected : Bool := false
  lastStartFailureReason : CString := []
  deltaBuffer : List CString := []
  published : List Publication := []
  resyncs : ℕ := 0

namespace CoinbaseFeedHandler

/-- `MAX_BUFFER_SIZE`. -/
def maxBufferSize : ℕ := 1000

/-! ## Parsing -/

/-- `parse_rfc3339_ns`. -/
def parseRfc3339Ns (lib : FeedLibrary) (value : CString) : ℤ :=
  if value.length < 20 then 0
  else
    match lib.getTime (value.take 19) with
    | none => 0
    | some seconds =>
      let digits := match value.drop 19 with
        | '.' :: rest => (rest.takeWhile Char.isDigit).take 9
        | _ => []
      let nanos := Nat.ofDigitChars 10 (digits ++ List.replicate (9 - digits.length) '0') 0
      if seconds < 0 then 0 else seconds * 1000000000 + nanos

/-- The time of the first event that has one. -/
def eventTime (lib : FeedLibrary) : List Json → ℤ
  | [] => 0
  | event :: rest =>
    match event.find "event_time".toList, event.find "current_time".toList with
    | some (.string text), _ => parseRfc3339Ns lib text
    | _, some (.string text) => parseRfc3339Ns lib text
    | _, _ => eventTime lib rest

/-- The elements of the array at a key, and none when there is no array. -/
def arrayAt (json : Json) (key : CString) : List Json :=
  match json.find key with
  | some member => member.items
  | none => []

/-- `extract_exchange_timestamp_ns`. -/
def extractExchangeTimestampNs (lib : FeedLibrary) (json : Json) : ℤ :=
  match json.find "timestamp".toList with
  | some (.string text) => parseRfc3339Ns lib text
  | _ => eventTime lib (arrayAt json "events".toList)

/-- The members of an update that are there together: side, price and quantity. -/
def updateFields (update : Json) : Option (Json × Json × Json) :=
  match update.find "side".toList, update.find "price_level".toList,
    update.find "new_quantity".toList with
  | some side, some price, some quantity => some (side, price, quantity)
  | _, _, _ => none

/-- The updates of a message, event after event. -/
def updates (json : Json) : List (Json × Json × Json) :=
  (arrayAt json "events".toList).flatMap fun event =>
    (arrayAt event "updates".toList).filterMap updateFields

/-- A level of a snapshot: the price and the quantity are read before the side. -/
def parseSnapshotLevel (lib : FeedLibrary) (fields : Json × Json × Json) :
    Except CxxException (CString × PriceLevel) := do
  let price ← lib.numberIn fields.2.1
  let size ← lib.numberIn fields.2.2
  return (← fields.1.getString, ⟨price, size, 0⟩)

/-- The levels of a snapshot with one of these sides; those that cannot be read are passed over. -/
def snapshotLevels (lib : FeedLibrary) (json : Json) (sides : List CString) : List PriceLevel :=
  (((updates json).filterMap fun fields => guarded (parseSnapshotLevel lib fields)).filter
    fun level => level.1 ∈ sides).map Prod.snd

/-- The snapshot of a message. The levels are sorted from the touch. -/
def readSnapshot (lib : FeedLibrary) (json : Json) (seq : UInt64) : Snapshot where
  sequence := seq.toNat
  bids := (snapshotLevels lib json ["bid".toList]).insertionSort fun a b => b.price ≤ a.price
  asks := (snapshotLevels lib json ["offer".toList, "ask".toList]).insertionSort
    fun a b => a.price ≤ b.price

/-- A delta of an update. -/
def parseDelta (lib : FeedLibrary) (seq : UInt64) (fields : Json × Json × Json) :
    Except CxxException Delta := do
  let side := if (← fields.1.getString) = "bid".toList then Side.bid else .ask
  let price ← lib.numberIn fields.2.1
  let size ← lib.numberIn fields.2.2
  return ⟨side, price, size, 0, seq.toNat⟩

/-- The deltas of a message; those that cannot be read are passed over. -/
def readDeltas (lib : FeedLibrary) (json : Json) (seq : UInt64) : List Delta :=
  (updates json).filterMap fun fields => guarded (parseDelta lib seq fields)

/-- A trade. -/
def parseTrade (lib : FeedLibrary) (trade price size : Json) : Except CxxException TradeFlow := do
  let price ← lib.numberIn price
  let size ← lib.numberIn size
  let side ← trade.valueString "side".toList []
  return ⟨price, size, if side = "BUY".toList then 0 else if side = "SELL".toList then 1 else 255⟩

/-- A trade of a message, if it has a price and a size and can be read. -/
def readTrade (lib : FeedLibrary) (trade : Json) : Option TradeFlow :=
  match trade.find "price".toList, trade.find "size".toList with
  | some price, some size => guarded (parseTrade lib trade price size)
  | _, _ => none

/-- The trades of a message. -/
def readTrades (lib : FeedLibrary) (json : Json) : List TradeFlow :=
  (arrayAt json "events".toList).flatMap fun event =>
    (arrayAt event "trades".toList).filterMap (readTrade lib)

/-- Some event of the message is a snapshot. -/
def hasSnapshot (json : Json) : Bool :=
  (arrayAt json "events".toList).any fun event =>
    match event.find "type".toList with
    | some (.string type) => type == "snapshot".toList
    | _ => false

/-- What a message asks of the handler. -/
inductive Incoming
  | ignored
  | error (reason : CString)
  | heartbeat (exchangeTs : ℤ)
  | trades (trades : List TradeFlow)
  | level2 (json : Json) (seq : UInt64)

/-- The message is an error of the venue. -/
def isError (json : Json) : Bool :=
  match json.find "type".toList with
  | some (.string type) => type == "error".toList
  | _ => false

/-- The reading half of `process_message`. -/
def readMessage (lib : FeedLibrary) (message : CString) : Except CxxException Incoming :=
  match lib.parse message with
  | none => .ok .ignored
  | some json =>
    if isError json then
      return .error (← json.valueString "message".toList "unknown error".toList)
    else
      match json.find "channel".toList with
      | some (.string channel) =>
        if channel = "heartbeats".toList then
          .ok (.heartbeat (extractExchangeTimestampNs lib json))
        else if channel = "market_trades".toList then .ok (.trades (readTrades lib json))
        else if channel = "l2_data".toList then
          return .level2 json (← json.sequenceAt "sequence_num".toList)
        else .ok .ignored
      | _ => .ok .ignored

/-! ## Handling -/

/-- `trigger_resnapshot`. -/
def triggerResnapshot (h : CoinbaseFeedHandler) : CoinbaseFeedHandler :=
  { h with
    deltaBuffer := []
    state := .buffering
    reconnectRequested := true
    resyncs := h.resyncs + 1 }

/-- `last_start_failure_reason_ = reason`. -/
def withReason (h : CoinbaseFeedHandler) (reason : CString) : CoinbaseFeedHandler :=
  { h with lastStartFailureReason := reason }

/-- `process_snapshot`. -/
def processSnapshot (lib : FeedLibrary) (h : CoinbaseFeedHandler) (json : Json) (seq : UInt64) :
    Result × CoinbaseFeedHandler :=
  let snap := readSnapshot lib json seq
  if snap.bids = [] ∨ snap.asks = [] then (.errorBookCorrupted, h)
  else
    (.success, { h with
      lastSequence := seq
      lastEventTimeExchangeNs := extractExchangeTimestampNs lib json
      published := h.published ++ [.snapshot snap] })

/-- `process_delta`. -/
def processDelta (lib : FeedLibrary) (h : CoinbaseFeedHandler) (json : Json) (seq : UInt64) :
    CoinbaseFeedHandler :=
  { h with
    lastSequence := seq
    lastEventTimeExchangeNs := extractExchangeTimestampNs lib json
    published := h.published ++ (readDeltas lib json seq).map .delta }

/-- The loop of `apply_buffered_deltas`; the answer says whether it went through. -/
def replayDeltas (lib : FeedLibrary) (h : CoinbaseFeedHandler) :
    List CString → Except CxxException (Bool × CoinbaseFeedHandler)
  | [] => .ok (true, h)
  | message :: rest =>
    match lib.parse message with
    | none => h.replayDeltas lib rest
    | some json => do
      let seq ← json.sequenceAt "sequence_num".toList
      if seq ≤ h.lastSequence then h.replayDeltas lib rest
      else if seq ≠ h.lastSequence + 1 then return (false, h)
      else (h.processDelta lib json seq).replayDeltas lib rest

/-- `apply_buffered_deltas`. -/
def applyBufferedDeltas (lib : FeedLibrary) (h : CoinbaseFeedHandler) :
    Except CxxException (Bool × CoinbaseFeedHandler) := do
  let (done, h) ← h.replayDeltas lib h.deltaBuffer
  return (done, { h with deltaBuffer := [] })

/-- The snapshot branch of `process_message`. -/
def handleSnapshot (lib : FeedLibrary) (h : CoinbaseFeedHandler) (json : Json) (seq : UInt64) :
    Except CxxException (Result × CoinbaseFeedHandler) :=
  match h.processSnapshot lib json seq with
  | (.success, h) => do
    match ← h.applyBufferedDeltas lib with
    | (true, h) => return (.success, { h with state := .streaming })
    | (false, h) =>
      return (.errorSequenceGap,
        (h.withReason "buffered delta replay failed".toList).triggerResnapshot)
  | (result, h) => .ok (result, (h.withReason "invalid snapshot payload".toList).triggerResnapshot)

/-- The update branches of `process_message`. -/
def handleUpdate (lib : FeedLibrary) (h : CoinbaseFeedHandler) (message : CString) (json : Json)
    (seq : UInt64) : Result × CoinbaseFeedHandler :=
  if h.state ≠ .streaming then
    if h.deltaBuffer.length < maxBufferSize then
      (.success, { h with deltaBuffer := h.deltaBuffer ++ [message] })
    else
      (.success, (h.withReason "buffer overflow before snapshot".toList).triggerResnapshot)
  else if seq ≠ h.lastSequence + 1 then
    (.errorSequenceGap, (h.withReason "sequence gap resync".toList).triggerResnapshot)
  else (.success, h.processDelta lib json seq)

/-- The word stands somewhere in the text. -/
def hasWord (text word : CString) : Bool := text.tails.any word.isPrefixOf

/-- The error branch of `process_message`: the handler stops. -/
def handleError (h : CoinbaseFeedHandler) (reason : CString) : CoinbaseFeedHandler :=
  let lower := reason.map Char.toLower
  if hasWord lower "auth".toList || hasWord lower "jwt".toList ||
      hasWord lower "signature".toList then
    { h with
      authRejected := true
      lastStartFailureReason := "authentication rejected: ".toList ++ reason
      running := false }
  else
    { h with
      subscriptionRejected := true
      lastStartFailureReason := "subscription rejected: ".toList ++ reason
      running := false }

/-- The heartbeat branch of `process_message`. -/
def handleHeartbeat (h : CoinbaseFeedHandler) (now exchangeTs : ℤ) : CoinbaseFeedHandler :=
  { h with
    lastHeartbeatNs := now
    lastEventTimeExchangeNs := if exchangeTs > 0 then exchangeTs else h.lastEventTimeExchangeNs }

/-- The handling half of `process_message`. -/
def handle (lib : FeedLibrary) (now : ℤ) (h : CoinbaseFeedHandler) (message : CString) :
    Incoming → Except CxxException (Result × CoinbaseFeedHandler)
  | .ignored => .ok (.success, h)
  | .error reason => .ok (.errorConnectionLost, h.handleError reason)
  | .heartbeat exchangeTs => .ok (.success, h.handleHeartbeat now exchangeTs)
  | .trades trades => .ok (.success, { h with published := h.published ++ trades.map .trade })
  | .level2 json seq =>
    if hasSnapshot json then h.handleSnapshot lib json seq
    else .ok (h.handleUpdate lib message json seq)

/-- `process_message`, at a time of the clock. -/
def processMessage (lib : FeedLibrary) (now : ℤ) (h : CoinbaseFeedHandler) (message : CString) :
    Except CxxException (Result × CoinbaseFeedHandler) := do
  h.handle lib now message (← readMessage lib message)

end CoinbaseFeedHandler

end TradingInfrastructure
