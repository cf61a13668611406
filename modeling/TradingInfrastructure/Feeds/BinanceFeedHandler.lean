import TradingInfrastructure.Feeds.BookManager

/-!
# The Binance feed handler

`core/feeds/binance/binance_feed_handler.cpp`: depth messages are kept in a buffer until a snapshot
has been fetched, replayed on it, and from then on handed to the delta callback one by one. A
message covers the update identifiers from `U` to `u`, and continues the stream when the one after
the last sequence is among them.

The identifiers are 64-bit words and wrap. The callbacks are set, as the engine sets them; error
texts and local clock readings, which nothing here reads back, are left out.
-/

namespace TradingInfrastructure

/-- The states of a feed handler. -/
inductive FeedState
  | disconnected | buffering | streaming
  deriving DecidableEq, Inhabited, Repr

namespace BinanceFeed

/-- `ParsedLevel`. -/
structure ParsedLevel where
  price : ℚ := 0
  size : ℚ := 0
  deriving DecidableEq, Inhabited

/-- `BufferedDelta`: a parsed depth message. -/
structure BufferedDelta where
  firstUpdateId : UInt64 := 0
  lastUpdateId : UInt64 := 0
  timestampExchangeNs : ℤ := 0
  bids : List ParsedLevel := []
  asks : List ParsedLevel := []
  deriving DecidableEq, Inhabited

/-- `MAX_BUFFER_SIZE`. -/
def maxBufferSize : ℕ := 8192

/-- What the handler delivers: `apply_delta` hands over the levels of one message. -/
inductive Delivery
  | snapshot (s : Snapshot)
  | depth (d : BufferedDelta)
  | trade (t : TradeFlow)

/-- The deltas that `apply_delta` makes of one side of a message. -/
def BufferedDelta.levelDeltas (d : BufferedDelta) (side : Side) (levels : List ParsedLevel) :
    List Publication :=
  levels.map fun level => .delta ⟨side, level.price, level.size, 0, d.lastUpdateId.toNat⟩

/-- The calls of `delta_callback_` for a message. -/
def BufferedDelta.calls (d : BufferedDelta) : List Publication :=
  d.levelDeltas .bid d.bids ++ d.levelDeltas .ask d.asks

/-- The depth message of a delivery. -/
def Delivery.depth? : Delivery → Option BufferedDelta
  | .depth d => some d
  | _ => none

/-- The snapshot of a delivery. -/
def Delivery.snapshot? : Delivery → Option Snapshot
  | .snapshot s => some s
  | _ => none

/-- The calls of the callbacks for one delivery. -/
def Delivery.calls : Delivery → List Publication
  | .snapshot s => [.snapshot s]
  | .depth d => d.calls
  | .trade t => [.trade t]

end BinanceFeed

open BinanceFeed

/-- `BinanceFeedHandler`, with what it has delivered so far. -/
structure BinanceFeedHandler where
  state : FeedState := .disconnected
  lastSequence : UInt64 := 0
  reconnectRequested : Bool := false
  deltaBuffer : List BufferedDelta := []
  bufferHighWaterMark : ℕ := 0
  bufferedApplied : ℕ := 0
  bufferedSkipped : ℕ := 0
  resyncCount : ℕ := 0
  lastResyncReason : CString := []
  delivered : List Delivery := []

namespace BinanceFeedHandler

/-- The calls of the callbacks so far. -/
def published (h : BinanceFeedHandler) : List Publication := h.delivered.flatMap Delivery.calls

/-! ## Parsing -/

/-- `parse_exchange_timestamp_ns`. -/
def parseExchangeTimestampNs (json : Json) : ℤ :=
  match json.find "E".toList with
  | some (.unsigned n) => ((n.toNat : ℤ).bmod (2 ^ 64) * 1000000).bmod (2 ^ 64)
  | _ => 0

/-- The price and the size of a level. -/
def parseLevel (lib : FeedLibrary) (price size : Json) : Except CxxException ParsedLevel := do
  return ⟨← lib.numberIn price, ← lib.numberIn size⟩

/-- `parse_side`: elements that are no levels are passed over, and a level that cannot be read
rejects the message. -/
def parseSide (lib : FeedLibrary) : List Json → Except Result (List ParsedLevel)
  | [] => .ok []
  | .array (price :: size :: _) :: rest =>
    match parseLevel lib price size with
    | .ok level => (parseSide lib rest).map (level :: ·)
    | .error _ => .error .errorBookCorrupted
  | _ :: rest => parseSide lib rest

/-- `parse_delta_message`. The outer exception is the one of `value`. -/
def parseDeltaMessage (lib : FeedLibrary) (json : Json) :
    Except CxxException (Except Result BufferedDelta) :=
  match json.find "U".toList, json.find "u".toList with
  | some (.unsigned first), some (.unsigned last) => do
    let bids := parseSide lib (← json.valueArray "b".toList).items
    let asks := parseSide lib (← json.valueArray "a".toList).items
    return match bids, asks with
      | .ok bids, .ok asks => .ok ⟨first, last, parseExchangeTimestampNs json, bids, asks⟩
      | _, _ => .error .errorBookCorrupted
  | _, _ => .ok (.error .errorInvalidSequence)

/-- The trade of an `aggTrade` message. -/
def parseTrade (lib : FeedLibrary) (payload price qty : Json) : Except CxxException TradeFlow := do
  let price ← lib.numberIn price
  let qty ← lib.numberIn qty
  let isSellerAggressor ← payload.valueBool "m".toList false
  return ⟨price, qty, if isSellerAggressor then 1 else 0⟩

/-- What a message asks of the handler. -/
inductive Incoming
  | ignored
  | trade (t : TradeFlow)
  | rejected (r : Result)
  | depth (d : BufferedDelta)

/-- The object that holds the event: the member `data` of a combined stream, or the message. -/
def payloadOf (json : Json) : Json :=
  match json.find "data".toList with
  | some data => if data.isObject then data else json
  | none => json

/-- The reading half of `process_message`. -/
def readMessage (lib : FeedLibrary) (message : CString) : Except CxxException Incoming :=
  match lib.parse message with
  | none => .ok .ignored
  | some json =>
    let payload := payloadOf json
    match payload.find "e".toList with
    | some (.string event) =>
      if event = "aggTrade".toList then
        match payload.find "p".toList, payload.find "q".toList with
        | some price, some qty =>
          match guarded (parseTrade lib payload price qty) with
          | some trade => .ok (.trade trade)
          | none => .ok .ignored
        | _, _ => .ok .ignored
      else if event = "depthUpdate".toList then do
        match ← parseDeltaMessage lib payload with
        | .ok delta => return .depth delta
        | .error result => return .rejected result
      else .ok .ignored
    | _ => .ok .ignored

/-! ## Handling -/

/-- `trigger_resnapshot`. -/
def triggerResnapshot (h : BinanceFeedHandler) (reason : CString) : BinanceFeedHandler :=
  { h with
    resyncCount := h.resyncCount + 1
    lastResyncReason := reason
    deltaBuffer := []
    state := .buffering
    reconnectRequested := true }

/-- `validate_delta_sequence`. -/
def validateDeltaSequence (h : BinanceFeedHandler) (first last : UInt64) : Bool :=
  first ≤ h.lastSequence + 1 && h.lastSequence + 1 ≤ last

/-- `apply_delta`. -/
def applyDelta (h : BinanceFeedHandler) (d : BufferedDelta) : BinanceFeedHandler :=
  { h with
    delivered := h.delivered ++ [.depth d]
    lastSequence := d.lastUpdateId }

/-- The buffering branch of `process_message`. -/
def bufferDelta (h : BinanceFeedHandler) (d : BufferedDelta) : Result × BinanceFeedHandler :=
  if h.deltaBuffer.length ≥ maxBufferSize then
    (.errorConnectionLost, h.triggerResnapshot "buffer_overflow".toList)
  else
    (.success, { h with
      deltaBuffer := h.deltaBuffer ++ [d]
      bufferHighWaterMark := max h.bufferHighWaterMark (h.deltaBuffer.length + 1) })

/-- The streaming branch of `process_message`. -/
def streamDelta (h : BinanceFeedHandler) (d : BufferedDelta) : Result × BinanceFeedHandler :=
  if d.lastUpdateId ≤ h.lastSequence then (.success, h)
  else if !h.validateDeltaSequence d.firstUpdateId d.lastUpdateId then
    (.errorSequenceGap, h.triggerResnapshot "sequence_gap".toList)
  else (.success, h.applyDelta d)

/-- The handling half of `process_message`. -/
def handle (h : BinanceFeedHandler) : Incoming → Result × BinanceFeedHandler
  | .ignored => (.success, h)
  | .trade t => (.success, { h with delivered := h.delivered ++ [.trade t] })
  | .rejected result => (result, h)
  | .depth d => if h.state = .buffering then h.bufferDelta d else h.streamDelta d

/-- `process_message`. -/
def processMessage (lib : FeedLibrary) (h : BinanceFeedHandler) (message : CString) :
    Except CxxException (Result × BinanceFeedHandler) := do
  return h.handle (← readMessage lib message)

/-! ## Replay of the buffer -/

/-- What the search for the first message to apply finds. -/
inductive SyncPoint
  /-- The messages from the first one that reaches beyond the snapshot, and how many stand before
  it. -/
  | bridge (skipped : ℕ) (rest : List BufferedDelta)
  /-- No message reaches beyond the snapshot. -/
  | allStale (skipped : ℕ)
  /-- The first one that does starts too late. -/
  | gap

/-- The first loop of `apply_buffered_deltas`. When it ends without a decision every message was
skipped, so that the branch of a missing bridge is never taken. -/
def findSyncPoint (snapshotSequence : UInt64) (skipped : ℕ) : List BufferedDelta → SyncPoint
  | [] => .allStale skipped
  | d :: rest =>
    if d.lastUpdateId ≤ snapshotSequence then findSyncPoint snapshotSequence (skipped + 1) rest
    else if d.firstUpdateId ≤ snapshotSequence + 1 ∧ snapshotSequence + 1 ≤ d.lastUpdateId then
      .bridge skipped (d :: rest)
    else .gap

/-- The second loop of `apply_buffered_deltas`; the answer says whether it went through. Its other
failure is not there, since `apply_delta` always succeeds. -/
def replayDeltas (h : BinanceFeedHandler) : List BufferedDelta → Bool × BinanceFeedHandler
  | [] => (true, h)
  | d :: rest =>
    if !h.validateDeltaSequence d.firstUpdateId d.lastUpdateId then
      (false, h.triggerResnapshot "buffered_sequence_gap".toList)
    else (h.applyDelta d).replayDeltas rest

/-- `apply_buffered_deltas`. -/
def applyBufferedDeltas (h : BinanceFeedHandler) (snapshotSequence : UInt64) :
    Result × BinanceFeedHandler :=
  match findSyncPoint snapshotSequence 0 h.deltaBuffer with
  | .gap => (.errorSequenceGap, h.triggerResnapshot "snapshot_handoff_gap".toList)
  | .allStale skipped =>
    (.success, { h with bufferedSkipped := h.bufferedSkipped + skipped, deltaBuffer := [] })
  | .bridge skipped rest =>
    match h.replayDeltas rest with
    | (true, h) =>
      (.success, { h with
        bufferedApplied := h.bufferedApplied + rest.length
        bufferedSkipped := h.bufferedSkipped + skipped
        deltaBuffer := [] })
    | (false, h) => (.errorSequenceGap, h)

/-! ## Snapshots -/

/-- The reply of the venue to a request of a snapshot. -/
structure SnapshotReply where
  status : ℤ
  body : CString

/-- `parse_levels` of `process_snapshot`: a level that cannot be read is passed over. -/
def parseLevels (lib : FeedLibrary) : List Json → List PriceLevel
  | [] => []
  | .array (price :: size :: _) :: rest =>
    match guarded (parseLevel lib price size) with
    | some level => ⟨level.price, level.size, 0⟩ :: parseLevels lib rest
    | none => parseLevels lib rest
  | _ :: rest => parseLevels lib rest

/-- The snapshot in a reply with this update identifier. -/
def readSnapshot (lib : FeedLibrary) (json : Json) (lastUpdateId : UInt64) :
    Except CxxException Snapshot := do
  let bids := parseLevels lib (← json.valueArray "bids".toList).items
  let asks := parseLevels lib (← json.valueArray "asks".toList).items
  return match json.find "checksum".toList with
    | some (.unsigned n) => ⟨lastUpdateId.toNat, bids, asks, n.toUInt32, true⟩
    | _ => ⟨lastUpdateId.toNat, bids, asks, 0, false⟩

/-- The checks of `process_snapshot`, and what it does with a snapshot that passes them. -/
def acceptSnapshot (bytesOf : ℚ → List UInt8) (h : BinanceFeedHandler) (lastUpdateId : UInt64)
    (snap : Snapshot) : Result × BinanceFeedHandler :=
  if snap.checksumPresent ∧ OrderBook.computeSnapshotChecksum bytesOf snap ≠ snap.checksum then
    (.errorBookCorrupted, h)
  else if snap.bids = [] ∨ snap.asks = [] then (.errorBookCorrupted, h)
  else
    (.success, { h with
      lastSequence := lastUpdateId
      delivered := h.delivered ++ [.snapshot snap] })

/-- `process_snapshot`, on the reply to its request. -/
def processSnapshot (lib : FeedLibrary) (bytesOf : ℚ → List UInt8) (h : BinanceFeedHandler)
    (reply : SnapshotReply) : Except CxxException (Result × BinanceFeedHandler) :=
  if reply.status = 429 ∨ reply.status = 418 then .ok (.errorConnectionLost, h)
  else if ¬ (200 ≤ reply.status ∧ reply.status < 300) ∨ reply.body = [] then
    .ok (.errorConnectionLost, h)
  else
    match lib.parse reply.body with
    | none => .ok (.errorBookCorrupted, h)
    | some json =>
      match json.find "lastUpdateId".toList with
      | some (.unsigned lastUpdateId) => do
        return h.acceptSnapshot bytesOf lastUpdateId (← readSnapshot lib json lastUpdateId)
      | _ => .ok (.errorBookCorrupted, h)

/-! ## Nothing is thrown -/

theorem parseDeltaMessage_isOk (lib : FeedLibrary) (json : Json) :
    ∃ answer, parseDeltaMessage lib json = .ok answer := by
  rw [parseDeltaMessage]
  split
  · rename_i hfirst hlast
    rw [Json.valueArray_of_isObject (Json.isObject_of_find hfirst),
      Json.valueArray_of_isObject (Json.isObject_of_find hfirst)]
    exact ⟨_, rfl⟩
  · exact ⟨_, rfl⟩

/-- **Every message is read**: a conversion of it that throws is inside a `try` or behind a test of
the type. -/
theorem readMessage_isOk (lib : FeedLibrary) (message : CString) :
    ∃ incoming, readMessage lib message = .ok incoming := by
  unfold readMessage
  split
  · exact ⟨_, rfl⟩
  · dsimp only
    split
    · split_ifs
      · split
        · split <;> exact ⟨_, rfl⟩
        · exact ⟨_, rfl⟩
      · obtain ⟨answer, hanswer⟩ := parseDeltaMessage_isOk lib (payloadOf _)
        rw [hanswer]
        cases answer <;> exact ⟨_, rfl⟩
      · exact ⟨_, rfl⟩
    · exact ⟨_, rfl⟩

theorem processMessage_isOk (lib : FeedLibrary) (h : BinanceFeedHandler) (message : CString) :
    ∃ incoming, readMessage lib message = .ok incoming ∧
      h.processMessage lib message = .ok (h.handle incoming) := by
  obtain ⟨incoming, hread⟩ := readMessage_isOk lib message
  refine ⟨incoming, hread, ?_⟩
  rw [processMessage, hread]
  rfl

/-! ## The kinds of messages -/

/-- The message is a depth update, and this is what it says. -/
def IsDepth (lib : FeedLibrary) (message : CString) (d : BufferedDelta) : Prop :=
  readMessage lib message = .ok (.depth d)

/-- The message is one the sequence has already reached. -/
abbrev Passed (last : UInt64) (d : BufferedDelta) : Prop := d.lastUpdateId ≤ last

/-- The message covers the identifier after the sequence. -/
abbrev Continues (last : UInt64) (d : BufferedDelta) : Prop :=
  d.firstUpdateId ≤ last + 1 ∧ last + 1 ≤ d.lastUpdateId

variable {h : BinanceFeedHandler} {d : BufferedDelta}

theorem validateDeltaSequence_iff :
    h.validateDeltaSequence d.firstUpdateId d.lastUpdateId = true ↔ Continues h.lastSequence d := by
  simp [validateDeltaSequence]

theorem validateDeltaSequence_eq_false (hc : ¬ Continues h.lastSequence d) :
    h.validateDeltaSequence d.firstUpdateId d.lastUpdateId = false :=
  Bool.eq_false_iff.mpr (mt validateDeltaSequence_iff.mp hc)

/-- A message goes into a buffer that has room. -/
theorem handle_buffering (hb : h.state = .buffering)
    (hroom : h.deltaBuffer.length < maxBufferSize) :
    h.handle (.depth d) = (.success, { h with
      deltaBuffer := h.deltaBuffer ++ [d]
      bufferHighWaterMark := max h.bufferHighWaterMark (h.deltaBuffer.length + 1) }) := by
  rw [handle, if_pos hb, bufferDelta, if_neg (by omega)]

theorem streamDelta_passed (hp : Passed h.lastSequence d) : h.streamDelta d = (.success, h) := by
  rw [streamDelta, if_pos hp]

theorem streamDelta_continues (hp : ¬ Passed h.lastSequence d) (hc : Continues h.lastSequence d) :
    h.streamDelta d = (.success, h.applyDelta d) := by
  rw [streamDelta, if_neg hp, validateDeltaSequence_iff.mpr hc]
  rfl

theorem streamDelta_gap (hp : ¬ Passed h.lastSequence d) (hc : ¬ Continues h.lastSequence d) :
    h.streamDelta d = (.errorSequenceGap, h.triggerResnapshot "sequence_gap".toList) := by
  rw [streamDelta, if_neg hp, validateDeltaSequence_eq_false hc]
  rfl

end BinanceFeedHandler

end TradingInfrastructure
