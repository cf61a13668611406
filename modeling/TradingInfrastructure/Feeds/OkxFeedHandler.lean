import TradingInfrastructure.Feeds.BinanceFeedHandler
import TradingInfrastructure.Feeds.BookManager

/-!
# The OKX feed handler

`core/feeds/okx/okx_feed_handler.cpp`: snapshots and updates come on one stream. An update names
the sequence of the one before it, and may carry a checksum of the book after it, which the handler
recomputes on its own copy of the book. That copy keeps the prices and sizes as the texts of the
messages, since the checksum is over texts.

The callbacks are set, as the engine sets them. Most conversions here are outside a `try`, and end
`process_message` with their exception.
-/

namespace TradingInfrastructure

namespace OkxFeed

/-- An update that has been delivered: its member of `data`, its sequence, and the local book after
it. -/
structure Update where
  data : Json
  seq : UInt64
  deltas : List Delta
  book : LocalBook

/-- What the handler delivers. -/
inductive Delivery
  | snapshot (seq : UInt64) (s : Snapshot)
  | update (u : Update)
  | trade (t : TradeFlow)

/-- The calls of the callbacks for one delivery. -/
def Delivery.calls : Delivery → List Publication
  | .snapshot _ s => [.snapshot s]
  | .update u => u.deltas.map .delta
  | .trade t => [.trade t]

end OkxFeed

open OkxFeed

/-- `OkxFeedHandler`, with what it has delivered so far. -/
structure OkxFeedHandler where
  state : FeedState := .disconnected
  lastSequence : UInt64 := 0
  forceReconnect : Bool := false
  deltaBuffer : List CString := []
  book : LocalBook := {}
  delivered : List Delivery := []

namespace OkxFeedHandler

/-- `MAX_BUFFER_SIZE`. -/
def maxBufferSize : ℕ := 1000

/-- The calls of the callbacks so far. -/
def published (h : OkxFeedHandler) : List Publication := h.delivered.flatMap Delivery.calls

/-! ## Levels -/

/-- The price and the size of an element that is a level, and what stands behind them. -/
def levelFields : Json → Option (Json × Json × List Json)
  | .array (price :: size :: rest) => some (price, size, rest)
  | _ => none

/-- The order count of a level, its fourth element. -/
def orderCountIn (rest : List Json) : Except CxxException ℕ :=
  match (rest[1]? : Option Json) with
  | some (.string text) => return (← stoull text).toNat % 2 ^ 32
  | some (.unsigned n) => .ok (n.toNat % 2 ^ 32)
  | some (.integer n) => .ok (if 0 < n then n.toNat % 2 ^ 32 else 0)
  | _ => .ok 0

/-- A level of a snapshot: the order count is read first. -/
def parseLevel (lib : FeedLibrary) (price size : Json) (rest : List Json) :
    Except CxxException PriceLevel := do
  let orderCount ← orderCountIn rest
  return ⟨← lib.numberIn price, ← lib.numberIn size, orderCount⟩

/-- `parse_levels` of `process_snapshot`: a level that cannot be read is passed over. -/
def parseLevels (lib : FeedLibrary) (levels : List Json) : List PriceLevel :=
  (levels.filterMap levelFields).filterMap fun (price, size, rest) =>
    guarded (parseLevel lib price size rest)

/-- Whether a size means that its level is gone. -/
def isGone (lib : FeedLibrary) (size : CString) : Except CxxException Bool :=
  if size = "0".toList ∨ size = "0.0".toList then .ok true
  else return (← lib.stod size) = 0

/-- `apply_side`: the levels written into a side of the local book. -/
def applySide (lib : FeedLibrary) (side : Side) (book : LocalSide) :
    List Json → Except CxxException LocalSide
  | [] => .ok book
  | level :: rest =>
    match levelFields level with
    | none => applySide lib side book rest
    | some (priceJson, sizeJson, _) => do
      let priceText ← priceJson.getString
      let price ← lib.stod priceText
      let sizeText ← sizeJson.getString
      let gone ← isGone lib sizeText
      let book := if gone then SortedMap.erase price book
        else SortedMap.upsert side.Ahead price (priceText, sizeText) book
      applySide lib side book rest

/-- `apply_local_book_levels`, on a copy of the book. -/
def applyLocalBookLevels (lib : FeedLibrary) (book : LocalBook) (data : Json) :
    Except CxxException LocalBook := do
  let bids ← applySide lib .bid book.bids (← data.valueArray "bids".toList).items
  let asks ← applySide lib .ask book.asks (← data.valueArray "asks".toList).items
  return ⟨bids, asks⟩

/-- The delta of a level. -/
def parseDelta (lib : FeedLibrary) (seq : UInt64) (side : Side) (price size : Json)
    (rest : List Json) : Except CxxException Delta := do
  let price ← lib.numberIn price
  let size ← lib.numberIn size
  return ⟨side, price, size, ← orderCountIn rest, seq.toNat⟩

/-- `emit_levels`. -/
def emitLevels (lib : FeedLibrary) (seq : UInt64) (side : Side) :
    List Json → Except CxxException (List Delta)
  | [] => .ok []
  | level :: rest =>
    match levelFields level with
    | none => emitLevels lib seq side rest
    | some (price, size, fields) => do
      let delta ← parseDelta lib seq side price size fields
      return delta :: (← emitLevels lib seq side rest)

/-! ## Checksums -/

/-- The text under the checksum: the levels of both sides in turn, from the touch. A colon stands
before every turn but the first, and before an ask that has something in front of it. -/
def serializeLevels (first : Bool) (text : CString) : ℕ → LocalSide → LocalSide → CString
  | 0, _, _ => text
  | n + 1, bids, asks =>
    if bids = [] ∧ asks = [] then text
    else
      let text := if first then text else text ++ [':']
      let text := match bids.head? with
        | some bid => text ++ bid.2.1 ++ [':'] ++ bid.2.2
        | none => text
      let text := match asks.head? with
        | some ask =>
          (if text = [] then text else text ++ [':']) ++ ask.2.1 ++ [':'] ++ ask.2.2
        | none => text
      serializeLevels false text n bids.tail asks.tail

/-- The checksum of a book, over 25 levels, as a signed number. -/
def localChecksum (book : LocalBook) : ℤ :=
  (crc32Bytes (serializeLevels true [] 25 book.bids book.asks)).toBitVec.toInt

/-- The checksum that an update carries. -/
def remoteChecksum (data : Json) : Except CxxException (Option ℤ) :=
  match data.find "checksum".toList with
  | none => .ok none
  | some (.string text) => return some (← stoll text)
  | some member => return some (← member.getInt64)

/-- `validate_checksum`: the levels are written into a copy of the book first. -/
def validateChecksum (lib : FeedLibrary) (h : OkxFeedHandler) (data : Json) :
    Except CxxException Bool := do
  match ← remoteChecksum data with
  | none => return true
  | some remote => return localChecksum (← applyLocalBookLevels lib h.book data) = remote

/-! ## Handling -/

/-- `trigger_resnapshot`. -/
def triggerResnapshot (h : OkxFeedHandler) : OkxFeedHandler :=
  { h with deltaBuffer := [], state := .buffering, forceReconnect := true }

/-- `validate_delta_sequence`. -/
def validateDeltaSequence (h : OkxFeedHandler) (seq prevSeq : UInt64) : Bool :=
  if prevSeq ≠ 0 then prevSeq = h.lastSequence else seq > h.lastSequence

/-- `process_delta`, on the first member of `data`. -/
def processDelta (lib : FeedLibrary) (h : OkxFeedHandler) (data : Json) (seq : UInt64) :
    Except CxxException OkxFeedHandler := do
  let book ← applyLocalBookLevels lib h.book data
  let bids ← emitLevels lib seq .bid (← data.valueArray "bids".toList).items
  let asks ← emitLevels lib seq .ask (← data.valueArray "asks".toList).items
  return { h with
    lastSequence := seq
    book := book
    delivered := h.delivered ++ [.update ⟨data, seq, bids ++ asks, book⟩] }

/-- The first member of `data`, if there is one. -/
def dataOf (json : Json) : Option Json :=
  match json.find "data".toList with
  | some (.array (data :: _)) => some data
  | _ => none

/-- The loop of `apply_buffered_deltas`; the answer says whether it went through. -/
def replayDeltas (lib : FeedLibrary) (h : OkxFeedHandler) :
    List CString → Except CxxException (Bool × OkxFeedHandler)
  | [] => .ok (true, h)
  | message :: rest =>
    match (lib.parse message).bind dataOf with
    | none => h.replayDeltas lib rest
    | some data => do
      let seq ← data.sequenceAt "seqId".toList
      let prevSeq ← data.sequenceAt "prevSeqId".toList
      if seq ≤ h.lastSequence then h.replayDeltas lib rest
      else if !h.validateDeltaSequence seq prevSeq then return (false, h)
      else if !(← h.validateChecksum lib data) then return (false, h)
      else (← h.processDelta lib data seq).replayDeltas lib rest

/-- `apply_buffered_deltas`. -/
def applyBufferedDeltas (lib : FeedLibrary) (h : OkxFeedHandler) :
    Except CxxException (Bool × OkxFeedHandler) := do
  let (done, h) ← h.replayDeltas lib h.deltaBuffer
  return (done, { h with deltaBuffer := [] })

/-- The snapshot of a message. -/
def readSnapshot (lib : FeedLibrary) (book : Json) (seq : UInt64) :
    Except CxxException Snapshot := do
  let bids := parseLevels lib (← book.valueArray "bids".toList).items
  let asks := parseLevels lib (← book.valueArray "asks".toList).items
  return ⟨seq.toNat, bids, asks, 0, false⟩

/-- What `process_snapshot` does with a snapshot that is not empty. -/
def acceptSnapshot (lib : FeedLibrary) (h : OkxFeedHandler) (book : Json) (seq : UInt64)
    (snap : Snapshot) : Except CxxException (Result × OkxFeedHandler) := do
  let local_ ← applyLocalBookLevels lib {} book
  let applied : OkxFeedHandler := { h with
    book := local_
    lastSequence := seq
    delivered := h.delivered ++ [.snapshot seq snap] }
  match ← applied.applyBufferedDeltas lib with
  | (true, h) => return (.success, { h with state := .streaming })
  | (false, h) => return (.errorBookCorrupted, h.triggerResnapshot)

/-- `process_snapshot`. -/
def processSnapshot (lib : FeedLibrary) (h : OkxFeedHandler) (json : Json) :
    Except CxxException (Result × OkxFeedHandler) :=
  match dataOf json with
  | none => .ok (.errorBookCorrupted, h.triggerResnapshot)
  | some book => do
    let seq ← book.sequenceAt "seqId".toList
    let snap ← readSnapshot lib book seq
    if snap.bids = [] ∨ snap.asks = [] then return (.errorBookCorrupted, h.triggerResnapshot)
    else h.acceptSnapshot lib book seq snap

/-- The update branches of `process_message`. -/
def processUpdate (lib : FeedLibrary) (h : OkxFeedHandler) (message : CString) (data : Json)
    (seq prevSeq : UInt64) : Except CxxException (Result × OkxFeedHandler) :=
  if h.state ≠ .streaming then
    if h.deltaBuffer.length < maxBufferSize then
      .ok (.success, { h with deltaBuffer := h.deltaBuffer ++ [message] })
    else .ok (.success, h.triggerResnapshot)
  else if !h.validateDeltaSequence seq prevSeq then
    .ok (.errorSequenceGap, h.triggerResnapshot)
  else do
    if !(← h.validateChecksum lib data) then return (.errorBookCorrupted, h.triggerResnapshot)
    else return (.success, ← h.processDelta lib data seq)

/-! ## Messages -/

/-- A trade. -/
def parseTrade (lib : FeedLibrary) (trade px sz : Json) : Except CxxException TradeFlow := do
  let price ← lib.numberIn px
  let size ← lib.numberIn sz
  let side ← trade.valueString "side".toList []
  return ⟨price, size, if side = "buy".toList then 0 else if side = "sell".toList then 1 else 255⟩

/-- A trade of a message, if it has a price and a size and can be read. -/
def readTrade (lib : FeedLibrary) (trade : Json) : Option TradeFlow :=
  match trade.find "px".toList, trade.find "sz".toList with
  | some px, some sz => guarded (parseTrade lib trade px sz)
  | _, _ => none

/-- What a message asks of the handler. -/
inductive Incoming
  | ignored
  | error
  | trades (trades : List TradeFlow)
  | snapshot (json : Json)
  | update (data : Json) (seq prevSeq : UInt64)

/-- The member is this string. -/
def hasString (json : Json) (key value : CString) : Bool :=
  match json.find key with
  | some (.string text) => text == value
  | _ => false

/-- The channel of a message about the instrument. -/
def channelOf (instrumentId : CString) (json : Json) : Option CString :=
  match json.find "arg".toList with
  | some arg =>
    match arg.find "channel".toList with
    | some (.string channel) =>
      if hasString arg "instId".toList instrumentId then some channel else none
    | _ => none
  | none => none

/-- A message of the channel `books`. -/
def readBooks (json : Json) : Except CxxException Incoming :=
  if hasString json "action".toList "snapshot".toList then .ok (.snapshot json)
  else
    match dataOf json with
    | none => .ok .ignored
    | some data => do
      let seq ← data.sequenceAt "seqId".toList
      let prevSeq ← data.sequenceAt "prevSeqId".toList
      return .update data seq prevSeq

/-- The reading half of `process_message`. The text of an error event is read for the log. -/
def readMessage (lib : FeedLibrary) (instrumentId message : CString) :
    Except CxxException Incoming :=
  match lib.parse message with
  | none => .ok .ignored
  | some json =>
    if hasString json "event".toList "error".toList then do
      let _ ← json.valueString "msg".toList "unknown".toList
      return .error
    else
      match channelOf instrumentId json with
      | some channel =>
        if channel = "trades".toList then
          match json.find "data".toList with
          | some data => .ok (.trades (data.items.filterMap (readTrade lib)))
          | none => .ok .ignored
        else if channel = "books".toList then readBooks json
        else .ok .ignored
      | none => .ok .ignored

/-- The handling half of `process_message`. -/
def handle (lib : FeedLibrary) (h : OkxFeedHandler) (message : CString) :
    Incoming → Except CxxException (Result × OkxFeedHandler)
  | .ignored => .ok (.success, h)
  | .error => .ok (.errorConnectionLost, h.triggerResnapshot)
  | .trades trades => .ok (.success, { h with delivered := h.delivered ++ trades.map .trade })
  | .snapshot json => h.processSnapshot lib json
  | .update data seq prevSeq => h.processUpdate lib message data seq prevSeq

/-- `process_message`. -/
def processMessage (lib : FeedLibrary) (instrumentId : CString) (h : OkxFeedHandler)
    (message : CString) : Except CxxException (Result × OkxFeedHandler) := do
  h.handle lib message (← readMessage lib instrumentId message)

/-- The head of `ws_event_loop` when a connection is established. -/
def established (h : OkxFeedHandler) : OkxFeedHandler :=
  { h with
    state := .buffering
    deltaBuffer := []
    book := {}
    lastSequence := 0
    forceReconnect := false }

end OkxFeedHandler

end TradingInfrastructure
