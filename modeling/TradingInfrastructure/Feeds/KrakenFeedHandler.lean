import TradingInfrastructure.Feeds.BinanceFeedHandler
import TradingInfrastructure.Feeds.BookManager

/-!
# The Kraken feed handler

`core/feeds/kraken/kraken_feed_handler.cpp`: snapshots and updates come on one stream without a
sequence, and are checked by a checksum over the texts of the local book. The JSON library does not
keep these texts, so the handler takes them from the message with a regular expression and pairs
them with the levels of the parsed message by position. The deltas that it publishes are made of
the parsed message alone, and the local book is cut to the subscribed depth.

The callbacks are set, as the engine sets them.
-/

namespace TradingInfrastructure

/-- `KrakenFeedHandler`, with the calls of its callbacks so far. -/
structure KrakenFeedHandler where
  state : FeedState := .disconnected
  lastSequence : UInt64 := 0
  forceReconnect : Bool := false
  deltaBuffer : List CString := []
  book : LocalBook := {}
  subscribedDepth : ℕ := 100
  published : List Publication := []

namespace KrakenFeedHandler

/-- `MAX_BUFFER_SIZE`. -/
def maxBufferSize : ℕ := 1000

/-! ## Texts of levels -/

/-- The text from the first place where the word stands. -/
def findWord (word text : CString) : Option CString := text.tails.find? word.isPrefixOf

/-- The text up to the bracket that closes the first one, which opens at this depth. -/
def takeBrackets (depth : ℕ) : CString → Option CString
  | [] => none
  | '[' :: rest => (takeBrackets (depth + 1) rest).map ('[' :: ·)
  | ']' :: rest => if depth = 1 then some [']'] else (takeBrackets (depth - 1) rest).map (']' :: ·)
  | c :: rest => (takeBrackets depth rest).map (c :: ·)

/-- The word, if it stands at the head of the text, and the text behind it. -/
def skipWord (word text : CString) : Option CString :=
  if word.isPrefixOf text then some (text.drop word.length) else none

/-- The characters of a numeral in the pattern. -/
def isNumeralChar (c : Char) : Bool := c.isDigit || "-+.eE".toList.contains c

/-- A quotation mark, if there is one. -/
def takeQuote : CString → CString × CString
  | '"' :: rest => (['"'], rest)
  | text => ([], text)

/-- `("?[-+0-9.eE]+"?)` of the pattern. -/
def takeNumeral (text : CString) : Option (CString × CString) :=
  let (opening, rest) := takeQuote text
  let numeral := rest.takeWhile isNumeralChar
  if numeral = [] then none
  else
    let (closing, rest) := takeQuote (rest.dropWhile isNumeralChar)
    some (opening ++ numeral ++ closing, rest)

/-- `"key"\s*:\s*` and the numeral behind it. -/
def takeMember (key text : CString) : Option (CString × CString) := do
  let text ← skipWord (['"'] ++ key ++ ['"']) text
  let text ← skipWord [':'] (text.dropWhile Fields.isBlank)
  takeNumeral (text.dropWhile Fields.isBlank)

/-- The pattern at the head of the text: a price, a comma and a quantity. What the pattern takes is
determined from the left, so that it never has to go back. -/
def takeLevel (text : CString) : Option ((CString × CString) × CString) := do
  let (price, text) ← takeMember "price".toList text
  let text ← skipWord [','] (text.dropWhile Fields.isBlank)
  let (qty, text) ← takeMember "qty".toList (text.dropWhile Fields.isBlank)
  return ((price, qty), text)

/-- `unquote`. -/
def unquote (value : CString) : CString :=
  if 2 ≤ value.length ∧ value.head? = some '"' ∧ value.getLast? = some '"' then
    (value.drop 1).dropLast
  else value

/-- The matches of the pattern in a text, from the left, with fuel for each of its characters. -/
def scanLevels : ℕ → CString → List (CString × CString)
  | 0, _ => []
  | _, [] => []
  | fuel + 1, c :: rest =>
    match takeLevel (c :: rest) with
    | some ((price, qty), rest) => (unquote price, unquote qty) :: scanLevels fuel rest
    | none => scanLevels fuel rest

/-- `extract_levels_from_message`. -/
def extractLevelsFromMessage (message side : CString) : List (CString × CString) :=
  match findWord (['"'] ++ side ++ ['"']) message with
  | none => []
  | some text =>
    match takeBrackets 0 (text.dropWhile (· ≠ '[')) with
    | none => []
    | some body => scanLevels body.length body

/-- `json_number_to_wire_string`. -/
def jsonNumberToWireString (lib : FeedLibrary) : Json → CString
  | .string s => s
  | json => lib.dump json

/-! ## The local book -/

/-- A level written into a side of the book: a quantity of zero takes the price out. -/
def writeLocal (side : Side) (book : LocalSide) (price qty : ℚ) (texts : CString × CString) :
    LocalSide :=
  if qty = 0 then SortedMap.erase price book else SortedMap.upsert side.Ahead price texts book

/-- The price and the quantity of a level. -/
def levelMembers (level : Json) : Option (Json × Json) :=
  match level.find "price".toList, level.find "qty".toList with
  | some price, some qty => some (price, qty)
  | _, _ => none

/-- The texts of a level: those of the message at its position, or else those of the parsed
level. -/
def levelTexts (lib : FeedLibrary) (raw : Option (CString × CString)) (price qty : Json) :
    CString × CString :=
  raw.getD (jsonNumberToWireString lib price, jsonNumberToWireString lib qty)

/-- `apply_side`. -/
def applySide (lib : FeedLibrary) (side : Side) (book : LocalSide) :
    List Json → List (CString × CString) → Except CxxException LocalSide
  | [], _ => .ok book
  | level :: rest, raw =>
    match levelMembers level with
    | none => applySide lib side book rest raw.tail
    | some (price, qty) => do
      let texts := levelTexts lib raw.head? price qty
      let price ← lib.stod texts.1
      let qty ← lib.stod texts.2
      applySide lib side (writeLocal side book price qty texts) rest raw.tail

/-- `apply_local_book_levels`. -/
def applyLocalBookLevels (lib : FeedLibrary) (book : LocalBook) (data : Json) (message : CString) :
    Except CxxException LocalBook := do
  let bids ← applySide lib .bid book.bids (← data.valueArray "bids".toList).items
    (extractLevelsFromMessage message "bids".toList)
  let asks ← applySide lib .ask book.asks (← data.valueArray "asks".toList).items
    (extractLevelsFromMessage message "asks".toList)
  return ⟨bids, asks⟩

/-- `truncate_book`. -/
def truncateBook (depth : ℕ) (book : LocalBook) : LocalBook :=
  ⟨book.bids.take depth, book.asks.take depth⟩

/-! ## Checksums and times -/

/-- `normalize_checksum_field`. -/
def normalizeChecksumField (value : CString) : CString :=
  let digits := (value.filter (· ≠ '.')).dropWhile (· = '0')
  if digits = [] then ['0'] else digits

/-- The text of a side under the checksum: its first ten levels. -/
def checksumText (side : LocalSide) : CString :=
  (side.take 10).flatMap fun entry =>
    normalizeChecksumField entry.2.1 ++ normalizeChecksumField entry.2.2

/-- `validate_checksum`. -/
def validateChecksum (book : LocalBook) (data : Json) : Except CxxException Bool :=
  match data.find "checksum".toList with
  | none => .ok true
  | some checksum =>
    return crc32Bytes (checksumText book.asks ++ checksumText book.bids) = (← checksum.getUInt32)

/-- The digits between the point and the `Z` of a time stamp, if there are any. -/
def fractionOf (timestamp : CString) : Option CString :=
  let dot := timestamp.findIdx (· == '.')
  let z := timestamp.findIdx (· == 'Z')
  if dot < timestamp.length ∧ z < timestamp.length ∧ dot + 1 < z then
    some ((timestamp.drop (dot + 1)).take (z - dot - 1))
  else none

/-- `parse_rfc3339_timestamp_ns`. -/
def parseRfc3339TimestampNs (lib : FeedLibrary) (timestamp : CString) : Except CxxException ℤ :=
  if timestamp = [] then .ok 0
  else
    match lib.getTime (timestamp.take 19) with
    | none => .ok 0
    | some seconds =>
      if seconds < 0 then .ok 0
      else
        match fractionOf timestamp with
        | none => .ok (seconds * 1000000000)
        | some fraction => do
          let nanos ← stoll (fraction.take 9 ++ List.replicate (9 - fraction.length) '0')
          return seconds * 1000000000 + nanos

/-! ## Handling -/

/-- `trigger_resnapshot`. -/
def triggerResnapshot (h : KrakenFeedHandler) : KrakenFeedHandler :=
  { h with
    deltaBuffer := []
    book := {}
    lastSequence := 0
    state := .buffering
    forceReconnect := true }

/-- The first member of `data`, if there is one. -/
def dataOf (json : Json) : Option Json :=
  match json.find "data".toList with
  | some (.array (data :: _)) => some data
  | _ => none

/-- The delta of a level. -/
def parseDelta (lib : FeedLibrary) (seq : UInt64) (side : Side) (price qty : Json) :
    Except CxxException Delta := do
  let price ← lib.stod (jsonNumberToWireString lib price)
  let size ← lib.stod (jsonNumberToWireString lib qty)
  return ⟨side, price, size, 0, seq.toNat⟩

/-- `emit_levels`. -/
def emitLevels (lib : FeedLibrary) (seq : UInt64) (side : Side) :
    List Json → Except CxxException (List Delta)
  | [] => .ok []
  | level :: rest =>
    match levelMembers level with
    | none => emitLevels lib seq side rest
    | some (price, qty) => do
      let delta ← parseDelta lib seq side price qty
      return delta :: (← emitLevels lib seq side rest)

/-- `process_delta`. -/
def processDelta (lib : FeedLibrary) (h : KrakenFeedHandler) (message : CString) (json : Json)
    (seq : UInt64) : Except CxxException (Result × KrakenFeedHandler) :=
  match dataOf json with
  | none => .ok (.errorBookCorrupted, h)
  | some data => do
    let book := truncateBook h.subscribedDepth (← applyLocalBookLevels lib h.book data message)
    if !(← validateChecksum book data) then
      return (.errorBookCorrupted, { h with book := book }.triggerResnapshot)
    else
      let _ ← parseRfc3339TimestampNs lib (← data.valueString "timestamp".toList [])
      let bids ← emitLevels lib seq .bid (← data.valueArray "bids".toList).items
      let asks ← emitLevels lib seq .ask (← data.valueArray "asks".toList).items
      return (.success, { h with
        book := book
        lastSequence := seq
        published := h.published ++ (bids ++ asks).map .delta })

/-- The loop of `apply_buffered_deltas`; the answer says whether it went through. -/
def replayDeltas (lib : FeedLibrary) (h : KrakenFeedHandler) (nextSeq : UInt64) :
    List CString → Except CxxException (Bool × KrakenFeedHandler)
  | [] => .ok (true, h)
  | message :: rest =>
    match lib.parse message with
    | none => h.replayDeltas lib nextSeq rest
    | some json => do
      match ← h.processDelta lib message json nextSeq with
      | (.success, h) => h.replayDeltas lib (nextSeq + 1) rest
      | (_, h) => return (false, h)

/-- `apply_buffered_deltas`. -/
def applyBufferedDeltas (lib : FeedLibrary) (h : KrakenFeedHandler) :
    Except CxxException (Bool × KrakenFeedHandler) := do
  let (done, h) ← h.replayDeltas lib 1 h.deltaBuffer
  return (done, { h with deltaBuffer := [] })

/-- The levels that a snapshot publishes of a side of the local book. -/
def publishedLevels (lib : FeedLibrary) : LocalSide → Except CxxException (List PriceLevel)
  | [] => .ok []
  | (price, texts) :: rest => do
    let size ← lib.stod texts.2
    return ⟨price, size, 0⟩ :: (← publishedLevels lib rest)

/-- The snapshot of a local book. -/
def snapshotOf (lib : FeedLibrary) (book : LocalBook) : Except CxxException Snapshot := do
  let bids ← publishedLevels lib book.bids
  let asks ← publishedLevels lib book.asks
  return ⟨0, bids, asks, 0, false⟩

/-- What `process_snapshot` does with a snapshot that is not empty. -/
def acceptSnapshot (lib : FeedLibrary) (h : KrakenFeedHandler) (snap : Snapshot) :
    Except CxxException (Result × KrakenFeedHandler) := do
  let applied : KrakenFeedHandler := { h with
    lastSequence := 0
    published := h.published ++ [.snapshot snap] }
  match ← applied.applyBufferedDeltas lib with
  | (true, h) => return (.success, { h with state := .streaming })
  | (false, h) => return (.errorSequenceGap, h.triggerResnapshot)

/-- `process_snapshot`. -/
def processSnapshot (lib : FeedLibrary) (h : KrakenFeedHandler) (message : CString) (json : Json) :
    Except CxxException (Result × KrakenFeedHandler) :=
  match dataOf json with
  | none => .ok (.errorBookCorrupted, h.triggerResnapshot)
  | some data => do
    let book := truncateBook h.subscribedDepth (← applyLocalBookLevels lib {} data message)
    if !(← validateChecksum book data) then return (.errorBookCorrupted, h.triggerResnapshot)
    else
      let _ ← parseRfc3339TimestampNs lib (← data.valueString "timestamp".toList [])
      let snap ← snapshotOf lib book
      if snap.bids = [] ∨ snap.asks = [] then return (.errorBookCorrupted, h.triggerResnapshot)
      else acceptSnapshot lib { h with book := book } snap

/-- The update branches of `process_message`. -/
def processUpdate (lib : FeedLibrary) (h : KrakenFeedHandler) (message : CString) (json : Json) :
    Except CxxException (Result × KrakenFeedHandler) :=
  if h.state = .buffering then
    if h.deltaBuffer.length < maxBufferSize then
      .ok (.success, { h with deltaBuffer := h.deltaBuffer ++ [message] })
    else .ok (.success, h.triggerResnapshot)
  else h.processDelta lib message json (h.lastSequence + 1)

/-! ## Messages -/

/-- A trade. -/
def parseTrade (lib : FeedLibrary) (trade price qty : Json) : Except CxxException TradeFlow := do
  let price ← lib.stod (jsonNumberToWireString lib price)
  let size ← lib.stod (jsonNumberToWireString lib qty)
  let side ← trade.valueString "side".toList []
  return ⟨price, size, if side = "buy".toList then 0 else if side = "sell".toList then 1 else 255⟩

/-- A trade of a message, if it has a price and a quantity and can be read. -/
def readTrade (lib : FeedLibrary) (trade : Json) : Option TradeFlow :=
  match levelMembers trade with
  | some (price, qty) => guarded (parseTrade lib trade price qty)
  | none => none

/-- The trades of a message, batch after batch. -/
def readTrades (lib : FeedLibrary) (json : Json) : List TradeFlow :=
  (((json.find "data".toList).map Json.items).getD []).flatMap fun batch =>
    (((batch.find "trades".toList).map Json.items).getD []).filterMap (readTrade lib)

/-- What a message asks of the handler. -/
inductive Incoming
  | ignored
  | rejected
  | trades (trades : List TradeFlow)
  | snapshot (json : Json)
  | update (json : Json)

/-- A message of the channel `book`. -/
def readBook (json : Json) : Except CxxException Incoming := do
  let type ← json.valueString "type".toList []
  return if type = "snapshot".toList then .snapshot json
    else if type = "update".toList then .update json
    else .ignored

/-- A reply to a request. The text of a rejected subscription is read for the log. -/
def readReply (json : Json) (method : CString) : Except CxxException Incoming :=
  if method = "subscribe".toList then
    match json.find "success".toList with
    | some (.boolean false) => do
      let _ ← json.valueString "error".toList "Kraken subscribe rejected".toList
      return .rejected
    | _ => .ok .ignored
  else .ok .ignored

/-- The reading half of `process_message`. -/
def readMessage (lib : FeedLibrary) (message : CString) : Except CxxException Incoming :=
  match lib.parse message with
  | none => .ok .ignored
  | some json =>
    match json.find "method".toList with
    | some (.string method) => readReply json method
    | _ =>
      match json.find "channel".toList with
      | some (.string channel) =>
        if channel = "trade".toList then .ok (.trades (readTrades lib json))
        else if channel = "book".toList then readBook json
        else .ok .ignored
      | _ => .ok .ignored

/-- The handling half of `process_message`. -/
def handle (lib : FeedLibrary) (h : KrakenFeedHandler) (message : CString) :
    Incoming → Except CxxException (Result × KrakenFeedHandler)
  | .ignored => .ok (.success, h)
  | .rejected => .ok (.errorConnectionLost, h.triggerResnapshot)
  | .trades trades => .ok (.success, { h with published := h.published ++ trades.map .trade })
  | .snapshot json => h.processSnapshot lib message json
  | .update json => h.processUpdate lib message json

/-- `process_message`. -/
def processMessage (lib : FeedLibrary) (h : KrakenFeedHandler) (message : CString) :
    Except CxxException (Result × KrakenFeedHandler) := do
  h.handle lib message (← readMessage lib message)

/-- The head of `ws_event_loop` when a connection is established. -/
def established (h : KrakenFeedHandler) : KrakenFeedHandler :=
  { h with
    state := .buffering
    deltaBuffer := []
    book := {}
    lastSequence := 0
    forceReconnect := false }

/-- A message, or a new connection. -/
inductive StreamEvent
  | message (text : CString)
  | established

/-- One step. -/
def streamStep (lib : FeedLibrary) (h : KrakenFeedHandler) :
    StreamEvent → Except CxxException KrakenFeedHandler
  | .message text => return (← h.processMessage lib text).2
  | .established => .ok h.established

end KrakenFeedHandler

end TradingInfrastructure
