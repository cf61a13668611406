import TradingInfrastructure.Feeds.BinanceFeedHandler
import TradingInfrastructure.Feeds.CoinbaseFeedHandler
import TradingInfrastructure.Feeds.Conversions
import TradingInfrastructure.Feeds.KrakenFeedHandler
import TradingInfrastructure.Feeds.OkxFeedHandler

/-!
# Malformed input

The thread that reads a socket calls `process_message` without a `catch`, so an exception that
escapes from it ends the process. The Binance handler reads a message behind tests of the types and
inside `try` blocks, and always returns. The other three convert some members with neither: here
their messages are told apart into those that a handler can read in its state and those from which
an exception escapes (`processMessage_returns_iff`).
-/

namespace TradingInfrastructure

/-! ## Coinbase -/

namespace CoinbaseFeedHandler

variable {lib : FeedLibrary} {h : CoinbaseFeedHandler} {message : CString}

/-- The buffered messages whose sequence number the replay reads after this one: those up to the
first that leaves a gap. -/
def ReplayReadable (lib : FeedLibrary) : UInt64 → List CString → Prop
  | _, [] => True
  | last, message :: rest =>
    match lib.parse message with
    | none => ReplayReadable lib last rest
    | some json => json.SequenceReadable "sequence_num".toList ∧
      ∀ seq, json.sequenceAt "sequence_num".toList = .ok seq →
        if seq ≤ last then ReplayReadable lib last rest
        else seq = last + 1 → ReplayReadable lib seq rest

/-- **The messages that the Coinbase handler can read.** An error has a text or none. A message of
the book has a readable sequence number, and when it is a snapshot with both sides, so have the
buffered messages that are replayed on it. -/
def Readable (lib : FeedLibrary) (h : CoinbaseFeedHandler) (message : CString) : Prop :=
  ∀ json ∈ lib.parse message,
    (isError json = true → json.StringAt "message".toList) ∧
    (isError json = false → json.find "channel".toList = some (.string "l2_data".toList) →
      json.SequenceReadable "sequence_num".toList ∧
      ∀ seq, json.sequenceAt "sequence_num".toList = .ok seq → hasSnapshot json = true →
        (readSnapshot lib json seq).bids ≠ [] → (readSnapshot lib json seq).asks ≠ [] →
          ReplayReadable lib seq h.deltaBuffer)

theorem returns_replayDeltas {messages : List CString} :
    Returns (h.replayDeltas lib messages) ↔ ReplayReadable lib h.lastSequence messages := by
  induction messages generalizing h with
  | nil => exact iff_of_true (returns_ok _) trivial
  | cons message rest ih =>
    rw [replayDeltas, ReplayReadable]
    cases lib.parse message with
    | none => exact ih
    | some json =>
      refine (returns_bind_iff fun seq _ => ?_).trans (and_congr_left' Json.returns_sequenceAt)
      by_cases hold : seq ≤ h.lastSequence
      · rw [if_pos hold, if_pos hold]
        exact ih
      · rw [if_neg hold, if_neg hold]
        by_cases hnext : seq = h.lastSequence + 1
        · rw [if_neg (not_not.mpr hnext)]
          exact ih.trans ⟨fun h _ => h, fun h => h hnext⟩
        · rw [if_pos hnext]
          exact iff_of_true (returns_pure _) fun heq => absurd heq hnext

theorem returns_handleSnapshot {json : Json} {seq : UInt64} :
    Returns (h.handleSnapshot lib json seq) ↔
      ((readSnapshot lib json seq).bids ≠ [] → (readSnapshot lib json seq).asks ≠ [] →
        ReplayReadable lib seq h.deltaBuffer) := by
  rw [handleSnapshot, processSnapshot]
  by_cases hempty : (readSnapshot lib json seq).bids = [] ∨ (readSnapshot lib json seq).asks = []
  · rw [if_pos hempty]
    refine iff_of_true (returns_ok _) fun hbids hasks => ?_
    exact (hempty.elim hbids hasks).elim
  · rw [if_neg hempty]
    obtain ⟨hbids, hasks⟩ := not_or.mp hempty
    refine (returns_bind_of_total ?_).trans ((returns_bind_of_total fun _ => returns_pure _).trans
      (returns_replayDeltas.trans ⟨fun h _ _ => h, fun h => h hbids hasks⟩))
    rintro ⟨done, h'⟩
    cases done <;> exact returns_pure _

theorem returns_handleLevel2 (now : ℤ) {json : Json} {seq : UInt64} :
    Returns (h.handle lib now message (.level2 json seq)) ↔
      (hasSnapshot json = true → (readSnapshot lib json seq).bids ≠ [] →
        (readSnapshot lib json seq).asks ≠ [] → ReplayReadable lib seq h.deltaBuffer) := by
  rw [handle]
  by_cases hsnapshot : hasSnapshot json = true
  · rw [if_pos hsnapshot]
    exact returns_handleSnapshot.trans ⟨fun h _ => h, fun h => h hsnapshot⟩
  · rw [if_neg hsnapshot]
    exact iff_of_true (returns_ok _) fun h => absurd h hsnapshot

/-- **When the Coinbase handler returns.** -/
theorem returns_processMessage (now : ℤ) :
    Returns (h.processMessage lib now message) ↔ h.Readable lib message := by
  rw [processMessage, readMessage, Readable]
  cases hparse : lib.parse message with
  | none => exact iff_of_true (returns_ok _) fun json hjson => nomatch hjson
  | some json =>
    rw [forall_mem_some]
    by_cases herror : isError json = true
    · simp only [herror, if_true, true_imp_iff, Bool.true_eq_false, false_imp_iff, and_true]
      have hobject : json.isObject = true := by
        rw [isError] at herror
        cases hfind : json.find "type".toList with
        | none =>
          rw [hfind] at herror
          cases herror
        | some member => exact Json.isObject_of_find hfind
      rw [bind_assoc]
      refine (returns_bind_of_total fun reason => ?_).trans
        (Json.returns_valueString.trans (and_iff_right hobject))
      exact returns_ok _
    · rw [Bool.not_eq_true] at herror
      simp only [herror, Bool.false_eq_true, if_false, true_imp_iff, false_imp_iff, true_and]
      cases hchannel : json.find "channel".toList with
      | none => exact iff_of_true (returns_ok _) fun h => nomatch h
      | some member =>
        cases member with
        | string channel =>
          simp only [Option.some.injEq, Json.string.injEq]
          split_ifs with hheartbeat htrades hbook
          · exact iff_of_true (returns_ok _) fun h => absurd (hheartbeat.symm.trans h) (by decide)
          · exact iff_of_true (returns_ok _) fun h => absurd (htrades.symm.trans h) (by decide)
          · rw [bind_assoc]
            refine (returns_bind_iff fun seq _ => returns_handleLevel2 now).trans ?_
            rw [Json.returns_sequenceAt]
            exact ⟨fun h _ => h, fun h => h hbook⟩
          · exact iff_of_true (returns_ok _) fun h => absurd h hbook
        | _ => exact iff_of_true (returns_ok _) fun h => nomatch h

end CoinbaseFeedHandler

/-! ## OKX -/

namespace OkxFeedHandler

open OkxFeed

variable {lib : FeedLibrary} {h : OkxFeedHandler} {message instrumentId : CString} {data : Json}

/-- A level that can be written into the local book: a price and a size in strings that
`std::stod` accepts; a size that is written as zero is not converted. -/
def LevelApplies (lib : FeedLibrary) (level : Json) : Prop :=
  ∀ fields ∈ levelFields level, ∃ price size, fields.1 = .string price ∧
    fields.2.1 = .string size ∧ Returns (lib.stod price) ∧
    (size = "0".toList ∨ size = "0.0".toList ∨ Returns (lib.stod size))

/-- A level that can be published: its size is converted in any case, and its order count is a
numeral when it is a string. -/
def LevelEmits (lib : FeedLibrary) (level : Json) : Prop :=
  ∀ fields ∈ levelFields level, (∃ price, fields.1 = .string price ∧ Returns (lib.stod price)) ∧
    (∃ size, fields.2.1 = .string size ∧ Returns (lib.stod size)) ∧
    ∀ count, fields.2.2[1]? = some (.string count) → IsUnsignedNumeral count

/-- The data can be written into the local book. -/
def BookApplies (lib : FeedLibrary) (data : Json) : Prop :=
  data.isObject = true ∧ (∀ level ∈ data.elementsAt "bids".toList, LevelApplies lib level) ∧
    ∀ level ∈ data.elementsAt "asks".toList, LevelApplies lib level

/-- The data can be published as deltas. -/
def BookEmits (lib : FeedLibrary) (data : Json) : Prop :=
  (∀ level ∈ data.elementsAt "bids".toList, LevelEmits lib level) ∧
    ∀ level ∈ data.elementsAt "asks".toList, LevelEmits lib level

/-- The checksum is a numeral in a string or a number, if it is there. -/
def ChecksumReadable (data : Json) : Prop :=
  ∀ member ∈ data.find "checksum".toList,
    (∀ text, member = .string text → IsSignedNumeral text) ∧
      (¬ member.IsString → member.IsNumber)

/-- The checksum of an update can be checked. -/
def Checkable (lib : FeedLibrary) (data : Json) : Prop :=
  ChecksumReadable data ∧ ((data.find "checksum".toList).isSome → BookApplies lib data)

/-- An update that is the next one can be applied: its checksum can be checked, and when it is
right, the levels can be written and published. -/
def UpdateReadable (lib : FeedLibrary) (h : OkxFeedHandler) (data : Json) : Prop :=
  Checkable lib data ∧ (h.validateChecksum lib data = .ok true →
    BookApplies lib data ∧ BookEmits lib data)

/-- The buffered updates that a replay reaches can be read. -/
def ReplayReadable (lib : FeedLibrary) : OkxFeedHandler → List CString → Prop
  | _, [] => True
  | h, message :: rest =>
    match (lib.parse message).bind dataOf with
    | none => ReplayReadable lib h rest
    | some data =>
      data.SequenceReadable "seqId".toList ∧ data.SequenceReadable "prevSeqId".toList ∧
      ∀ seq prevSeq, data.sequenceAt "seqId".toList = .ok seq →
        data.sequenceAt "prevSeqId".toList = .ok prevSeq →
        if seq ≤ h.lastSequence then ReplayReadable lib h rest
        else h.validateDeltaSequence seq prevSeq = true → UpdateReadable lib h data ∧
          ∀ h', h.validateChecksum lib data = .ok true → h.processDelta lib data seq = .ok h' →
            ReplayReadable lib h' rest

theorem returns_orderCountIn {rest : List Json} : Returns (orderCountIn rest) ↔
    ∀ count, rest[1]? = some (.string count) → IsUnsignedNumeral count := by
  rw [orderCountIn]
  cases hcount : rest[1]? with
  | none => exact iff_of_true (returns_ok _) fun count h => nomatch h
  | some member =>
    cases member with
    | string text =>
      refine (returns_bind_of_total fun _ => returns_pure _).trans (returns_stoull.trans ?_)
      constructor
      · intro h count hcount
        cases hcount
        exact h
      · exact fun h => h text rfl
    | _ => exact iff_of_true (returns_ok _) fun count h => nomatch h

theorem returns_isGone {size : CString} : Returns (isGone lib size) ↔
    size = "0".toList ∨ size = "0.0".toList ∨ Returns (lib.stod size) := by
  rw [isGone, ← or_assoc]
  by_cases hzero : size = "0".toList ∨ size = "0.0".toList
  · rw [if_pos hzero]
    exact iff_of_true (returns_ok _) (.inl hzero)
  · rw [if_neg hzero, or_iff_right hzero]
    exact returns_bind_of_total fun _ => returns_pure _

/-- Levels are written when each of them can be, whatever is in the book. -/
theorem returns_applySide {side : Side} {book : LocalSide} {levels : List Json} :
    Returns (applySide lib side book levels) ↔ ∀ level ∈ levels, LevelApplies lib level := by
  induction levels generalizing book with
  | nil => exact iff_of_true (returns_ok _) fun level hlevel => absurd hlevel List.not_mem_nil
  | cons level rest ih =>
    rw [List.forall_mem_cons, applySide, LevelApplies]
    cases hfields : levelFields level with
    | none => exact ih.trans (and_iff_right fun _ h => nomatch h).symm
    | some fields =>
      obtain ⟨priceJson, sizeJson, others⟩ := fields
      rw [forall_mem_some]
      dsimp only
      constructor
      · intro hreturns
        obtain ⟨price, hprice, hreturns⟩ := Json.returns_getString_bind.mp hreturns
        obtain ⟨p, hp, hreturns⟩ := returns_bind.mp hreturns
        obtain ⟨size, hsize, hreturns⟩ := Json.returns_getString_bind.mp hreturns
        obtain ⟨gone, hgone, hreturns⟩ := returns_bind.mp hreturns
        exact ⟨⟨price, size, hprice, hsize, ⟨p, hp⟩, returns_isGone.mp ⟨gone, hgone⟩⟩,
          ih.mp hreturns⟩
      · rintro ⟨⟨price, size, hprice, hsize, ⟨p, hp⟩, hgone⟩, hrest⟩
        obtain ⟨gone, hgone⟩ := returns_isGone.mpr hgone
        exact Json.returns_getString_bind.mpr ⟨price, hprice, returns_bind.mpr ⟨p, hp,
          Json.returns_getString_bind.mpr ⟨size, hsize, returns_bind.mpr ⟨gone, hgone,
            ih.mpr hrest⟩⟩⟩⟩

theorem returns_parseDelta {seq : UInt64} {side : Side} {price size : Json} {rest : List Json} :
    Returns (parseDelta lib seq side price size rest) ↔
      (∃ text, price = .string text ∧ Returns (lib.stod text)) ∧
        (∃ text, size = .string text ∧ Returns (lib.stod text)) ∧
        ∀ count, rest[1]? = some (.string count) → IsUnsignedNumeral count :=
  (returns_bind_of_forall fun _ _ => (returns_bind_of_forall fun _ _ =>
    (returns_bind_of_total fun _ => returns_pure _).trans returns_orderCountIn).trans
      (and_congr_left' returns_numberIn)).trans (and_congr_left' returns_numberIn)

/-- Levels are published when each of them can be. -/
theorem returns_emitLevels {seq : UInt64} {side : Side} {levels : List Json} :
    Returns (emitLevels lib seq side levels) ↔ ∀ level ∈ levels, LevelEmits lib level := by
  induction levels with
  | nil => exact iff_of_true (returns_ok _) fun level hlevel => absurd hlevel List.not_mem_nil
  | cons level rest ih =>
    rw [List.forall_mem_cons, emitLevels, LevelEmits]
    cases hfields : levelFields level with
    | none => exact ih.trans (and_iff_right fun _ h => nomatch h).symm
    | some fields =>
      rw [forall_mem_some]
      exact (returns_bind_of_forall fun _ _ => (returns_bind_of_total fun _ =>
        returns_pure _).trans ih).trans (and_congr_left' returns_parseDelta)

/-- The book of a message is written when the message can be, whatever is in the book. -/
theorem returns_applyLocalBookLevels {book : LocalBook} :
    Returns (applyLocalBookLevels lib book data) ↔ BookApplies lib data := by
  rw [applyLocalBookLevels, BookApplies]
  by_cases hobject : data.isObject = true
  · rw [Json.valueArray_of_isObject hobject, Json.valueArray_of_isObject hobject,
      and_iff_right hobject]
    exact (returns_bind_of_forall fun _ _ => (returns_bind_of_total fun _ =>
      returns_pure _).trans returns_applySide).trans (and_congr_left' returns_applySide)
  · rw [Json.valueArray, if_neg hobject]
    exact iff_of_false (not_returns_error _) fun h => hobject h.1

theorem returns_remoteChecksum : Returns (remoteChecksum data) ↔ ChecksumReadable data := by
  rw [remoteChecksum, ChecksumReadable]
  cases hfind : data.find "checksum".toList with
  | none => exact iff_of_true (returns_ok _) fun member h => nomatch h
  | some member =>
    rw [forall_mem_some]
    cases member with
    | string text =>
      refine (returns_bind_of_total fun _ => returns_pure _).trans (returns_stoll.trans ?_)
      constructor
      · intro h
        refine ⟨fun t ht => ?_, fun hne => absurd ⟨text, rfl⟩ hne⟩
        cases ht
        exact h
      · exact fun h => h.1 text rfl
    | _ =>
      refine (returns_bind_of_total fun _ => returns_pure _).trans (Json.returns_getInt64.trans ?_)
      constructor
      · intro h
        refine ⟨fun t ht => ?_, fun _ => h⟩
        cases ht
      · intro h
        refine h.2 ?_
        rintro ⟨t, ht⟩
        cases ht

/-- A checksum that is there is read as a number. -/
theorem remoteChecksum_eq_some {member : Json} (hfind : data.find "checksum".toList = some member)
    {remote : Option ℤ} (hremote : remoteChecksum data = .ok remote) : ∃ n, remote = some n := by
  rw [remoteChecksum, hfind] at hremote
  cases member with
  | string text =>
    obtain ⟨n, -, hremote⟩ := of_bind_eq_ok hremote
    cases hremote
    exact ⟨n, rfl⟩
  | _ =>
    obtain ⟨n, -, hremote⟩ := of_bind_eq_ok hremote
    cases hremote
    exact ⟨n, rfl⟩

theorem returns_validateChecksum :
    Returns (h.validateChecksum lib data) ↔ Checkable lib data := by
  rw [validateChecksum, Checkable]
  cases hfind : data.find "checksum".toList with
  | none =>
    have hremote : remoteChecksum data = .ok none := by rw [remoteChecksum, hfind]
    rw [hremote]
    refine iff_of_true (returns_ok _) ⟨fun member hmember => ?_, fun hsome => nomatch hsome⟩
    rw [hfind] at hmember
    cases hmember
  | some member =>
    refine (returns_bind_of_forall fun remote hremote => ?_).trans (and_congr
      returns_remoteChecksum (imp_iff_right rfl).symm)
    obtain ⟨n, rfl⟩ := remoteChecksum_eq_some hfind hremote
    exact (returns_bind_of_total fun _ => returns_pure _).trans returns_applyLocalBookLevels

theorem returns_processDelta {seq : UInt64} :
    Returns (h.processDelta lib data seq) ↔ BookApplies lib data ∧ BookEmits lib data := by
  rw [processDelta, BookEmits]
  by_cases hobject : data.isObject = true
  · rw [Json.valueArray_of_isObject hobject, Json.valueArray_of_isObject hobject]
    refine (returns_bind_of_forall fun _ _ => ?_).trans
      (and_congr_left' returns_applyLocalBookLevels)
    exact (returns_bind_of_forall fun _ _ => (returns_bind_of_total fun _ =>
      returns_pure _).trans returns_emitLevels).trans (and_congr_left' returns_emitLevels)
  · refine iff_of_false (fun hreturns => ?_) fun h => hobject h.1.1
    obtain ⟨book, hbook, -⟩ := returns_bind.mp hreturns
    exact hobject (returns_applyLocalBookLevels.mp ⟨book, hbook⟩).1

/-- The check of an update and its application, with what follows it. -/
theorem returns_update {α : Type} {seq : UInt64} {stop : Except CxxException α}
    {next : OkxFeedHandler → Except CxxException α} {P : OkxFeedHandler → Prop}
    (hstop : Returns stop) (hnext : ∀ h', Returns (next h') ↔ P h') :
    Returns (h.validateChecksum lib data >>= fun valid =>
        if (!valid) = true then stop else h.processDelta lib data seq >>= next) ↔
      UpdateReadable lib h data ∧ ∀ h', h.validateChecksum lib data = .ok true →
        h.processDelta lib data seq = .ok h' → P h' := by
  rw [UpdateReadable, ← returns_validateChecksum, ← @returns_processDelta lib h data seq]
  constructor
  · intro hreturns
    obtain ⟨valid, hvalid, hreturns⟩ := returns_bind.mp hreturns
    refine ⟨⟨⟨valid, hvalid⟩, fun htrue => ?_⟩, fun h' htrue hdelta => ?_⟩
    all_goals
      rw [hvalid] at htrue
      cases htrue
      obtain ⟨h'', hdelta', hreturns⟩ := returns_bind.mp hreturns
    · exact ⟨h'', hdelta'⟩
    · rw [hdelta'] at hdelta
      cases hdelta
      exact (hnext h').mp hreturns
  · rintro ⟨⟨⟨valid, hvalid⟩, hdelta⟩, hrest⟩
    refine returns_bind.mpr ⟨valid, hvalid, ?_⟩
    cases valid with
    | false => exact hstop
    | true =>
      obtain ⟨h', hdelta⟩ := hdelta hvalid
      exact returns_bind.mpr ⟨h', hdelta, (hnext h').mpr (hrest h' hvalid hdelta)⟩

theorem returns_replayDeltas {messages : List CString} :
    Returns (h.replayDeltas lib messages) ↔ ReplayReadable lib h messages := by
  induction messages generalizing h with
  | nil => exact iff_of_true (returns_ok _) trivial
  | cons message rest ih =>
    rw [replayDeltas, ReplayReadable]
    cases (lib.parse message).bind dataOf with
    | none => exact ih
    | some data =>
      dsimp only
      rw [← Json.returns_sequenceAt, ← Json.returns_sequenceAt]
      constructor
      · intro hreturns
        obtain ⟨seq, hseq, hreturns⟩ := returns_bind.mp hreturns
        obtain ⟨prevSeq, hprevSeq, hreturns⟩ := returns_bind.mp hreturns
        refine ⟨⟨seq, hseq⟩, ⟨prevSeq, hprevSeq⟩, fun s p hs hp => ?_⟩
        cases hseq.symm.trans hs
        cases hprevSeq.symm.trans hp
        split_ifs at hreturns ⊢ with hold hnext
        · exact ih.mp hreturns
        · exact fun htrue => absurd htrue (by simpa using hnext)
        · exact fun _ => (returns_update (returns_pure _) fun h' => ih).mp hreturns
      · rintro ⟨⟨seq, hseq⟩, ⟨prevSeq, hprevSeq⟩, hrest⟩
        refine returns_bind.mpr ⟨seq, hseq, returns_bind.mpr ⟨prevSeq, hprevSeq, ?_⟩⟩
        have hrest := hrest seq prevSeq hseq hprevSeq
        split_ifs at hrest ⊢ with hold hnext
        · exact ih.mpr hrest
        · exact returns_pure _
        · exact (returns_update (returns_pure _) fun h' => ih).mpr (hrest (by simpa using hnext))

/-- A snapshot can be read: it has a readable sequence number, and when it has both sides it can be
written into an empty book and the buffered updates replayed on it. -/
def SnapshotReadable (lib : FeedLibrary) (h : OkxFeedHandler) (book : Json) : Prop :=
  book.SequenceReadable "seqId".toList ∧ book.isObject = true ∧
    ∀ seq snap, book.sequenceAt "seqId".toList = .ok seq → readSnapshot lib book seq = .ok snap →
      snap.bids ≠ [] → snap.asks ≠ [] → BookApplies lib book ∧
        ∀ local_, applyLocalBookLevels lib {} book = .ok local_ →
          ReplayReadable lib { h with
            book := local_
            lastSequence := seq
            delivered := h.delivered ++ [.snapshot seq snap] } h.deltaBuffer

/-- **The messages that the OKX handler can read.** An error event has a text or none. A snapshot of
the instrument can be read; an update has readable sequence numbers, and when the handler streams
and it is the next one, it can be applied. -/
def Readable (lib : FeedLibrary) (instrumentId : CString) (h : OkxFeedHandler)
    (message : CString) : Prop :=
  ∀ json ∈ lib.parse message,
    (hasString json "event".toList "error".toList = true → json.StringAt "msg".toList) ∧
    (hasString json "event".toList "error".toList = false →
      channelOf instrumentId json = some "books".toList →
      (hasString json "action".toList "snapshot".toList = true →
        ∀ book ∈ dataOf json, SnapshotReadable lib h book) ∧
      (hasString json "action".toList "snapshot".toList = false → ∀ data ∈ dataOf json,
        data.SequenceReadable "seqId".toList ∧ data.SequenceReadable "prevSeqId".toList ∧
        ∀ seq prevSeq, data.sequenceAt "seqId".toList = .ok seq →
          data.sequenceAt "prevSeqId".toList = .ok prevSeq → h.state = .streaming →
          h.validateDeltaSequence seq prevSeq = true → UpdateReadable lib h data))

theorem returns_readSnapshot {book : Json} {seq : UInt64} :
    Returns (readSnapshot lib book seq) ↔ book.isObject = true :=
  (returns_bind_of_forall fun _ _ => returns_bind_of_total fun _ => returns_pure _).trans
    ((and_congr Json.returns_valueArray Json.returns_valueArray).trans (and_self_iff))

theorem returns_acceptSnapshot {book : Json} {seq : UInt64} {snap : Snapshot} :
    Returns (h.acceptSnapshot lib book seq snap) ↔ BookApplies lib book ∧
      ∀ local_, applyLocalBookLevels lib {} book = .ok local_ →
        ReplayReadable lib { h with
          book := local_
          lastSequence := seq
          delivered := h.delivered ++ [.snapshot seq snap] } h.deltaBuffer := by
  refine (returns_bind_iff fun local_ _ => ?_).trans (and_congr_left' returns_applyLocalBookLevels)
  refine (returns_bind_of_total ?_).trans
    ((returns_bind_of_total fun _ => returns_pure _).trans returns_replayDeltas)
  rintro ⟨done, h'⟩
  cases done <;> exact returns_pure _

theorem returns_processSnapshot {json : Json} : Returns (h.processSnapshot lib json) ↔
    ∀ book ∈ dataOf json, SnapshotReadable lib h book := by
  rw [processSnapshot]
  cases dataOf json with
  | none => exact iff_of_true (returns_ok _) fun book hbook => nomatch hbook
  | some book =>
    rw [forall_mem_some, SnapshotReadable, ← Json.returns_sequenceAt]
    constructor
    · intro hreturns
      obtain ⟨seq, hseq, hreturns⟩ := returns_bind.mp hreturns
      obtain ⟨snap, hsnap, hreturns⟩ := returns_bind.mp hreturns
      refine ⟨⟨seq, hseq⟩, returns_readSnapshot.mp ⟨snap, hsnap⟩, fun s p hs hp hbids hasks => ?_⟩
      cases hseq.symm.trans hs
      cases hsnap.symm.trans hp
      rw [if_neg (not_or.mpr ⟨hbids, hasks⟩)] at hreturns
      exact returns_acceptSnapshot.mp hreturns
    · rintro ⟨⟨seq, hseq⟩, hobject, hrest⟩
      obtain ⟨snap, hsnap⟩ := returns_readSnapshot.mpr hobject
      refine returns_bind.mpr ⟨seq, hseq, returns_bind.mpr ⟨snap, hsnap, ?_⟩⟩
      split_ifs with hempty
      · exact returns_pure _
      · obtain ⟨hbids, hasks⟩ := not_or.mp hempty
        exact returns_acceptSnapshot.mpr (hrest seq snap hseq hsnap hbids hasks)

theorem returns_processUpdate {seq prevSeq : UInt64} :
    Returns (h.processUpdate lib message data seq prevSeq) ↔ (h.state = .streaming →
      h.validateDeltaSequence seq prevSeq = true → UpdateReadable lib h data) := by
  rw [processUpdate]
  split_ifs with hstate hroom hnext
  · exact iff_of_true (returns_ok _) fun h => absurd h hstate
  · exact iff_of_true (returns_ok _) fun h => absurd h hstate
  · exact iff_of_true (returns_ok _) fun _ h => absurd h (by simpa using hnext)
  · have hupdate : Returns (h.validateChecksum lib data >>= fun valid =>
        if (!valid) = true then .ok (Result.errorBookCorrupted, h.triggerResnapshot)
        else h.processDelta lib data seq >>= fun h' => .ok (Result.success, h')) ↔
        UpdateReadable lib h data ∧ ∀ h', h.validateChecksum lib data = .ok true →
          h.processDelta lib data seq = .ok h' → True :=
      returns_update (returns_ok _) fun h' => iff_of_true (returns_ok _) trivial
    simp only [implies_true, and_true] at hupdate
    exact hupdate.trans ⟨fun h _ _ => h, fun h => h (not_not.mp hstate) (by simpa using hnext)⟩

/-- A message of the channel `books`, read and handled. -/
theorem returns_books {json : Json} :
    Returns (readBooks json >>= h.handle lib message) ↔
      (hasString json "action".toList "snapshot".toList = true →
        ∀ book ∈ dataOf json, SnapshotReadable lib h book) ∧
      (hasString json "action".toList "snapshot".toList = false → ∀ data ∈ dataOf json,
        data.SequenceReadable "seqId".toList ∧ data.SequenceReadable "prevSeqId".toList ∧
        ∀ seq prevSeq, data.sequenceAt "seqId".toList = .ok seq →
          data.sequenceAt "prevSeqId".toList = .ok prevSeq → h.state = .streaming →
          h.validateDeltaSequence seq prevSeq = true → UpdateReadable lib h data) := by
  rw [readBooks]
  cases hasString json "action".toList "snapshot".toList with
  | true =>
    rw [if_pos rfl, imp_iff_right rfl]
    exact returns_processSnapshot.trans (and_iff_left fun h => nomatch h).symm
  | false =>
    rw [if_neg Bool.false_ne_true, imp_iff_right rfl, and_iff_right fun h => nomatch h]
    cases dataOf json with
    | none => exact iff_of_true (returns_ok _) fun data h => nomatch h
    | some data =>
      rw [forall_mem_some, ← Json.returns_sequenceAt, ← Json.returns_sequenceAt]
      constructor
      · intro hreturns
        obtain ⟨incoming, hread, hreturns⟩ := returns_bind.mp hreturns
        obtain ⟨seq, hseq, hread⟩ := of_bind_eq_ok hread
        obtain ⟨prevSeq, hprevSeq, hread⟩ := of_bind_eq_ok hread
        cases hread
        refine ⟨⟨seq, hseq⟩, ⟨prevSeq, hprevSeq⟩, fun s p hs hp => ?_⟩
        cases hseq.symm.trans hs
        cases hprevSeq.symm.trans hp
        exact returns_processUpdate.mp hreturns
      · rintro ⟨⟨seq, hseq⟩, ⟨prevSeq, hprevSeq⟩, hrest⟩
        dsimp only
        rw [hseq, hprevSeq]
        exact returns_processUpdate.mpr (hrest seq prevSeq hseq hprevSeq)

/-- **When the OKX handler returns.** -/
theorem returns_processMessage :
    Returns (h.processMessage lib instrumentId message) ↔ h.Readable lib instrumentId message := by
  rw [processMessage, readMessage, Readable]
  cases hparse : lib.parse message with
  | none => exact iff_of_true (returns_ok _) fun json hjson => nomatch hjson
  | some json =>
    rw [forall_mem_some]
    dsimp only
    cases herror : hasString json "event".toList "error".toList with
    | true =>
      refine Iff.trans ?_ (and_iff_left fun h => nomatch h).symm
      refine Iff.trans ?_ (imp_iff_right rfl).symm
      have hobject : json.isObject = true := by
        rw [hasString] at herror
        cases hfind : json.find "event".toList with
        | none =>
          rw [hfind] at herror
          cases herror
        | some member => exact Json.isObject_of_find hfind
      rw [if_pos rfl, bind_assoc]
      refine (returns_bind_of_total fun text => ?_).trans
        (Json.returns_valueString.trans (and_iff_right hobject))
      exact returns_ok _
    | false =>
      refine Iff.trans ?_ (and_iff_right fun h => nomatch h).symm
      refine Iff.trans ?_ (imp_iff_right rfl).symm
      rw [if_neg Bool.false_ne_true]
      cases hchannel : channelOf instrumentId json with
      | none => exact iff_of_true (returns_ok _) fun h => nomatch h
      | some channel =>
        dsimp only
        rw [Option.some.injEq]
        split_ifs with htrades hbooks
        · refine iff_of_true ?_ fun h => absurd (htrades.symm.trans h) (by decide)
          cases json.find "data".toList <;> exact returns_ok _
        · exact returns_books.trans (imp_iff_right hbooks).symm
        · exact iff_of_true (returns_ok _) fun h => absurd h hbooks

end OkxFeedHandler

/-! ## Kraken -/

namespace KrakenFeedHandler

variable {lib : FeedLibrary} {h h' : KrakenFeedHandler} {message : CString} {json data : Json}
variable {side : Side} {book book' : LocalSide} {seq : UInt64}

/-- The levels of a side can be written into the local book: `std::stod` accepts the texts that they
are paired with. -/
def LevelsApply (lib : FeedLibrary) : List Json → List (CString × CString) → Prop
  | [], _ => True
  | level :: rest, raw =>
    (∀ members ∈ levelMembers level,
      Returns (lib.stod (levelTexts lib raw.head? members.1 members.2).1) ∧
        Returns (lib.stod (levelTexts lib raw.head? members.1 members.2).2)) ∧
      LevelsApply lib rest raw.tail

/-- A level can be published: `std::stod` accepts the texts of its parsed members. -/
def LevelEmits (lib : FeedLibrary) (level : Json) : Prop :=
  ∀ members ∈ levelMembers level, Returns (lib.stod (jsonNumberToWireString lib members.1)) ∧
    Returns (lib.stod (jsonNumberToWireString lib members.2))

/-- The data of a message can be written into the local book. -/
def BookApplies (lib : FeedLibrary) (message : CString) (data : Json) : Prop :=
  data.isObject = true ∧
    LevelsApply lib (data.elementsAt "bids".toList)
      (extractLevelsFromMessage message "bids".toList) ∧
    LevelsApply lib (data.elementsAt "asks".toList)
      (extractLevelsFromMessage message "asks".toList)

/-- The data can be published as deltas. -/
def BookEmits (lib : FeedLibrary) (data : Json) : Prop :=
  (∀ level ∈ data.elementsAt "bids".toList, LevelEmits lib level) ∧
    ∀ level ∈ data.elementsAt "asks".toList, LevelEmits lib level

/-- The checksum is a number or a boolean, if it is there. -/
def ChecksumReadable (data : Json) : Prop :=
  ∀ member ∈ data.find "checksum".toList, member.IsNumber ∨ ∃ b, member = .boolean b

/-- The fraction of a time that is read, its first nine characters, is a numeral. -/
def TimeReadable (lib : FeedLibrary) (text : CString) : Prop :=
  text ≠ [] → ∀ seconds ∈ lib.getTime (text.take 19), 0 ≤ seconds → ∀ fraction ∈ fractionOf text,
    IsSignedNumeral (fraction.take 9 ++ List.replicate (9 - fraction.length) '0')

/-- The time stamp is a string with a readable time, if it is there. -/
def TimestampReadable (lib : FeedLibrary) (data : Json) : Prop :=
  data.StringAt "timestamp".toList ∧
    ∀ text, data.find "timestamp".toList = some (.string text) → TimeReadable lib text

/-- The levels and the checksum can be read, and if the checksum of the cut book is right, so can
what comes after it. -/
def MessageReadable (lib : FeedLibrary) (depth : ℕ) (before : LocalBook) (message : CString)
    (data : Json) (after : LocalBook → Prop) : Prop :=
  BookApplies lib message data ∧ ChecksumReadable data ∧
    ∀ applied, applyLocalBookLevels lib before data message = .ok applied →
      validateChecksum (truncateBook depth applied) data = .ok true →
      TimestampReadable lib data ∧ after (truncateBook depth applied)

/-- An update can be read: when its checksum is right, its levels can be published. -/
def UpdateReadable (lib : FeedLibrary) (h : KrakenFeedHandler) (message : CString) (data : Json) :
    Prop :=
  MessageReadable lib h.subscribedDepth h.book message data fun _ => BookEmits lib data

/-- The buffered updates that a replay reaches can be read. -/
def ReplayReadable (lib : FeedLibrary) : KrakenFeedHandler → UInt64 → List CString → Prop
  | _, _, [] => True
  | h, seq, message :: rest =>
    match lib.parse message with
    | none => ReplayReadable lib h seq rest
    | some json => (∀ data ∈ dataOf json, UpdateReadable lib h message data) ∧
      ∀ h', h.processDelta lib message json seq = .ok (.success, h') →
        ReplayReadable lib h' (seq + 1) rest

/-- A snapshot can be read: when its checksum is right and it has both sides, the buffered updates
can be replayed on it. -/
def SnapshotReadable (lib : FeedLibrary) (h : KrakenFeedHandler) (message : CString) (data : Json) :
    Prop :=
  MessageReadable lib h.subscribedDepth {} message data fun book =>
    ∀ snap, snapshotOf lib book = .ok snap → snap.bids ≠ [] → snap.asks ≠ [] →
      ReplayReadable lib { h with
        book := book
        lastSequence := 0
        published := h.published ++ [.snapshot snap] } 1 h.deltaBuffer

/-- **The messages that the Kraken handler can read.** A rejected subscription has a text or none. A
message of the book has a type that is a string; a snapshot can be read, and so can an update that
is not buffered. -/
def Readable (lib : FeedLibrary) (h : KrakenFeedHandler) (message : CString) : Prop :=
  ∀ json ∈ lib.parse message,
    (json.find "method".toList = some (.string "subscribe".toList) →
      json.find "success".toList = some (.boolean false) → json.StringAt "error".toList) ∧
    ((∀ method, json.find "method".toList ≠ some (.string method)) →
      json.find "channel".toList = some (.string "book".toList) →
      json.StringAt "type".toList ∧
      (json.find "type".toList = some (.string "snapshot".toList) →
        ∀ data ∈ dataOf json, SnapshotReadable lib h message data) ∧
      (json.find "type".toList = some (.string "update".toList) → h.state ≠ .buffering →
        ∀ data ∈ dataOf json, UpdateReadable lib h message data))

/-! ### Levels -/

/-- Levels are written when their texts can be read, whatever is in the book. -/
theorem returns_applySide {items : List Json} {raw : List (CString × CString)} :
    Returns (applySide lib side book items raw) ↔ LevelsApply lib items raw := by
  induction items generalizing book raw with
  | nil => exact iff_of_true (returns_ok _) trivial
  | cons level rest ih =>
    rw [applySide, LevelsApply]
    cases hmembers : levelMembers level with
    | none => exact ih.trans (and_iff_right fun _ h => nomatch h).symm
    | some members =>
      rw [forall_mem_some, and_assoc]
      exact returns_bind_of_forall fun _ _ => returns_bind_of_forall fun _ _ => ih

theorem returns_parseDelta {price qty : Json} : Returns (parseDelta lib seq side price qty) ↔
    Returns (lib.stod (jsonNumberToWireString lib price)) ∧
      Returns (lib.stod (jsonNumberToWireString lib qty)) :=
  returns_bind_of_forall fun _ _ => returns_bind_of_total fun _ => returns_pure _

/-- Levels are published when each of them can be. -/
theorem returns_emitLevels {items : List Json} :
    Returns (emitLevels lib seq side items) ↔ ∀ level ∈ items, LevelEmits lib level := by
  induction items with
  | nil => exact iff_of_true (returns_ok _) fun level hlevel => absurd hlevel List.not_mem_nil
  | cons level rest ih =>
    rw [List.forall_mem_cons, emitLevels, LevelEmits]
    cases hmembers : levelMembers level with
    | none => exact ih.trans (and_iff_right fun _ h => nomatch h).symm
    | some members =>
      rw [forall_mem_some]
      exact (returns_bind_of_forall fun _ _ => (returns_bind_of_total fun _ =>
        returns_pure _).trans ih).trans (and_congr_left' returns_parseDelta)

theorem returns_applyLocalBookLevels {before : LocalBook} :
    Returns (applyLocalBookLevels lib before data message) ↔ BookApplies lib message data := by
  rw [applyLocalBookLevels, BookApplies]
  by_cases hobject : data.isObject = true
  · rw [Json.valueArray_of_isObject hobject, Json.valueArray_of_isObject hobject,
      and_iff_right hobject]
    exact (returns_bind_of_forall fun _ _ => (returns_bind_of_total fun _ =>
      returns_pure _).trans returns_applySide).trans (and_congr_left' returns_applySide)
  · rw [Json.valueArray, if_neg hobject]
    exact iff_of_false (not_returns_error _) fun h => hobject h.1

theorem returns_validateChecksum {before : LocalBook} :
    Returns (validateChecksum before data) ↔ ChecksumReadable data := by
  rw [validateChecksum, ChecksumReadable]
  cases hfind : data.find "checksum".toList with
  | none => exact iff_of_true (returns_ok _) fun member h => nomatch h
  | some member =>
    rw [forall_mem_some]
    exact (returns_bind_of_total fun _ => returns_pure _).trans Json.returns_getUInt32

theorem returns_parseRfc3339TimestampNs {text : CString} :
    Returns (parseRfc3339TimestampNs lib text) ↔ TimeReadable lib text := by
  rw [parseRfc3339TimestampNs, TimeReadable]
  by_cases hempty : text = []
  · rw [if_pos hempty]
    exact iff_of_true (returns_ok _) fun h => absurd hempty h
  · rw [if_neg hempty]
    refine Iff.trans ?_ (imp_iff_right hempty).symm
    cases lib.getTime (text.take 19) with
    | none => exact iff_of_true (returns_ok _) fun seconds h => nomatch h
    | some seconds =>
      rw [forall_mem_some]
      dsimp only
      split_ifs with hnegative
      · exact iff_of_true (returns_ok _) fun h => absurd hnegative (not_lt.mpr h)
      · refine Iff.trans ?_ (imp_iff_right (not_lt.mp hnegative)).symm
        cases fractionOf text with
        | none => exact iff_of_true (returns_ok _) fun fraction h => nomatch h
        | some fraction =>
          rw [forall_mem_some]
          exact (returns_bind_of_total fun _ => returns_pure _).trans returns_stoll

/-- The time stamp of a message, read. -/
theorem returns_timestamp (hobject : data.isObject = true) :
    Returns (data.valueString "timestamp".toList [] >>= parseRfc3339TimestampNs lib) ↔
      TimestampReadable lib data := by
  rw [TimestampReadable]
  constructor
  · intro hreturns
    obtain ⟨text, htext, hreturns⟩ := returns_bind.mp hreturns
    obtain ⟨-, hstring⟩ := Json.returns_valueString.mp ⟨text, htext⟩
    refine ⟨hstring, fun t ht => ?_⟩
    rw [Json.valueString, if_pos hobject, ht] at htext
    cases htext
    exact returns_parseRfc3339TimestampNs.mp hreturns
  · rintro ⟨hstring, htime⟩
    obtain ⟨text, htext⟩ := Json.returns_valueString.mpr ⟨hobject, hstring⟩
    refine returns_bind.mpr ⟨text, htext, returns_parseRfc3339TimestampNs.mpr ?_⟩
    rw [Json.valueString, if_pos hobject] at htext
    cases hfind : data.find "timestamp".toList with
    | none =>
      rw [hfind] at htext
      cases htext
      exact fun h => absurd rfl h
    | some member =>
      obtain ⟨written, rfl⟩ := hstring member hfind
      rw [hfind] at htext
      cases htext
      exact htime _ hfind

/-! ### Updates and snapshots -/

/-- What `process_delta` and `process_snapshot` do before they publish, with what follows it. -/
theorem returns_message {α : Type} {before : LocalBook} {depth : ℕ}
    {stop : LocalBook → Except CxxException α} {next : LocalBook → Except CxxException α}
    {after : LocalBook → Prop} (hstop : ∀ book, Returns (stop book))
    (hnext : ∀ applied, applyLocalBookLevels lib before data message = .ok applied →
      (Returns (next applied) ↔ after (truncateBook depth applied))) :
    Returns (applyLocalBookLevels lib before data message >>= fun applied =>
        validateChecksum (truncateBook depth applied) data >>= fun valid =>
        if (!valid) = true then stop applied
        else data.valueString "timestamp".toList [] >>= fun text =>
          parseRfc3339TimestampNs lib text >>= fun _ => next applied) ↔
      MessageReadable lib depth before message data after := by
  rw [MessageReadable, ← @returns_applyLocalBookLevels lib message data before]
  constructor
  · intro hreturns
    obtain ⟨applied, happly, hreturns⟩ := returns_bind.mp hreturns
    obtain ⟨valid, hvalid, hreturns⟩ := returns_bind.mp hreturns
    refine ⟨⟨applied, happly⟩, returns_validateChecksum.mp ⟨valid, hvalid⟩, fun a ha htrue => ?_⟩
    cases happly.symm.trans ha
    cases hvalid.symm.trans htrue
    have hobject := (returns_applyLocalBookLevels.mp ⟨applied, happly⟩).1
    obtain ⟨text, htext, hreturns⟩ := returns_bind.mp hreturns
    obtain ⟨time, htime, hreturns⟩ := returns_bind.mp hreturns
    exact ⟨(returns_timestamp hobject).mp (returns_bind.mpr ⟨text, htext, time, htime⟩),
      (hnext applied happly).mp hreturns⟩
  · rintro ⟨⟨applied, happly⟩, hchecksum, hrest⟩
    obtain ⟨valid, hvalid⟩ := returns_validateChecksum.mpr hchecksum
    refine returns_bind.mpr ⟨applied, happly, returns_bind.mpr ⟨valid, hvalid, ?_⟩⟩
    cases valid with
    | false => exact hstop _
    | true =>
      have hobject := (returns_applyLocalBookLevels.mp ⟨applied, happly⟩).1
      obtain ⟨htimestamp, hafter⟩ := hrest applied happly hvalid
      obtain ⟨text, htext, time, htime⟩ :=
        returns_bind.mp ((returns_timestamp hobject).mpr htimestamp)
      exact returns_bind.mpr ⟨text, htext, returns_bind.mpr ⟨time, htime,
        (hnext applied happly).mpr hafter⟩⟩

theorem returns_processDelta : Returns (h.processDelta lib message json seq) ↔
    ∀ data ∈ dataOf json, UpdateReadable lib h message data := by
  rw [processDelta]
  cases dataOf json with
  | none => exact iff_of_true (returns_ok _) fun data h => nomatch h
  | some data =>
    rw [forall_mem_some, UpdateReadable]
    dsimp only
    refine returns_message (fun _ => returns_pure _) fun applied happly => ?_
    have hobject := (returns_applyLocalBookLevels.mp ⟨applied, happly⟩).1
    rw [Json.valueArray_of_isObject hobject, Json.valueArray_of_isObject hobject]
    exact (returns_bind_of_forall fun _ _ => (returns_bind_of_total fun _ =>
      returns_pure _).trans returns_emitLevels).trans (and_congr_left' returns_emitLevels)

theorem returns_replayDeltas {messages : List CString} :
    Returns (h.replayDeltas lib seq messages) ↔ ReplayReadable lib h seq messages := by
  induction messages generalizing h seq with
  | nil => exact iff_of_true (returns_ok _) trivial
  | cons message rest ih =>
    rw [replayDeltas, ReplayReadable]
    cases lib.parse message with
    | none => exact ih
    | some json =>
      dsimp only
      rw [← @returns_processDelta lib h message json seq]
      constructor
      · intro hreturns
        obtain ⟨⟨result, h₁⟩, hdelta, hreturns⟩ := returns_bind.mp hreturns
        refine ⟨⟨_, hdelta⟩, fun h' hsuccess => ?_⟩
        cases hdelta.symm.trans hsuccess
        exact ih.mp hreturns
      · rintro ⟨⟨⟨result, h₁⟩, hdelta⟩, hrest⟩
        refine returns_bind.mpr ⟨_, hdelta, ?_⟩
        cases result with
        | success => exact ih.mpr (hrest h₁ hdelta)
        | _ => exact returns_pure _

/-! ### What a local book publishes -/

/-- The sizes in the local book can be read. -/
def SizesRead (lib : FeedLibrary) (book : LocalSide) : Prop :=
  ∀ entry ∈ book, Returns (lib.stod entry.2.2)

theorem returns_publishedLevels : Returns (publishedLevels lib book) ↔ SizesRead lib book := by
  rw [SizesRead]
  induction book with
  | nil => exact iff_of_true (returns_ok _) fun entry hentry => absurd hentry List.not_mem_nil
  | cons entry rest ih =>
    rw [List.forall_mem_cons]
    exact returns_bind_of_forall fun _ _ => (returns_bind_of_total fun _ => returns_pure _).trans ih

/-- A side that has been written holds sizes that have been read. -/
theorem SizesRead.applySide {items : List Json} {raw : List (CString × CString)}
    (hread : SizesRead lib book) (happly : applySide lib side book items raw = .ok book') :
    SizesRead lib book' := by
  induction items generalizing book raw with
  | nil =>
    cases happly
    exact hread
  | cons level rest ih =>
    rw [KrakenFeedHandler.applySide] at happly
    cases hmembers : levelMembers level with
    | none =>
      rw [hmembers] at happly
      exact ih hread happly
    | some members =>
      rw [hmembers] at happly
      obtain ⟨price, -, happly⟩ := of_bind_eq_ok happly
      obtain ⟨qty, hqty, happly⟩ := of_bind_eq_ok happly
      refine ih (fun entry hentry => ?_) happly
      rw [writeLocal] at hentry
      split_ifs at hentry
      · exact hread entry (List.mem_of_mem_filter hentry)
      · obtain rfl | hentry := SortedMap.mem_upsert hentry
        · exact ⟨qty, hqty⟩
        · exact hread entry hentry

/-- The snapshot of a book that a message has written can be made. -/
theorem returns_snapshotOf (depth : ℕ) {applied : LocalBook}
    (happly : applyLocalBookLevels lib {} data message = .ok applied) :
    Returns (snapshotOf lib (truncateBook depth applied)) := by
  obtain ⟨bidLevels, -, happly⟩ := of_bind_eq_ok happly
  obtain ⟨bids, hbids, happly⟩ := of_bind_eq_ok happly
  obtain ⟨askLevels, -, happly⟩ := of_bind_eq_ok happly
  obtain ⟨asks, hasks, happly⟩ := of_bind_eq_ok happly
  cases happly
  have hempty : SizesRead lib [] := fun entry hentry => absurd hentry List.not_mem_nil
  obtain ⟨bidsOut, hbidsOut⟩ := returns_publishedLevels.mpr fun entry hentry =>
    hempty.applySide hbids entry (List.mem_of_mem_take hentry)
  obtain ⟨asksOut, hasksOut⟩ := returns_publishedLevels.mpr fun entry hentry =>
    hempty.applySide hasks entry (List.mem_of_mem_take hentry)
  exact returns_bind.mpr ⟨bidsOut, hbidsOut, returns_bind.mpr ⟨asksOut, hasksOut, returns_pure _⟩⟩

theorem returns_acceptSnapshot {snap : Snapshot} : Returns (h.acceptSnapshot lib snap) ↔
    ReplayReadable lib { h with
      lastSequence := 0
      published := h.published ++ [.snapshot snap] } 1 h.deltaBuffer := by
  refine (returns_bind_of_total ?_).trans
    ((returns_bind_of_total fun _ => returns_pure _).trans returns_replayDeltas)
  rintro ⟨done, h'⟩
  cases done <;> exact returns_pure _

theorem returns_processSnapshot : Returns (h.processSnapshot lib message json) ↔
    ∀ data ∈ dataOf json, SnapshotReadable lib h message data := by
  rw [processSnapshot]
  cases dataOf json with
  | none => exact iff_of_true (returns_ok _) fun data h => nomatch h
  | some data =>
    rw [forall_mem_some, SnapshotReadable]
    dsimp only
    refine returns_message (fun _ => returns_pure _) fun applied happly => ?_
    obtain ⟨snap, hsnap⟩ := returns_snapshotOf h.subscribedDepth happly
    rw [hsnap]
    constructor
    · intro hreturns s hs hbids hasks
      cases hs
      obtain ⟨snap', hsnap', hreturns⟩ := returns_bind.mp hreturns
      cases hsnap'
      rw [if_neg (not_or.mpr ⟨hbids, hasks⟩)] at hreturns
      exact returns_acceptSnapshot.mp hreturns
    · intro hrest
      refine returns_bind.mpr ⟨snap, rfl, ?_⟩
      split_ifs with hempty
      · exact returns_pure _
      · obtain ⟨hbids, hasks⟩ := not_or.mp hempty
        exact returns_acceptSnapshot.mpr (hrest snap rfl hbids hasks)

theorem returns_processUpdate : Returns (h.processUpdate lib message json) ↔
    (h.state ≠ .buffering → ∀ data ∈ dataOf json, UpdateReadable lib h message data) := by
  rw [processUpdate]
  split_ifs with hstate hroom
  · exact iff_of_true (returns_ok _) fun h => absurd hstate h
  · exact iff_of_true (returns_ok _) fun h => absurd hstate h
  · exact returns_processDelta.trans (imp_iff_right hstate).symm

/-! ### Messages -/

/-- A reply, read and handled: only the text of a rejected subscription can be unreadable. -/
theorem returns_reply {method : CString} (hobject : json.isObject = true) :
    Returns (readReply json method >>= h.handle lib message) ↔ (method = "subscribe".toList →
      json.find "success".toList = some (.boolean false) → json.StringAt "error".toList) := by
  rw [readReply]
  split_ifs with hmethod
  · refine Iff.trans ?_ (imp_iff_right hmethod).symm
    split
    · rename_i hsuccess
      refine Iff.trans ?_ (imp_iff_right hsuccess).symm
      rw [bind_assoc]
      exact (returns_bind_of_total fun _ => returns_ok _).trans
        (Json.returns_valueString.trans (and_iff_right hobject))
    · rename_i hsuccess
      exact iff_of_true (returns_ok _) fun h => absurd h hsuccess
  · exact iff_of_true (returns_ok _) fun h => absurd h hmethod

/-- A message of the book, read and handled. -/
theorem returns_book (hobject : json.isObject = true) :
    Returns (readBook json >>= h.handle lib message) ↔ json.StringAt "type".toList ∧
      (json.find "type".toList = some (.string "snapshot".toList) →
        ∀ data ∈ dataOf json, SnapshotReadable lib h message data) ∧
      (json.find "type".toList = some (.string "update".toList) → h.state ≠ .buffering →
        ∀ data ∈ dataOf json, UpdateReadable lib h message data) := by
  rw [readBook, bind_assoc, Json.valueString, if_pos hobject]
  cases hfind : json.find "type".toList with
  | none =>
    refine iff_of_true (returns_ok _) ⟨fun member h => ?_, fun h => ?_, fun h => ?_⟩
    · rw [hfind] at h
      cases h
    · cases h
    · cases h
  | some member =>
    refine Json.returns_getString_bind.trans ⟨?_, ?_⟩
    · rintro ⟨type, rfl, hreturns⟩
      refine ⟨fun member h => ?_, fun h => ?_, fun h => ?_⟩
      · rw [hfind] at h
        exact ⟨type, (Option.some.inj h).symm⟩
      · cases h
        exact returns_processSnapshot.mp hreturns
      · cases h
        exact returns_processUpdate.mp hreturns
    · rintro ⟨hstring, hsnapshot, hupdate⟩
      obtain ⟨type, rfl⟩ := hstring member hfind
      refine ⟨type, rfl, ?_⟩
      rw [pure_bind]
      split_ifs with hsnap hupd
      · exact returns_processSnapshot.mpr (hsnapshot (by rw [hsnap]))
      · exact returns_processUpdate.mpr (hupdate (by rw [hupd]))
      · exact returns_ok _

/-- **When the Kraken handler returns.** -/
theorem returns_processMessage :
    Returns (h.processMessage lib message) ↔ h.Readable lib message := by
  rw [processMessage, readMessage, Readable]
  cases lib.parse message with
  | none => exact iff_of_true (returns_ok _) fun json h => nomatch h
  | some json =>
    rw [forall_mem_some]
    dsimp only
    split
    · rename_i method hmethod
      refine (returns_reply (Json.isObject_of_find hmethod)).trans ?_
      rw [hmethod, Option.some.injEq, Json.string.injEq]
      exact (and_iff_left fun h => absurd rfl (h method)).symm
    · rename_i hmethod
      refine Iff.trans ?_ (and_iff_right fun h => absurd h (hmethod _)).symm
      refine Iff.trans ?_ (imp_iff_right fun method => hmethod method).symm
      split
      · rename_i channel hchannel
        rw [hchannel, Option.some.injEq, Json.string.injEq]
        split_ifs with htrade hbook
        · exact iff_of_true (returns_ok _) fun h => absurd (htrade.symm.trans h) (by decide)
        · exact (returns_book (Json.isObject_of_find hchannel)).trans (imp_iff_right hbook).symm
        · exact iff_of_true (returns_ok _) fun h => absurd h hbook
      · rename_i hchannel
        exact iff_of_true (returns_ok _) fun h => absurd h (hchannel _)

end KrakenFeedHandler

/-! ## The four handlers -/

/-- **When a message cannot stop the process.** From every state the Binance handler returns a
result for every message, and each of the other three for exactly the messages that it can read. -/
theorem processMessage_returns_iff (lib : FeedLibrary) (instrumentId : CString) (now : ℕ)
    (binance : BinanceFeedHandler) (okx : OkxFeedHandler) (kraken : KrakenFeedHandler)
    (coinbase : CoinbaseFeedHandler) (message : CString) :
    Returns (binance.processMessage lib message) ∧
      (Returns (okx.processMessage lib instrumentId message) ↔
        okx.Readable lib instrumentId message) ∧
      (Returns (kraken.processMessage lib message) ↔ kraken.Readable lib message) ∧
      (Returns (coinbase.processMessage lib now message) ↔ coinbase.Readable lib message) := by
  obtain ⟨incoming, -, hreturns⟩ := BinanceFeedHandler.processMessage_isOk lib binance message
  exact ⟨⟨_, hreturns⟩, OkxFeedHandler.returns_processMessage,
    KrakenFeedHandler.returns_processMessage, CoinbaseFeedHandler.returns_processMessage now⟩

/-- An OKX update whose sequence number is null, as text. -/
def nullSequenceText : CString :=
  "\x7b\"arg\":\x7b\"channel\":\"books\",\"instId\":\"BTC-USDT\"\x7d,".toList ++
    "\"action\":\"update\",\"data\":[\x7b\"seqId\":null\x7d]\x7d".toList

/-- The same as value. -/
def nullSequence : Json :=
  .object [("action".toList, .string "update".toList),
    ("arg".toList, .object [("channel".toList, .string "books".toList),
      ("instId".toList, .string "BTC-USDT".toList)]),
    ("data".toList, .array [.object [("seqId".toList, .null)]])]

/-- No result comes back for the null: a `type_error` escapes. -/
theorem null_sequence_escapes :
    ¬ Returns (({} : OkxFeedHandler).processMessage
      (.ofTables [(nullSequenceText, nullSequence)] [])
      "BTC-USDT".toList nullSequenceText) :=
  not_returns_error .typeError

end TradingInfrastructure
