import TradingInfrastructure.Feeds.BinanceSync
import TradingInfrastructure.Feeds.CoinbaseConnections
import TradingInfrastructure.Feeds.KrakenFeedHandler
import TradingInfrastructure.Feeds.OkxIntegrity
import TradingInfrastructure.Feeds.UsableBook

/-!
# The book behind a streaming feed

The check that a handler makes of a snapshot and the check of the book differ: a handler accepts
every snapshot with a level on both sides (and, where there is one, the right checksum), and the
book also looks at the spread and at what its grid reaches. So a handler may stream into a book
that has refused its snapshot.

Here the four handlers are seen to publish alike, each by a lemma on a step. The book behind a
streaming handler comes from its last snapshot in every run whose offered snapshots the book can
use (`streaming_usable`).
-/

namespace TradingInfrastructure

/-! ## OKX -/

namespace OkxFeedHandler

open OkxFeed

variable {lib : FeedLibrary} {h h' : OkxFeedHandler} {instrumentId message : CString} {data : Json}

/-- The snapshot that a step offers to the callback. -/
def offered (lib : FeedLibrary) (instrumentId : CString) : StreamEvent → Option Snapshot
  | .established => none
  | .message text =>
    match readMessage lib instrumentId text with
    | .ok (.snapshot json) => (snapshotIn lib json).filter twoSided
    | _ => none

theorem processDelta_published {seq : UInt64} (hrun : h.processDelta lib data seq = .ok h') :
    OnlyDeltas h.published h'.published ∧ h'.state = h.state := by
  obtain ⟨book, deltas, -, -, rfl⟩ := processDelta_spec hrun
  refine ⟨?_, rfl⟩
  have hpublished := @published_concat h { h with
    lastSequence := seq
    book := book
    delivered := h.delivered ++ [.update ⟨data, seq, deltas, book⟩] } _ rfl
  rw [hpublished]
  exact onlyDeltas_map deltas

theorem replayDeltas_published {messages : List CString} {done : Bool}
    (hrun : h.replayDeltas lib messages = .ok (done, h')) :
    OnlyDeltas h.published h'.published := by
  induction messages generalizing h with
  | nil =>
    cases hrun
    exact onlyDeltas_refl
  | cons message rest ih =>
    rw [replayDeltas] at hrun
    split at hrun
    · exact ih hrun
    · obtain ⟨seq, -, hrun⟩ := of_bind_eq_ok hrun
      obtain ⟨prevSeq, -, hrun⟩ := of_bind_eq_ok hrun
      split_ifs at hrun
      · exact ih hrun
      · cases hrun
        exact onlyDeltas_refl
      · obtain ⟨valid, -, hrun⟩ := of_bind_eq_ok hrun
        split_ifs at hrun
        · cases hrun
          exact onlyDeltas_refl
        · obtain ⟨h₁, hdelta, hrun⟩ := of_bind_eq_ok hrun
          exact (processDelta_published hdelta).1.trans (ih hrun)

theorem processSnapshot_publishes {json : Json} {result : Result}
    (hrun : h.processSnapshot lib json = .ok (result, h')) :
    Publishes ((snapshotIn lib json).filter twoSided) (h.state = .streaming)
      (h'.state = .streaming) h.published h'.published := by
  have hstop : h.triggerResnapshot.state = .streaming → h.state = .streaming :=
    fun heq => by cases heq
  rw [processSnapshot] at hrun
  split at hrun
  · cases hrun
    exact publishes_nothing rfl hstop
  · next book hbook =>
    obtain ⟨seq, hseq, hrun⟩ := of_bind_eq_ok hrun
    obtain ⟨snap, hsnap, hrun⟩ := of_bind_eq_ok hrun
    split_ifs at hrun with hsides
    · cases hrun
      exact publishes_nothing rfl hstop
    · have hoffers : snap ∈ (snapshotIn lib json).filter twoSided := by
        refine mem_filter_twoSided ?_ hsides
        rw [snapshotIn, hbook, Option.bind_some, hseq]
        exact congrArg Except.toOption hsnap
      rw [acceptSnapshot] at hrun
      obtain ⟨local_, -, hrun⟩ := of_bind_eq_ok hrun
      obtain ⟨⟨done, h₂⟩, hbuffer, hrun⟩ := of_bind_eq_ok hrun
      obtain ⟨⟨done', h₃⟩, hreplay, hbuffer⟩ := of_bind_eq_ok hbuffer
      cases hbuffer
      have hdeltas := replayDeltas_published hreplay
      have hpublished := @published_concat h { h with
        book := local_
        lastSequence := seq
        delivered := h.delivered ++ [.snapshot seq snap] } (.snapshot seq snap) rfl
      rw [hpublished] at hdeltas
      cases done <;> cases hrun <;> exact hdeltas.accepts hoffers

theorem processUpdate_publishes {seq prevSeq : UInt64} {result : Result} {read : Option Snapshot}
    (hrun : h.processUpdate lib message data seq prevSeq = .ok (result, h')) :
    Publishes read (h.state = .streaming) (h'.state = .streaming) h.published h'.published := by
  have hstop : h.triggerResnapshot.state = .streaming → h.state = .streaming :=
    fun heq => by cases heq
  rw [processUpdate] at hrun
  split_ifs at hrun with hstate
  · cases hrun
    exact publishes_nothing rfl id
  · cases hrun
    exact publishes_nothing rfl hstop
  · cases hrun
    exact publishes_nothing rfl hstop
  · obtain ⟨valid, -, hrun⟩ := of_bind_eq_ok hrun
    split_ifs at hrun
    · cases hrun
      exact publishes_nothing rfl hstop
    · obtain ⟨h₁, hdelta, hrun⟩ := of_bind_eq_ok hrun
      cases hrun
      exact (processDelta_published hdelta).1.publishes (not_not.mp hstate)

theorem streamStep_publishes {e : StreamEvent} (hstep : streamStep lib instrumentId h e = .ok h') :
    Publishes (offered lib instrumentId e) (h.state = .streaming) (h'.state = .streaming)
      h.published h'.published := by
  cases e with
  | established =>
    cases hstep
    exact publishes_nothing rfl fun heq => by cases heq
  | message text =>
    obtain ⟨⟨result, h₁⟩, hrun, hstep⟩ := of_bind_eq_ok hstep
    cases hstep
    obtain ⟨incoming, hread, hrun⟩ := of_bind_eq_ok hrun
    rw [offered, hread]
    cases incoming with
    | ignored =>
      cases hrun
      exact publishes_nothing rfl id
    | error =>
      cases hrun
      exact publishes_nothing rfl fun heq => by cases heq
    | trades trades =>
      cases hrun
      have hpublished : published { h with delivered := h.delivered ++ trades.map .trade } =
          h.published ++ trades.map .trade := by
        rw [published, List.flatMap_append, List.flatMap_map, List.map_eq_flatMap]
        rfl
      rw [hpublished]
      exact publishes_trades id
    | snapshot json => exact processSnapshot_publishes hrun
    | update data seq prevSeq => exact processUpdate_publishes hrun

end OkxFeedHandler

/-! ## Kraken -/

namespace KrakenFeedHandler

variable {lib : FeedLibrary} {h h' : KrakenFeedHandler} {message : CString} {json : Json}
variable {result : Result}

/-- The snapshot that `process_snapshot` makes of a message: the levels of its local book, if that
has the right checksum. -/
def snapshotIn (lib : FeedLibrary) (depth : ℕ) (message : CString) (json : Json) :
    Option Snapshot := do
  let data ← dataOf json
  let book := truncateBook depth (← (applyLocalBookLevels lib {} data message).toOption)
  if (← (validateChecksum book data).toOption) then (snapshotOf lib book).toOption else none

/-- The snapshot that a step offers to the callback. -/
def offered (lib : FeedLibrary) (h : KrakenFeedHandler) : StreamEvent → Option Snapshot
  | .established => none
  | .message text =>
    match readMessage lib text with
    | .ok (.snapshot json) => (snapshotIn lib h.subscribedDepth text json).filter twoSided
    | _ => none

theorem processDelta_published {seq : UInt64}
    (hrun : h.processDelta lib message json seq = .ok (result, h')) :
    OnlyDeltas h.published h'.published ∧ (h'.state = h.state ∨ h'.state = .buffering) := by
  rw [processDelta] at hrun
  split at hrun
  · cases hrun
    exact ⟨onlyDeltas_refl, .inl rfl⟩
  · obtain ⟨book, -, hrun⟩ := of_bind_eq_ok hrun
    obtain ⟨valid, -, hrun⟩ := of_bind_eq_ok hrun
    split_ifs at hrun
    · cases hrun
      exact ⟨onlyDeltas_refl, .inr rfl⟩
    · obtain ⟨timestamp, -, hrun⟩ := of_bind_eq_ok hrun
      obtain ⟨time, -, hrun⟩ := of_bind_eq_ok hrun
      obtain ⟨bidLevels, -, hrun⟩ := of_bind_eq_ok hrun
      obtain ⟨bids, -, hrun⟩ := of_bind_eq_ok hrun
      obtain ⟨askLevels, -, hrun⟩ := of_bind_eq_ok hrun
      obtain ⟨asks, -, hrun⟩ := of_bind_eq_ok hrun
      cases hrun
      exact ⟨onlyDeltas_map _, .inl rfl⟩

theorem replayDeltas_published {messages : List CString} {done : Bool} {nextSeq : UInt64}
    (hrun : h.replayDeltas lib nextSeq messages = .ok (done, h')) :
    OnlyDeltas h.published h'.published := by
  induction messages generalizing h nextSeq with
  | nil =>
    cases hrun
    exact onlyDeltas_refl
  | cons message rest ih =>
    rw [replayDeltas] at hrun
    split at hrun
    · exact ih hrun
    · obtain ⟨⟨result, h₁⟩, hdelta, hrun⟩ := of_bind_eq_ok hrun
      have hfirst := (processDelta_published hdelta).1
      cases result with
      | success => exact hfirst.trans (ih hrun)
      | _ =>
        cases hrun
        exact hfirst

theorem processSnapshot_publishes (hrun : h.processSnapshot lib message json = .ok (result, h')) :
    Publishes ((snapshotIn lib h.subscribedDepth message json).filter twoSided)
      (h.state ≠ .buffering) (h'.state ≠ .buffering) h.published h'.published := by
  have hstop : h.triggerResnapshot.state ≠ .buffering → h.state ≠ .buffering :=
    fun hne => absurd rfl hne
  rw [processSnapshot] at hrun
  split at hrun
  · cases hrun
    exact publishes_nothing rfl hstop
  · next data hdata =>
    obtain ⟨levels, hlevels, hrun⟩ := of_bind_eq_ok hrun
    obtain ⟨valid, hvalid, hrun⟩ := of_bind_eq_ok hrun
    split_ifs at hrun with hsum
    · cases hrun
      exact publishes_nothing rfl hstop
    · obtain ⟨timestamp, -, hrun⟩ := of_bind_eq_ok hrun
      obtain ⟨time, -, hrun⟩ := of_bind_eq_ok hrun
      obtain ⟨snap, hsnap, hrun⟩ := of_bind_eq_ok hrun
      split_ifs at hrun with hsides
      · cases hrun
        exact publishes_nothing rfl hstop
      · rw [Bool.not_eq_true', Bool.not_eq_false] at hsum
        subst hsum
        have hoffers : snap ∈ (snapshotIn lib h.subscribedDepth message json).filter twoSided := by
          refine mem_filter_twoSided ?_ hsides
          simp only [snapshotIn, hdata, hlevels, hvalid, hsnap, Except.toOption, bind,
            Option.bind_some, if_true]
        obtain ⟨⟨done, h₂⟩, hbuffer, hrun⟩ := of_bind_eq_ok hrun
        obtain ⟨⟨done', h₃⟩, hreplay, hbuffer⟩ := of_bind_eq_ok hbuffer
        cases hbuffer
        have hdeltas := replayDeltas_published hreplay
        cases done <;> cases hrun <;> exact hdeltas.accepts hoffers

theorem processUpdate_publishes {read : Option Snapshot}
    (hrun : h.processUpdate lib message json = .ok (result, h')) :
    Publishes read (h.state ≠ .buffering) (h'.state ≠ .buffering) h.published h'.published := by
  rw [processUpdate] at hrun
  split_ifs at hrun with hstate
  · cases hrun
    exact publishes_nothing rfl id
  · cases hrun
    exact publishes_nothing rfl fun hne => absurd rfl hne
  · exact (processDelta_published hrun).1.publishes hstate

theorem streamStep_publishes {e : StreamEvent} (hstep : streamStep lib h e = .ok h') :
    Publishes (offered lib h e) (h.state ≠ .buffering) (h'.state ≠ .buffering)
      h.published h'.published := by
  cases e with
  | established =>
    cases hstep
    exact publishes_nothing rfl fun hne => absurd rfl hne
  | message text =>
    obtain ⟨⟨result, h₁⟩, hrun, hstep⟩ := of_bind_eq_ok hstep
    cases hstep
    obtain ⟨incoming, hread, hrun⟩ := of_bind_eq_ok hrun
    rw [offered, hread]
    cases incoming with
    | ignored =>
      cases hrun
      exact publishes_nothing rfl id
    | rejected =>
      cases hrun
      exact publishes_nothing rfl fun hne => absurd rfl hne
    | trades trades =>
      cases hrun
      exact publishes_trades id
    | snapshot json => exact processSnapshot_publishes hrun
    | update json => exact processUpdate_publishes hrun

end KrakenFeedHandler

/-! ## Coinbase -/

namespace CoinbaseFeedHandler

variable {lib : FeedLibrary} {h h' : CoinbaseFeedHandler} {now : ℤ} {message : CString}
variable {json : Json} {seq : UInt64} {result : Result}

/-- The snapshot that a message offers to the callback. -/
def offered (lib : FeedLibrary) (message : CString) : Option Snapshot :=
  match readMessage lib message with
  | .ok (.level2 json seq) =>
    if hasSnapshot json then (some (readSnapshot lib json seq)).filter twoSided else none
  | _ => none

theorem replayDeltas_published {messages : List CString} {done : Bool}
    (hrun : h.replayDeltas lib messages = .ok (done, h')) :
    OnlyDeltas h.published h'.published := by
  induction messages generalizing h with
  | nil =>
    cases hrun
    exact onlyDeltas_refl
  | cons message rest ih =>
    rw [replayDeltas] at hrun
    split at hrun
    · exact ih hrun
    · obtain ⟨seq, -, hrun⟩ := of_bind_eq_ok hrun
      split_ifs at hrun
      · exact ih hrun
      · cases hrun
        exact onlyDeltas_refl
      · exact (onlyDeltas_map _).trans (ih hrun)

theorem handleSnapshot_publishes (hrun : h.handleSnapshot lib json seq = .ok (result, h')) :
    Publishes ((some (readSnapshot lib json seq)).filter twoSided) (h.state = .streaming)
      (h'.state = .streaming) h.published h'.published := by
  rw [handleSnapshot, processSnapshot] at hrun
  by_cases hsides : (readSnapshot lib json seq).bids = [] ∨ (readSnapshot lib json seq).asks = []
  · simp only [if_pos hsides] at hrun
    cases hrun
    exact publishes_nothing rfl fun heq => by cases heq
  · simp only [if_neg hsides] at hrun
    obtain ⟨⟨done, h₂⟩, hbuffer, hrun⟩ := of_bind_eq_ok hrun
    obtain ⟨⟨done', h₃⟩, hreplay, hbuffer⟩ := of_bind_eq_ok hbuffer
    cases hbuffer
    have hdeltas := replayDeltas_published hreplay
    cases done <;> cases hrun <;> exact hdeltas.accepts (mem_filter_twoSided rfl hsides)

theorem handleUpdate_publishes {read : Option Snapshot} : Publishes read (h.state = .streaming)
    ((h.handleUpdate lib message json seq).2.state = .streaming) h.published
    (h.handleUpdate lib message json seq).2.published := by
  rw [handleUpdate]
  split_ifs with hstate
  · exact publishes_nothing rfl id
  · exact publishes_nothing rfl fun heq => by cases heq
  · exact publishes_nothing rfl fun heq => by cases heq
  · exact (onlyDeltas_map _).publishes (not_not.mp hstate)

theorem processMessage_publishes
    (hrun : h.processMessage lib now message = .ok (result, h')) :
    Publishes (offered lib message) (h.state = .streaming) (h'.state = .streaming)
      h.published h'.published := by
  obtain ⟨incoming, hread, hrun⟩ := of_bind_eq_ok hrun
  rw [offered, hread]
  cases incoming with
  | ignored =>
    cases hrun
    exact publishes_nothing rfl id
  | error reason =>
    cases hrun
    rw [handleError]
    split_ifs <;> exact publishes_nothing rfl id
  | heartbeat exchangeTs =>
    cases hrun
    exact publishes_nothing rfl id
  | trades trades =>
    cases hrun
    exact publishes_trades id
  | level2 json seq =>
    rw [handle] at hrun
    split_ifs at hrun with hsnap
    · simp only [if_pos hsnap]
      exact handleSnapshot_publishes hrun
    · simp only [if_neg hsnap]
      have hupdate := @handleUpdate_publishes lib h message json seq none
      rw [Except.ok.injEq] at hrun
      rw [hrun] at hupdate
      exact hupdate

namespace EventLoop

variable {c : EventLoop}

/-- The snapshot that a step offers to the callback. -/
def offered (lib : FeedLibrary) (c : EventLoop) : LoopEvent → Option Snapshot
  | .message _ text =>
    if c.phase = .connecting ∨ c.phase = .connected then CoinbaseFeedHandler.offered lib text
    else none
  | _ => none

theorem step_publishes (e : LoopEvent) : Publishes (offered lib c e)
    (c.handler.state = .streaming) ((c.step lib e).handler.state = .streaming)
    c.handler.published (c.step lib e).handler.published := by
  cases e with
  | message now text =>
    rw [EventLoop.step, offered]
    split_ifs
    · rw [receive]
      split
      · next hrun => exact processMessage_publishes hrun
      · exact publishes_nothing rfl id
    · exact publishes_nothing rfl id
  | check now =>
    rw [EventLoop.step]
    split_ifs
    · rw [check]
      split_ifs
      · exact publishes_nothing rfl fun heq => by cases heq
      · exact publishes_nothing rfl fun heq => by cases heq
      · exact publishes_nothing rfl fun heq => by cases heq
      · exact publishes_nothing rfl id
    · exact publishes_nothing rfl id
  | closedByVenue =>
    rw [EventLoop.step]
    split_ifs
    · exact publishes_nothing rfl fun heq => by cases heq
    · exact publishes_nothing rfl id
  | _ =>
    rw [EventLoop.step]
    split_ifs <;> exact publishes_nothing rfl id

end EventLoop

end CoinbaseFeedHandler

/-! ## Binance -/

namespace BinanceFeedHandler

open BinanceFeed

variable {lib : FeedLibrary} {bytesOf : ℚ → List UInt8} {h h' : BinanceFeedHandler}
variable {reply : SnapshotReply}

/-- The snapshot in a reply of the venue. -/
def snapshotIn (lib : FeedLibrary) (reply : SnapshotReply) : Option Snapshot :=
  if ¬ (200 ≤ reply.status ∧ reply.status < 300) ∨ reply.body = [] then none
  else
    match lib.parse reply.body with
    | none => none
    | some json =>
      match json.find "lastUpdateId".toList with
      | some (.unsigned lastUpdateId) => (readSnapshot lib json lastUpdateId).toOption
      | _ => none

/-- The checks of the handler: a level on both sides, and the right checksum if there is one. -/
def accepts (bytesOf : ℚ → List UInt8) (s : Snapshot) : Bool :=
  ¬ (s.checksumPresent ∧ OrderBook.computeSnapshotChecksum bytesOf s ≠ s.checksum) ∧
    ¬ (s.bids = [] ∨ s.asks = [])

/-- A reply is refused and leaves the handler as it is, or its snapshot is delivered. -/
theorem processSnapshot_offers {result : Result}
    (hrun : h.processSnapshot lib bytesOf reply = .ok (result, h')) :
    (result ≠ .success ∧ h' = h) ∨ ∃ snap ∈ (snapshotIn lib reply).filter (accepts bytesOf),
      result = .success ∧ h'.published = h.published ++ [.snapshot snap] := by
  rw [processSnapshot] at hrun
  rw [snapshotIn]
  split_ifs at hrun ⊢ with hbusy hbad
  · cases hrun
    exact .inl ⟨by decide, rfl⟩
  · cases hrun
    exact .inl ⟨by decide, rfl⟩
  · cases hrun
    exact .inl ⟨by decide, rfl⟩
  · split at hrun
    · cases hrun
      exact .inl ⟨by decide, rfl⟩
    · next json hjson =>
      split at hrun
      · next id hid =>
        obtain ⟨snap, hsnap, hrun⟩ := of_bind_eq_ok hrun
        simp only [hjson, hid, hsnap, Except.toOption]
        rw [acceptSnapshot] at hrun
        split_ifs at hrun with hsum hsides
        · cases hrun
          exact .inl ⟨by decide, rfl⟩
        · cases hrun
          exact .inl ⟨by decide, rfl⟩
        · cases hrun
          refine .inr ⟨snap, ?_, rfl, List.flatMap_append⟩
          rw [Option.mem_def, Option.filter_some, accepts, if_pos (decide_eq_true ⟨hsum, hsides⟩)]
      · cases hrun
        exact .inl ⟨by decide, rfl⟩

/-- The calls for depth messages are deltas. -/
theorem onlyDeltas_of_depths {es : List BufferedDelta}
    (hdelivered : h'.delivered = h.delivered ++ es.map .depth) :
    OnlyDeltas h.published h'.published := by
  refine ⟨es.flatMap BufferedDelta.calls, ?_, fun call hcall => ?_⟩
  · rw [published, hdelivered, List.flatMap_append, List.flatMap_map]
    rfl
  · obtain ⟨d, -, hcall⟩ := List.mem_flatMap.mp hcall
    obtain hcall | hcall := List.mem_append.mp hcall
    · obtain ⟨level, -, rfl⟩ := List.mem_map.mp hcall
      exact ⟨_, rfl⟩
    · obtain ⟨level, -, rfl⟩ := List.mem_map.mp hcall
      exact ⟨_, rfl⟩

theorem published_eq_of_delivered (hdelivered : h'.delivered = h.delivered) :
    h'.published = h.published :=
  congrArg (List.flatMap Delivery.calls) hdelivered

namespace Sync

variable {c c' : Sync}

/-- The handler streams, or is about to replay its buffer. -/
def Ready (c : Sync) : Prop := c.handler.state ≠ .buffering ∨ c.phase = .replaying

/-- The snapshot that a step offers to the callback. -/
def offered (lib : FeedLibrary) (bytesOf : ℚ → List UInt8) (c : Sync) :
    SyncEvent → Option Snapshot
  | .snapshotReply reply =>
    if c.phase = .snapshotting then (snapshotIn lib reply).filter (accepts bytesOf) else none
  | _ => none

/-- A step that publishes nothing and does not make the handler ready. -/
theorem publishes_none {offer : Option Snapshot}
    (hdelivered : c'.handler.delivered = c.handler.delivered)
    (hstate : c'.handler.state = .buffering ∨ c'.handler.state = c.handler.state)
    (hphase : c'.phase = .replaying → c.phase = .replaying) :
    Publishes offer c.Ready c'.Ready c.handler.published c'.handler.published := by
  refine publishes_nothing (published_eq_of_delivered hdelivered) fun hready => ?_
  obtain hne | hreplaying := hready
  · exact .inl (hstate.elim (fun hbuffering => absurd hbuffering hne) fun heq => heq ▸ hne)
  · exact .inr (hphase hreplaying)

theorem handled_publishes {offer : Option Snapshot} (hh : Handled c.handler h') :
    Publishes offer c.Ready (Ready { c with handler := h' }) c.handler.published h'.published := by
  cases hh with
  | kept hstate _ hdelivered _ =>
    exact @publishes_none c { c with handler := h' } offer hdelivered (.inr hstate) id
  | traded t hstate _ hdelivered _ =>
    have hpublished : h'.published = c.handler.published ++ [t].map .trade := by
      rw [published, hdelivered, List.flatMap_append]
      rfl
    rw [hpublished]
    exact publishes_trades fun hready => hready.imp_left fun hne => hstate ▸ hne
  | applied d hstate _ _ _ hdelivered =>
    have hdepths : h'.delivered = c.handler.delivered ++ [d].map .depth := hdelivered
    exact (onlyDeltas_of_depths hdepths).publishes (.inl hstate)
  | triggered hstate _ hdelivered _ =>
    exact @publishes_none c { c with handler := h' } offer hdelivered (.inl hstate) id

theorem takeSnapshot_publishes (hstep : c.takeSnapshot lib bytesOf reply = .ok c') :
    Publishes ((snapshotIn lib reply).filter (accepts bytesOf)) c.Ready c'.Ready
      c.handler.published c'.handler.published := by
  obtain ⟨⟨result, h₁⟩, hrun, hstep⟩ := of_bind_eq_ok hstep
  obtain ⟨hne, rfl⟩ | ⟨snap, hoffers, rfl, hpublished⟩ := processSnapshot_offers hrun
  · simp only [if_pos hne] at hstep
    cases hstep
    exact publishes_none rfl (.inr rfl) fun heq => by cases heq
  · have hdeltas : OnlyDeltas (c.handler.published ++ [.snapshot snap]) h₁.published :=
      hpublished ▸ onlyDeltas_refl
    simp only [ne_eq, not_true_eq_false, if_false] at hstep
    split_ifs at hstep <;> cases hstep <;> exact hdeltas.accepts hoffers

theorem step_publishes {e : SyncEvent} (hstep : c.step lib bytesOf e = .ok c') :
    Publishes (offered lib bytesOf c e) c.Ready c'.Ready c.handler.published
      c'.handler.published := by
  cases e with
  | message text =>
    obtain ⟨incoming, -, rfl⟩ := step_message hstep
    exact handled_publishes (handle_handled incoming)
  | snapshotReply reply =>
    rw [Sync.step] at hstep
    rw [offered]
    split_ifs at hstep ⊢
    · exact takeSnapshot_publishes hstep
    · cases hstep
      exact publishes_none rfl (.inr rfl) id
  | replay =>
    rw [Sync.step] at hstep
    split_ifs at hstep with hphase <;> cases hstep
    · obtain ⟨es, -, hdelivered, -⟩ := @replayBuffer_spec c
      exact (onlyDeltas_of_depths hdelivered).publishes (.inr hphase)
    · exact publishes_none rfl (.inr rfl) id
  | leave =>
    rw [Sync.step] at hstep
    split_ifs at hstep <;> cases hstep
    · refine publishes_none leaveStreaming_delivered ?_ fun heq => by cases heq
      rw [leaveStreaming]
      split_ifs
      · exact .inl rfl
      · exact .inr rfl
    · exact publishes_none rfl (.inr rfl) id
  | established =>
    rw [Sync.step] at hstep
    split_ifs at hstep <;> cases hstep
    · exact publishes_none rfl (.inl rfl) fun heq => by cases heq
    · exact publishes_none rfl (.inr rfl) id
  | _ =>
    rw [Sync.step] at hstep
    split_ifs at hstep <;> cases hstep
    · exact publishes_none rfl (.inr rfl) fun heq => by cases heq
    · exact publishes_none rfl (.inr rfl) id

end Sync

end BinanceFeedHandler

/-! ## Runs -/

/-- The state in which `start` leaves a new Kraken handler. -/
def KrakenFeedHandler.start : KrakenFeedHandler := { state := .buffering }

/-! ### Each handler -/

variable {lib : FeedLibrary} {bytesOf : ℚ → List UInt8} {tickSize : ℚ} {maxLevels : ℕ}

/-- Binance. -/
theorem BinanceFeedHandler.Sync.hasUsableBook {events : List SyncEvent} {c : Sync}
    (hoffers : AllSteps (stepOrEnd (step lib bytesOf)) (fun o e => ∀ c ∈ o, OfferUsable bytesOf
      (.new tickSize maxLevels) c.handler.published (offered lib bytesOf c e)) (some start) events)
    (hrun : events.foldl (stepOrEnd (step lib bytesOf)) (some start) = some c) :
    HasUsableBook bytesOf (.new tickSize maxLevels) c.handler.state c.handler.published := by
  have hready : ¬ start.Ready := fun h => h.elim (fun hne => hne rfl) fun heq => by cases heq
  have hstart : Feeding bytesOf (.new tickSize maxLevels) start.Ready start.handler.published :=
    feeding_start rfl hready
  have hpublishes : ∀ c e c', step lib bytesOf c e = .ok c' → Publishes (offered lib bytesOf c e)
      c.Ready c'.Ready c.handler.published c'.handler.published := fun _ _ _ => step_publishes
  have hfeeding := @Feeding.run bytesOf (.new tickSize maxLevels) _ _ _
    (fun c : Sync => c.handler.published) Ready (offered lib bytesOf) events start c
    (step lib bytesOf) hpublishes hstart hoffers hrun
  exact hfeeding.hasUsableBook fun hstate => .inl fun heq => by rw [hstate] at heq; cases heq

/-- Kraken. -/
theorem KrakenFeedHandler.hasUsableBook {events : List StreamEvent} {h : KrakenFeedHandler}
    (hoffers : AllSteps (stepOrEnd (streamStep lib)) (fun o e => ∀ h ∈ o, OfferUsable bytesOf
      (.new tickSize maxLevels) h.published (offered lib h e)) (some start) events)
    (hrun : events.foldl (stepOrEnd (streamStep lib)) (some start) = some h) :
    HasUsableBook bytesOf (.new tickSize maxLevels) h.state h.published := by
  have hready : ¬ start.state ≠ .buffering := fun hne => hne rfl
  have hfeeding : Feeding bytesOf (.new tickSize maxLevels) (h.state ≠ .buffering) h.published :=
    Feeding.run published (fun h => h.state ≠ .buffering) (offered lib)
      (fun _ _ _ hstep => streamStep_publishes hstep) (feeding_start rfl hready) hoffers hrun
  exact hfeeding.hasUsableBook fun hstate heq => by rw [hstate] at heq; cases heq

/-- OKX. -/
theorem OkxFeedHandler.hasUsableBook {instrumentId : CString} {events : List StreamEvent}
    {h : OkxFeedHandler}
    (hoffers : AllSteps (stepOrEnd (streamStep lib instrumentId)) (fun o e => ∀ h ∈ o,
      OfferUsable bytesOf (.new tickSize maxLevels) h.published (offered lib instrumentId e))
      (some {}) events)
    (hrun : events.foldl (stepOrEnd (streamStep lib instrumentId)) (some {}) = some h) :
    HasUsableBook bytesOf (.new tickSize maxLevels) h.state h.published := by
  have hready : ¬ ({} : OkxFeedHandler).state = .streaming := fun heq => by cases heq
  have hfeeding : Feeding bytesOf (.new tickSize maxLevels) (h.state = .streaming) h.published :=
    Feeding.run published (fun h => h.state = .streaming) (fun _ => offered lib instrumentId)
      (fun _ _ _ hstep => streamStep_publishes hstep) (feeding_start rfl hready) hoffers hrun
  exact hfeeding.hasUsableBook id

/-- Coinbase. -/
theorem CoinbaseFeedHandler.EventLoop.hasUsableBook {events : List LoopEvent}
    (hoffers : AllSteps (step lib) (fun c e => OfferUsable bytesOf (.new tickSize maxLevels)
      c.handler.published (offered lib c e)) start events) :
    HasUsableBook bytesOf (.new tickSize maxLevels) (events.foldl (step lib) start).handler.state
      (events.foldl (step lib) start).handler.published := by
  have hstart : Feeding bytesOf (.new tickSize maxLevels) (start.handler.state = .streaming)
      start.handler.published := feeding_start rfl fun heq => by cases heq
  have hpublishes : ∀ c e, Publishes (offered lib c e) (c.handler.state = .streaming)
      ((step lib c e).handler.state = .streaming) c.handler.published
      (step lib c e).handler.published := fun _ e => step_publishes e
  have hfeeding := Feeding.run_total (fun c : EventLoop => c.handler.published)
    (fun c => c.handler.state = .streaming) (offered lib) hpublishes hstart hoffers
  exact hfeeding.hasUsableBook id

open BinanceFeedHandler (Sync) in
/-- **A streaming feed has a usable book.** In every run whose offered snapshots the book can use,
the book behind a handler that streams was initialized from its latest snapshot and still is, and
no delta has been refused; for each of the four handlers. -/
theorem streaming_usable (lib : FeedLibrary) (instrumentId : CString)
    (bytesOf : ℚ → List UInt8) (tickSize : ℚ) (maxLevels : ℕ) :
    (∀ events, AllSteps (stepOrEnd (Sync.step lib bytesOf)) (fun o e => ∀ c ∈ o, OfferUsable bytesOf
        (.new tickSize maxLevels) c.handler.published (c.offered lib bytesOf e))
        (some Sync.start) events →
      ∀ c, events.foldl (stepOrEnd (Sync.step lib bytesOf)) (some Sync.start) = some c →
        HasUsableBook bytesOf (.new tickSize maxLevels) c.handler.state c.handler.published) ∧
    (∀ events, AllSteps (stepOrEnd (KrakenFeedHandler.streamStep lib)) (fun o e => ∀ h ∈ o,
        OfferUsable bytesOf (.new tickSize maxLevels) h.published (h.offered lib e))
        (some .start) events →
      ∀ h, events.foldl (stepOrEnd (KrakenFeedHandler.streamStep lib)) (some .start) = some h →
        HasUsableBook bytesOf (.new tickSize maxLevels) h.state h.published) ∧
    (∀ events, AllSteps (stepOrEnd (OkxFeedHandler.streamStep lib instrumentId))
    (fun o e => ∀ h ∈ o,
        OfferUsable bytesOf (.new tickSize maxLevels) h.published
          (OkxFeedHandler.offered lib instrumentId e)) (some {}) events →
      ∀ h, events.foldl (stepOrEnd (OkxFeedHandler.streamStep lib instrumentId)) (some {}) =
        some h →
        HasUsableBook bytesOf (.new tickSize maxLevels) h.state h.published) ∧
    ∀ events, AllSteps (CoinbaseFeedHandler.EventLoop.step lib) (fun c e => OfferUsable bytesOf
        (.new tickSize maxLevels) c.handler.published (c.offered lib e)) .start events →
      HasUsableBook bytesOf (.new tickSize maxLevels)
        (events.foldl (CoinbaseFeedHandler.EventLoop.step lib) .start).handler.state
        (events.foldl (CoinbaseFeedHandler.EventLoop.step lib) .start).handler.published :=
  ⟨fun _ hoffers _ hrun => BinanceFeedHandler.Sync.hasUsableBook hoffers hrun,
    fun _ hoffers _ hrun => KrakenFeedHandler.hasUsableBook hoffers hrun,
    fun _ hoffers _ hrun => OkxFeedHandler.hasUsableBook hoffers hrun,
    fun _ hoffers => CoinbaseFeedHandler.EventLoop.hasUsableBook hoffers⟩

/-- The witness run: an OKX handler, a snapshot and an update. -/
theorem streaming_usable_linked : ∃ h, (OkxFeedHandler.linkEvents [0, 1]).foldl
      (stepOrEnd (OkxFeedHandler.streamStep OkxFeedHandler.linkLibrary "BTC-USDT".toList))
      (some {}) = some h ∧
    h.state = .streaming ∧ HasUsableBook (fun _ => []) (.new 1 16) h.state h.published :=
  ⟨_, rfl, rfl, (streaming_usable OkxFeedHandler.linkLibrary "BTC-USDT".toList (fun _ => []) 1
    16).2.2.1 (OkxFeedHandler.linkEvents [0, 1]) (by decide +kernel) _ rfl⟩

/-! ### A snapshot that only the handler accepts -/

/-- A crossed snapshot, with the bid at 11 and the ask at 9, and an update. -/
def crossedTexts : List (CString × Json) :=
  [("\x7b\"action\":\"snapshot\",\"data\":[\x7b\"asks\":[[\"9\",\"1\"]],\"bids\":[[\"11\",\"1\"]]\x7d]\x7d".toList,
    .object [("action".toList, .string "snapshot".toList),
      ("arg".toList, .object [("channel".toList, .string "books".toList),
        ("instId".toList, .string "BTC-USDT".toList)]),
      ("data".toList, .array [.object [
        ("asks".toList, .array [.array [.string "9".toList, .string "1".toList]]),
        ("bids".toList, .array [.array [.string "11".toList, .string "1".toList]]),
        ("prevSeqId".toList, .integer (-1)), ("seqId".toList, .unsigned 10)]])]),
   (OkxFeedHandler.booksText "update".toList "2".toList "12".toList "10".toList,
    OkxFeedHandler.booksJson "update".toList "2".toList (.unsigned 12) (.unsigned 10))]

/-- The library on these texts. -/
def crossedLibrary : FeedLibrary :=
  .ofTables crossedTexts [("9".toList, 9), ("11".toList, 11), ("1".toList, 1), ("2".toList, 2)]

/-- The OKX handler streams behind the crossed snapshot, while the book has refused it and refuses
the deltas of the update. -/
theorem crossed_streams : ∃ h, (crossedTexts.map fun text => .message text.1).foldl
      (stepOrEnd (OkxFeedHandler.streamStep crossedLibrary "BTC-USDT".toList)) (some {}) = some h ∧
    h.state = .streaming ∧ (bookAfter (fun _ => []) (.new 1 16) h.published).initialized = false ∧
    ¬ FromLatest (fun _ => []) (.new 1 16) h.published ∧
    ¬ AtEach (NotRefused (fun _ => []) (.new 1 16)) h.published := by
  have hbook : (bookAfter (fun _ => []) (.new 1 16)
    [.snapshot ⟨10, [⟨11, 1, 0⟩], [⟨9, 1, 0⟩], 0, false⟩,
      .delta ⟨.bid, 9, 2, 0, 12⟩, .delta ⟨.ask, 11, 1, 0, 12⟩]).initialized = false := by
    decide +kernel
  refine ⟨_, rfl, rfl, hbook, ?_, fun happlied => ?_⟩
  · rintro ⟨-, -, -, -, -, -, hinit⟩
    exact absurd (hbook.symm.trans hinit) (by decide)
  · exact absurd (happlied [_] _ _ rfl _ rfl) (by decide +kernel)

end TradingInfrastructure
