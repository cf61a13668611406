import TradingInfrastructure.Feeds.OkxFeedHandler
import TradingInfrastructure.Foundations.Runs
import TradingInfrastructure.OrderBook.Acceptance

/-!
# Integrity of the OKX stream

An update is checked three times: its link to the one before it, its checksum, and by the book its
sequence. The first two are the handler's, on both of its paths, and hold for everything it
delivers. The third is not: a link that is right lets the sequence go back, and the book then drops
the update as stale.

So the delivered sequences go forward in the runs whose linked updates do (`Forward`), and when in
addition the book follows the snapshots, no delivered delta is dropped (`integrity_run`).
-/

namespace TradingInfrastructure

open OkxFeed

namespace OkxFeedHandler

variable {lib : FeedLibrary} {bytesOf : ℚ → List UInt8} {b₀ : OrderBook}
variable {h h' : OkxFeedHandler} {data : Json} {seq : UInt64} {instrumentId message : CString}

/-! ## The property -/

/-- The sequence of a delivery. -/
def sequenceOf : Delivery → Option UInt64
  | .snapshot seq _ => some seq
  | .update u => some u.seq
  | .trade _ => none

/-- The sequence of the last delivered update or snapshot. -/
def lastDelivered (deliveries : List Delivery) : Option UInt64 :=
  (deliveries.filterMap sequenceOf).getLast?

/-- What holds of an update delivered behind the others: a link names the sequence delivered last, a
checksum is that of the local book, and the sequence does not go back. -/
structure Sound (before : List Delivery) (u : Update) : Prop where
  link : ∀ prev, u.data.sequenceAt "prevSeqId".toList = .ok prev → prev ≠ 0 →
    lastDelivered before = some prev
  checksum : ∀ remote, remoteChecksum u.data = .ok (some remote) → localChecksum u.book = remote
  forward : ∀ last, lastDelivered before = some last → last ≤ u.seq

/-- The same of any delivery. -/
def SoundDelivery (before : List Delivery) (delivery : Delivery) : Prop :=
  ∀ u, delivery = .update u → Sound before u

/-- The book does not pass over a call as a stale delta. -/
def NotStale (bytesOf : ℚ → List UInt8) (b₀ : OrderBook) (before : List Publication)
    (call : Publication) : Prop :=
  ∀ d, call = .delta d → (bookAfter bytesOf b₀ before).stale d = false

/-! ## Runs -/

/-- A message, or a new connection. -/
inductive StreamEvent
  | message (text : CString)
  | established

/-- One step. -/
def streamStep (lib : FeedLibrary) (instrumentId : CString) (h : OkxFeedHandler) :
    StreamEvent → Except CxxException OkxFeedHandler
  | .message text => return (← h.processMessage lib instrumentId text).2
  | .established => .ok h.established

/-- The snapshot that `process_snapshot` makes of a message. -/
def snapshotIn (lib : FeedLibrary) (json : Json) : Option Snapshot :=
  (dataOf json).bind fun book =>
    (do readSnapshot lib book (← book.sequenceAt "seqId".toList) :
    Except CxxException Snapshot).toOption

/-- The book takes the snapshot, or is not beyond it already. -/
def Follows (bytesOf : ℚ → List UInt8) (b : OrderBook) (s : Snapshot) : Prop :=
  b.Takes bytesOf s ∨ b.sequence ≤ s.sequence

instance (bytesOf : ℚ → List UInt8) (b : OrderBook) (s : Snapshot) :
    Decidable (Follows bytesOf b s) :=
  inferInstanceAs (Decidable (_ ∨ _))

/-- The condition on a step: an update whose link is right does not go back, and the book follows a
snapshot. -/
def Forward (lib : FeedLibrary) (instrumentId : CString) (bytesOf : ℚ → List UInt8)
    (b₀ : OrderBook) (h : OkxFeedHandler) : StreamEvent → Prop
  | .established => True
  | .message text =>
    match readMessage lib instrumentId text with
    | .ok (.update _ seq prevSeq) =>
      h.state = .streaming → prevSeq ≠ 0 → prevSeq = h.lastSequence → h.lastSequence ≤ seq
    | .ok (.snapshot json) =>
      ∀ s ∈ snapshotIn lib json, Follows bytesOf (bookAfter bytesOf b₀ h.published) s
    | _ => True

instance (h : OkxFeedHandler) (e : StreamEvent) :
    Decidable (Forward lib instrumentId bytesOf b₀ h e) := by
  unfold Forward
  split
  · exact isTrue trivial
  · split <;> infer_instance

/-! ## The invariant -/

/-- The handler stands at the sequence it delivered last, and the book is not beyond it. -/
structure Anchored (bytesOf : ℚ → List UInt8) (b₀ : OrderBook) (h : OkxFeedHandler) : Prop where
  last : lastDelivered h.delivered = some h.lastSequence
  book : (bookAfter bytesOf b₀ h.published).sequence ≤ h.lastSequence.toNat

/-- Everything delivered so far is sound. -/
structure Checked (bytesOf : ℚ → List UInt8) (b₀ : OrderBook) (h : OkxFeedHandler) : Prop where
  sound : AtEach SoundDelivery h.delivered
  fresh : AtEach (NotStale bytesOf b₀) h.published

/-- What holds in every reachable state. -/
structure Integral (bytesOf : ℚ → List UInt8) (b₀ : OrderBook) (h : OkxFeedHandler) : Prop where
  checked : Checked bytesOf b₀ h
  anchored : h.state = .streaming → Anchored bytesOf b₀ h

/-! ## The spec of each function -/

theorem emitLevels_sequence {side : Side} {levels : List Json} {deltas : List Delta}
    (hemit : emitLevels lib seq side levels = .ok deltas) :
    ∀ d ∈ deltas, d.sequence = seq.toNat := by
  induction levels generalizing deltas with
  | nil =>
    cases hemit
    exact fun d hd => absurd hd List.not_mem_nil
  | cons level rest ih =>
    rw [emitLevels] at hemit
    split at hemit
    · exact ih hemit
    · obtain ⟨delta, hdelta, hrest⟩ := of_bind_eq_ok hemit
      obtain ⟨others, hothers, hdeltas⟩ := of_bind_eq_ok hrest
      cases hdeltas
      intro d hd
      obtain rfl | hd := List.mem_cons.mp hd
      · rw [parseDelta] at hdelta
        obtain ⟨price, -, hdelta⟩ := of_bind_eq_ok hdelta
        obtain ⟨size, -, hdelta⟩ := of_bind_eq_ok hdelta
        obtain ⟨orderCount, -, hdelta⟩ := of_bind_eq_ok hdelta
        cases hdelta
        rfl
      · exact ih hothers d hd

/-- What `process_delta` does. -/
theorem processDelta_spec (hrun : h.processDelta lib data seq = .ok h') :
    ∃ book deltas, applyLocalBookLevels lib h.book data = .ok book ∧
      (∀ d ∈ deltas, d.sequence = seq.toNat) ∧ h' = { h with
        lastSequence := seq
        book := book
        delivered := h.delivered ++ [.update ⟨data, seq, deltas, book⟩] } := by
  rw [processDelta] at hrun
  obtain ⟨book, hbook, hrun⟩ := of_bind_eq_ok hrun
  obtain ⟨bidLevels, -, hrun⟩ := of_bind_eq_ok hrun
  obtain ⟨bids, hbids, hrun⟩ := of_bind_eq_ok hrun
  obtain ⟨askLevels, -, hrun⟩ := of_bind_eq_ok hrun
  obtain ⟨asks, hasks, hrun⟩ := of_bind_eq_ok hrun
  cases hrun
  refine ⟨book, bids ++ asks, hbook, fun d hd => ?_, rfl⟩
  exact (List.mem_append.mp hd).elim (emitLevels_sequence hbids d) (emitLevels_sequence hasks d)

/-- A checksum that passes is the one of the book that `process_delta` makes. -/
theorem validateChecksum_spec {book : LocalBook} {remote : ℤ}
    (hvalid : h.validateChecksum lib data = .ok true)
    (hbook : applyLocalBookLevels lib h.book data = .ok book)
    (hremote : remoteChecksum data = .ok (some remote)) : localChecksum book = remote := by
  rw [validateChecksum, hremote] at hvalid
  obtain ⟨_, hread, hvalid⟩ := of_bind_eq_ok hvalid
  cases hread
  obtain ⟨book', hbook', hsum⟩ := of_bind_eq_ok hvalid
  cases hbook.symm.trans hbook'
  exact of_decide_eq_true (Except.ok.inj hsum)

/-! ## Calls and the book -/

/-- Deltas at a sequence that the book has not passed are not stale, one after the other. -/
theorem fresh_deltas {calls : List Publication} {deltas : List Delta} {n : ℕ}
    (hfresh : AtEach (NotStale bytesOf b₀) calls)
    (hbook : (bookAfter bytesOf b₀ calls).sequence ≤ n) (hseq : ∀ d ∈ deltas, d.sequence = n) :
    AtEach (NotStale bytesOf b₀) (calls ++ deltas.map .delta) ∧
      (bookAfter bytesOf b₀ (calls ++ deltas.map .delta)).sequence ≤ n := by
  induction deltas generalizing calls with
  | nil =>
    rw [List.map_nil, List.append_nil]
    exact ⟨hfresh, hbook⟩
  | cons d rest ih =>
    have hd : d.sequence = n := hseq d List.mem_cons_self
    rw [List.map_cons, ← List.singleton_append, ← List.append_assoc]
    apply ih
    · refine atEach_concat.mpr ⟨hfresh, ?_⟩
      rintro d' ⟨⟩
      rw [OrderBook.stale, Bool.and_eq_false_iff, decide_eq_false_iff_not, decide_eq_false_iff_not]
      right
      omega
    · rw [bookAfter_append]
      have hstep : (bookAfter bytesOf (bookAfter bytesOf b₀ calls) [.delta d])
          = ((bookAfter bytesOf b₀ calls).applyDelta d).2 := rfl
      rw [hstep]
      obtain hkept | hset := @OrderBook.applyDelta_sequence (bookAfter bytesOf b₀ calls) d
      · exact hkept.trans_le hbook
      · exact (hset.trans hd).le
    · exact fun d' hd' => hseq d' (List.mem_cons_of_mem d hd')

/-! ## Each path keeps the invariant -/

theorem lastDelivered_concat {deliveries : List Delivery} {delivery : Delivery}
    (hseq : sequenceOf delivery = some seq) :
    lastDelivered (deliveries ++ [delivery]) = some seq := by
  rw [lastDelivered, List.filterMap_append, List.filterMap_cons_some hseq, List.filterMap_nil,
    List.getLast?_concat]

theorem published_concat {delivery : Delivery}
    (hdelivered : h'.delivered = h.delivered ++ [delivery]) :
    h'.published = h.published ++ delivery.calls := by
  rw [published, hdelivered, List.flatMap_append, List.flatMap_singleton, published]

/-- A right link, with the sequence it allows. -/
theorem forward_of_validate {prevSeq : UInt64}
    (hvalid : h.validateDeltaSequence seq prevSeq = true) :
    (prevSeq ≠ 0 → prevSeq = h.lastSequence) ∧ (prevSeq = 0 → h.lastSequence ≤ seq) := by
  rw [validateDeltaSequence] at hvalid
  split_ifs at hvalid with hprev
  · exact ⟨fun _ => of_decide_eq_true hvalid, fun hzero => absurd hzero hprev⟩
  · exact ⟨fun hne => absurd hne hprev, fun _ => UInt64.le_of_lt (of_decide_eq_true hvalid)⟩

/-- **An update that passes the link and the checksum and does not go back is sound.** -/
theorem Checked.processDelta {prevSeq : UInt64} (hc : Checked bytesOf b₀ h)
    (ha : Anchored bytesOf b₀ h) (hprev : data.sequenceAt "prevSeqId".toList = .ok prevSeq)
    (hlink : h.validateDeltaSequence seq prevSeq = true)
    (hsum : h.validateChecksum lib data = .ok true) (hforward : h.lastSequence ≤ seq)
    (hrun : h.processDelta lib data seq = .ok h') :
    Checked bytesOf b₀ h' ∧ Anchored bytesOf b₀ h' ∧ h'.state = h.state := by
  obtain ⟨book, deltas, hbook, hseq, rfl⟩ := processDelta_spec hrun
  have hsound : Sound h.delivered ⟨data, seq, deltas, book⟩ := {
    link := fun prev hread hne => by
      cases hprev.symm.trans hread
      rw [(forward_of_validate hlink).1 hne]
      exact ha.last
    checksum := fun remote hremote => validateChecksum_spec hsum hbook hremote
    forward := fun last hlast => by
      cases ha.last.symm.trans hlast
      exact hforward }
  obtain ⟨hfresh, hbookSeq⟩ := fresh_deltas hc.fresh
    (ha.book.trans (UInt64.le_iff_toNat_le.mp hforward)) hseq
  have hpublished := @published_concat h { h with
    lastSequence := seq
    book := book
    delivered := h.delivered ++ [.update ⟨data, seq, deltas, book⟩] } _ rfl
  refine ⟨⟨atEach_concat.mpr ⟨hc.sound, ?_⟩, ?_⟩, ⟨lastDelivered_concat rfl, ?_⟩, rfl⟩
  · rintro u ⟨⟩
    exact hsound
  · rw [hpublished]
    exact hfresh
  · rw [hpublished]
    exact hbookSeq

/-- The replay passes over what would go back. -/
theorem Checked.replayDeltas {messages : List CString} {done : Bool} (hc : Checked bytesOf b₀ h)
    (ha : Anchored bytesOf b₀ h) (hrun : h.replayDeltas lib messages = .ok (done, h')) :
    Checked bytesOf b₀ h' ∧ Anchored bytesOf b₀ h' := by
  induction messages generalizing h with
  | nil =>
    cases hrun
    exact ⟨hc, ha⟩
  | cons message rest ih =>
    rw [OkxFeedHandler.replayDeltas] at hrun
    split at hrun
    · exact ih hc ha hrun
    · obtain ⟨seq, -, hrun⟩ := of_bind_eq_ok hrun
      obtain ⟨prevSeq, hprev, hrun⟩ := of_bind_eq_ok hrun
      split_ifs at hrun with hskip hlink
      · exact ih hc ha hrun
      · cases hrun
        exact ⟨hc, ha⟩
      · obtain ⟨valid, hsum, hrun⟩ := of_bind_eq_ok hrun
        split_ifs at hrun with hvalid
        · cases hrun
          exact ⟨hc, ha⟩
        · obtain ⟨h₁, hdelta, hrun⟩ := of_bind_eq_ok hrun
          rw [Bool.not_eq_true', Bool.not_eq_false] at hlink hvalid
          subst hvalid
          obtain ⟨hc₁, ha₁, -⟩ := hc.processDelta ha hprev hlink hsum
            (UInt64.le_of_lt (UInt64.not_le.mp hskip)) hdelta
          exact ih hc₁ ha₁ hrun

/-- Clearing fields that the property is not about. -/
theorem Integral.of_buffering (hc : Checked bytesOf b₀ h)
    (hdelivered : h'.delivered = h.delivered) (hstate : h'.state = .buffering) :
    Integral bytesOf b₀ h' where
  checked := by
    have hpublished : h'.published = h.published :=
      congrArg (List.flatMap Delivery.calls) hdelivered
    exact ⟨hdelivered ▸ hc.sound, hpublished ▸ hc.fresh⟩
  anchored := fun hstreaming => by
    rw [hstate] at hstreaming
    cases hstreaming

/-- A snapshot that the book follows anchors the handler. -/
theorem Checked.acceptSnapshot {book : Json} {snap : Snapshot} {result : Result}
    (hc : Checked bytesOf b₀ h) (hsnap : snap.sequence = seq.toNat)
    (hfollows : Follows bytesOf (bookAfter bytesOf b₀ h.published) snap)
    (hrun : h.acceptSnapshot lib book seq snap = .ok (result, h')) : Integral bytesOf b₀ h' := by
  rw [OkxFeedHandler.acceptSnapshot] at hrun
  obtain ⟨local_, -, hrun⟩ := of_bind_eq_ok hrun
  set applied : OkxFeedHandler := { h with
    book := local_
    lastSequence := seq
    delivered := h.delivered ++ [.snapshot seq snap] } with happlied
  have hpublished : applied.published = h.published ++ [.snapshot snap] :=
    @published_concat h applied (.snapshot seq snap) rfl
  have hc₁ : Checked bytesOf b₀ applied := by
    refine ⟨atEach_concat.mpr ⟨hc.sound, fun u heq => by cases heq⟩, ?_⟩
    rw [hpublished]
    exact atEach_concat.mpr ⟨hc.fresh, fun d heq => by cases heq⟩
  have ha₁ : Anchored bytesOf b₀ applied := by
    refine ⟨lastDelivered_concat rfl, ?_⟩
    rw [hpublished, bookAfter_append]
    have hstep : bookAfter bytesOf (bookAfter bytesOf b₀ h.published) [.snapshot snap]
        = ((bookAfter bytesOf b₀ h.published).applySnapshot bytesOf snap).2 := rfl
    rw [hstep]
    by_cases htakes : (bookAfter bytesOf b₀ h.published).Takes bytesOf snap
    · rw [OrderBook.applySnapshot_sequence htakes, hsnap]
    · rw [OrderBook.applySnapshot_of_not_takes htakes]
      exact (hfollows.resolve_left htakes).trans_eq hsnap
  obtain ⟨⟨done, h₂⟩, hbuffer, hrun⟩ := of_bind_eq_ok hrun
  rw [applyBufferedDeltas] at hbuffer
  obtain ⟨⟨done', h₃⟩, hreplay, hbuffer⟩ := of_bind_eq_ok hbuffer
  cases hbuffer
  obtain ⟨hc₃, ha₃⟩ := hc₁.replayDeltas ha₁ hreplay
  cases done with
  | true =>
    cases hrun
    exact ⟨⟨hc₃.sound, hc₃.fresh⟩, fun _ => ⟨ha₃.last, ha₃.book⟩⟩
  | false =>
    cases hrun
    exact .of_buffering hc₃ rfl rfl

theorem readSnapshot_sequence {book : Json} {snap : Snapshot}
    (hread : readSnapshot lib book seq = .ok snap) : snap.sequence = seq.toNat := by
  rw [readSnapshot] at hread
  obtain ⟨bids, -, hread⟩ := of_bind_eq_ok hread
  obtain ⟨asks, -, hread⟩ := of_bind_eq_ok hread
  cases hread
  rfl

theorem Checked.processSnapshot {json : Json} {result : Result} (hc : Checked bytesOf b₀ h)
    (hfollows : ∀ s ∈ snapshotIn lib json, Follows bytesOf (bookAfter bytesOf b₀ h.published) s)
    (hrun : h.processSnapshot lib json = .ok (result, h')) : Integral bytesOf b₀ h' := by
  rw [OkxFeedHandler.processSnapshot] at hrun
  split at hrun
  · cases hrun
    exact .of_buffering hc rfl rfl
  · next book hbook =>
    obtain ⟨seq, hseq, hrun⟩ := of_bind_eq_ok hrun
    obtain ⟨snap, hsnap, hrun⟩ := of_bind_eq_ok hrun
    split_ifs at hrun
    · cases hrun
      exact .of_buffering hc rfl rfl
    · refine hc.acceptSnapshot (readSnapshot_sequence hsnap) (hfollows snap ?_) hrun
      rw [snapshotIn, hbook, Option.bind_some, hseq]
      exact congrArg Except.toOption hsnap

theorem Integral.processUpdate {prevSeq : UInt64} {result : Result} (hi : Integral bytesOf b₀ h)
    (hprev : data.sequenceAt "prevSeqId".toList = .ok prevSeq)
    (hforward : h.state = .streaming → prevSeq ≠ 0 → prevSeq = h.lastSequence →
      h.lastSequence ≤ seq)
    (hrun : h.processUpdate lib message data seq prevSeq = .ok (result, h')) :
    Integral bytesOf b₀ h' := by
  rw [OkxFeedHandler.processUpdate] at hrun
  split_ifs at hrun with hstate hroom hlink
  · cases hrun
    exact ⟨⟨hi.checked.sound, hi.checked.fresh⟩, fun hstreaming => absurd hstreaming hstate⟩
  · cases hrun
    exact .of_buffering hi.checked rfl rfl
  · cases hrun
    exact .of_buffering hi.checked rfl rfl
  · rw [not_not] at hstate
    rw [Bool.not_eq_true', Bool.not_eq_false] at hlink
    obtain ⟨valid, hsum, hrun⟩ := of_bind_eq_ok hrun
    split_ifs at hrun with hvalid
    · cases hrun
      exact .of_buffering hi.checked rfl rfl
    · rw [Bool.not_eq_true', Bool.not_eq_false] at hvalid
      subst hvalid
      obtain ⟨h₁, hdelta, hrun⟩ := of_bind_eq_ok hrun
      cases hrun
      obtain ⟨hlinked, hzero⟩ := forward_of_validate hlink
      have hle : h.lastSequence ≤ seq := by
        by_cases hne : prevSeq = 0
        · exact hzero hne
        · exact hforward hstate hne (hlinked hne)
      obtain ⟨hc₁, ha₁, -⟩ :=
        hi.checked.processDelta (hi.anchored hstate) hprev hlink hsum hle hdelta
      exact ⟨hc₁, fun _ => ha₁⟩

/-- Trades say nothing about the book. -/
theorem Integral.trades {trades : List TradeFlow} (hi : Integral bytesOf b₀ h) :
    Integral bytesOf b₀ { h with delivered := h.delivered ++ trades.map .trade } := by
  induction trades generalizing h with
  | nil =>
    rw [List.map_nil, List.append_nil]
    exact hi
  | cons t rest ih =>
    set h₁ : OkxFeedHandler := { h with delivered := h.delivered ++ [.trade t] } with hh₁
    have hpublished : h₁.published = h.published ++ [.trade t] :=
      @published_concat h h₁ (.trade t) rfl
    have hi₁ : Integral bytesOf b₀ h₁ := by
      refine ⟨⟨atEach_concat.mpr ⟨hi.checked.sound, fun u heq => by cases heq⟩, ?_⟩,
        fun hstreaming => ⟨?_, ?_⟩⟩
      · rw [hpublished]
        exact atEach_concat.mpr ⟨hi.checked.fresh, fun d heq => by cases heq⟩
      · rw [lastDelivered, hh₁, List.filterMap_append]
        exact (congrArg List.getLast? (List.append_nil _)).trans (hi.anchored hstreaming).last
      · rw [hpublished, bookAfter_append]
        exact (hi.anchored hstreaming).book
    have hrest := ih hi₁
    rw [hh₁] at hrest
    simpa only [List.map_cons, List.append_assoc, List.singleton_append] using hrest

theorem readMessage_update {prevSeq : UInt64}
    (hread : readMessage lib instrumentId message = .ok (.update data seq prevSeq)) :
    data.sequenceAt "prevSeqId".toList = .ok prevSeq := by
  have hbooks : ∀ json, readBooks json = .ok (.update data seq prevSeq) →
      data.sequenceAt "prevSeqId".toList = .ok prevSeq := by
    intro json hread
    rw [readBooks] at hread
    split_ifs at hread
    · cases hread
    · split at hread
      · cases hread
      · obtain ⟨seq', -, hread⟩ := of_bind_eq_ok hread
        obtain ⟨prev', hprev, hread⟩ := of_bind_eq_ok hread
        cases hread
        exact hprev
  unfold readMessage at hread
  split at hread
  · cases hread
  · next json _ =>
    split_ifs at hread
    · obtain ⟨_, -, hread⟩ := of_bind_eq_ok hread
      cases hread
    · split at hread
      · split_ifs at hread
        · split at hread <;> cases hread
        · exact hbooks json hread
        · cases hread
      · cases hread

/-- **One step keeps the invariant.** -/
theorem Integral.step {e : StreamEvent} (hi : Integral bytesOf b₀ h)
    (hforward : Forward lib instrumentId bytesOf b₀ h e)
    (hstep : streamStep lib instrumentId h e = .ok h') : Integral bytesOf b₀ h' := by
  cases e with
  | established =>
    cases hstep
    exact .of_buffering hi.checked rfl rfl
  | message text =>
    obtain ⟨⟨result, h₁⟩, hrun, hstep⟩ := of_bind_eq_ok hstep
    cases hstep
    obtain ⟨incoming, hread, hrun⟩ := of_bind_eq_ok hrun
    rw [Forward, hread] at hforward
    cases incoming with
    | ignored =>
      cases hrun
      exact hi
    | error =>
      cases hrun
      exact .of_buffering hi.checked rfl rfl
    | trades trades =>
      cases hrun
      exact hi.trades
    | snapshot json => exact hi.checked.processSnapshot hforward hrun
    | update data seq prevSeq => exact hi.processUpdate (readMessage_update hread) hforward hrun

/-- **The integrity of the stream.** In a run whose linked updates do not go back and whose
snapshots the book follows, every delivered update is linked, has the right checksum and does not
go back, and the book passes over no delivered delta as stale. -/
theorem integrity_run (lib : FeedLibrary) (instrumentId : CString) (bytesOf : ℚ → List UInt8)
    (tickSize : ℚ) (maxLevels : ℕ) (events : List StreamEvent)
    (hforward : AllSteps (stepOrEnd (streamStep lib instrumentId))
      (fun o e => ∀ h ∈ o, Forward lib instrumentId bytesOf (.new tickSize maxLevels) h e)
      (some {}) events) :
    ∀ h, events.foldl (stepOrEnd (streamStep lib instrumentId)) (some {}) = some h →
      AtEach SoundDelivery h.delivered ∧
        AtEach (NotStale bytesOf (.new tickSize maxLevels)) h.published := by
  intro h hrun
  have hstart : Integral bytesOf (.new tickSize maxLevels) {} :=
    ⟨⟨atEach_nil, atEach_nil⟩, fun hstreaming => by cases hstreaming⟩
  obtain ⟨⟨hsound, hfresh⟩, -⟩ := hforward.foldl_stepOrEnd
    (fun h e h' hi hf hstep => Integral.step hi hf hstep) hstart hrun
  exact ⟨hsound, hfresh⟩

/-! ### A link that goes back -/

/-- A message of the channel `books` with one level a side. -/
def booksJson (action : CString) (bidSize : CString) (seqId prevSeqId : Json) : Json :=
  .object [("action".toList, .string action),
    ("arg".toList, .object [("channel".toList, .string "books".toList),
      ("instId".toList, .string "BTC-USDT".toList)]),
    ("data".toList, .array [.object [
      ("asks".toList, .array [.array [.string "11".toList, .string "1".toList]]),
      ("bids".toList, .array [.array [.string "9".toList, .string bidSize]]),
      ("prevSeqId".toList, prevSeqId), ("seqId".toList, seqId)]])]

/-- The text of such a message, for its action, size and two sequences. -/
def booksText (action bidSize seqId prevSeqId : CString) : CString :=
  "\x7b\"arg\":\x7b\"channel\":\"books\",\"instId\":\"BTC-USDT\"\x7d,\"action\":\"".toList ++ action ++
    "\",\"data\":[\x7b\"asks\":[[\"11\",\"1\"]],\"bids\":[[\"9\",\"".toList ++ bidSize ++
    "\"]],\"seqId\":".toList ++ seqId ++ ",\"prevSeqId\":".toList ++ prevSeqId ++ "\x7d]\x7d".toList

/-- A snapshot at 10, an update from 10 to 12, and an update from 10 to 5. -/
def linkTexts : List (CString × Json) :=
  [(booksText "snapshot".toList "1".toList "10".toList "-1".toList,
      booksJson "snapshot".toList "1".toList (.unsigned 10) (.integer (-1))),
    (booksText "update".toList "2".toList "12".toList "10".toList,
      booksJson "update".toList "2".toList (.unsigned 12) (.unsigned 10)),
    (booksText "update".toList "2".toList "5".toList "10".toList,
      booksJson "update".toList "2".toList (.unsigned 5) (.unsigned 10))]

/-- The library on these texts. -/
def linkLibrary : FeedLibrary :=
  .ofTables linkTexts [("9".toList, 9), ("11".toList, 11), ("1".toList, 1), ("2".toList, 2)]

/-- The messages with these numbers, on a new connection. -/
def linkEvents (indices : List ℕ) : List StreamEvent :=
  .established :: indices.map fun i => .message ((linkTexts.map Prod.fst).getD i [])

theorem integrity_linked : ∃ h, (linkEvents [0, 1]).foldl
      (stepOrEnd (streamStep linkLibrary "BTC-USDT".toList)) (some {}) = some h ∧
    AtEach SoundDelivery h.delivered ∧ AtEach (NotStale (fun _ => []) (.new 1 16)) h.published :=
  ⟨_, rfl, integrity_run linkLibrary "BTC-USDT".toList (fun _ => []) 1 16 (linkEvents [0, 1])
    (by decide +kernel) _ rfl⟩

/-- The update from 10 to 5 is delivered behind the snapshot, and the book passes over it. -/
theorem link_goes_back : ∃ h, (linkEvents [0, 2]).foldl
      (stepOrEnd (streamStep linkLibrary "BTC-USDT".toList)) (some {}) = some h ∧
    h.delivered.filterMap sequenceOf = [10, 5] ∧
    ¬ AtEach SoundDelivery h.delivered ∧
    ¬ AtEach (NotStale (fun _ => []) (.new 1 16)) h.published := by
  refine ⟨_, rfl, rfl, fun hsound => ?_, fun hfresh => ?_⟩
  · exact absurd ((hsound [_] _ [] rfl _ rfl).forward 10 rfl) (by decide)
  · exact absurd (hfresh [_] _ _ rfl _ rfl) (by decide +kernel)

end OkxFeedHandler

end TradingInfrastructure
