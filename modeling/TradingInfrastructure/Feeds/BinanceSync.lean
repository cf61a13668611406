import TradingInfrastructure.Feeds.BinanceReplay

/-!
# Synchronisation of the Binance stream

The event loop of the Binance handler takes a snapshot, replays the buffer and then streams, while
messages may arrive at any moment. Over any such run the depth messages delivered since the last
snapshot continue one another from its identifier on, whichever path delivered them
(`Synced.linked`), and after one that breaks the chain the handler delivers no depth message before
the next snapshot (`synced_run`).

The request to reconnect is different: the event loop takes it back when it leaves the streaming
loop, and again before it connects, both before the next snapshot.
-/

namespace TradingInfrastructure

open BinanceFeed

namespace BinanceFeedHandler

/-! ## Chains of depth messages -/

/-- Each message continues the sequence that the ones before it leave. -/
def Linked (last : UInt64) : List BufferedDelta → Prop
  | [] => True
  | d :: rest => Continues last d ∧ Linked d.lastUpdateId rest

/-- The sequence that a list of applied messages leaves. -/
def lastOf (last : UInt64) : List BufferedDelta → UInt64
  | [] => last
  | d :: rest => lastOf d.lastUpdateId rest

instance decidableLinked : ∀ last ds, Decidable (Linked last ds)
  | _, [] => isTrue trivial
  | _, d :: rest =>
    have := decidableLinked d.lastUpdateId rest
    inferInstanceAs (Decidable (_ ∧ _))

variable {h : BinanceFeedHandler} {d : BufferedDelta} {ds es rest : List BufferedDelta}
variable {last : UInt64}

theorem linked_append : Linked last (ds ++ es) ↔ Linked last ds ∧ Linked (lastOf last ds) es := by
  induction ds generalizing last with
  | nil => exact (and_iff_right trivial).symm
  | cons d rest ih => exact (and_congr_right fun _ => ih).trans and_assoc.symm

theorem lastOf_append : lastOf last (ds ++ es) = lastOf (lastOf last ds) es := by
  induction ds generalizing last with
  | nil => rfl
  | cons d rest ih => exact ih

/-- One delivery, on the last snapshot's sequence and the depth messages behind it. -/
def extendChain (chain : Option (UInt64 × List BufferedDelta)) :
    Delivery → Option (UInt64 × List BufferedDelta)
  | .snapshot s => some (UInt64.ofNat s.sequence, [])
  | .depth d => chain.map fun c => (c.1, c.2 ++ [d])
  | .trade _ => chain

/-- The sequence of the last snapshot and the depth messages delivered since. -/
def chain (h : BinanceFeedHandler) : Option (UInt64 × List BufferedDelta) :=
  h.delivered.foldl extendChain none

/-- The depth messages delivered. -/
def depths (h : BinanceFeedHandler) : List BufferedDelta :=
  h.delivered.filterMap Delivery.depth?

/-- The snapshots delivered. -/
def snapshots (h : BinanceFeedHandler) : List Snapshot :=
  h.delivered.filterMap Delivery.snapshot?

/-! ## The event loop -/

/-- Where `ws_event_loop` stands. -/
inductive SyncPhase
  /-- Asleep before the next connection. -/
  | waiting
  /-- Until the connection is established. -/
  | connecting
  /-- In the loop that fetches a snapshot. -/
  | snapshotting
  /-- Before `apply_buffered_deltas`. -/
  | replaying
  /-- In the streaming loop. -/
  | streaming
  deriving DecidableEq

/-- What can happen next: a message at any time, and the steps of the event loop. -/
inductive SyncEvent
  | message (text : CString)
  /-- A new turn of the loop, which clears the request to reconnect. -/
  | reconnect
  | established
  | connectFailed
  | snapshotReply (reply : SnapshotReply)
  | replay
  /-- The streaming loop ends, because of a request to reconnect or because the venue closed. -/
  | leave

/-- The steps of the event loop that take back a request to reconnect: the end of the streaming
loop, and the turn of the loop before a connection. -/
def SyncEvent.endsConnection : SyncEvent → Bool
  | .leave | .reconnect => true
  | _ => false

/-- The event loop with its handler. -/
structure Sync where
  handler : BinanceFeedHandler
  phase : SyncPhase

namespace Sync

/-- The state in which `start` leaves a new handler. -/
def start : Sync := ⟨{ state := .buffering }, .waiting⟩

/-- The end of the streaming loop. -/
def leaveStreaming (h : BinanceFeedHandler) : BinanceFeedHandler :=
  let h := { h with reconnectRequested := false }
  if h.state = .streaming then
    { h.triggerResnapshot "WebSocket disconnected".toList with reconnectRequested := false }
  else h

/-- Whether a snapshot reaches the head of the buffer. -/
def snapshotReady (h : BinanceFeedHandler) : Bool :=
  match h.deltaBuffer with
  | [] => true
  | d :: _ => d.firstUpdateId ≤ h.lastSequence

/-- The turn of the snapshot loop with this reply. -/
def takeSnapshot (lib : FeedLibrary) (bytesOf : ℚ → List UInt8) (c : Sync)
    (reply : SnapshotReply) : Except CxxException Sync := do
  let (result, handler) ← c.handler.processSnapshot lib bytesOf reply
  if result ≠ .success then return ⟨handler, .waiting⟩
  else if snapshotReady handler then return ⟨handler, .replaying⟩
  else return ⟨handler, .snapshotting⟩

/-- `apply_buffered_deltas`, and what the loop makes of its answer. -/
def replayBuffer (c : Sync) : Sync :=
  match c.handler.applyBufferedDeltas c.handler.lastSequence with
  | (.success, handler) => ⟨{ handler with state := .streaming }, .streaming⟩
  | (_, handler) => ⟨handler, .waiting⟩

/-- One step. A step of the event loop that is not the next one changes nothing. -/
def step (lib : FeedLibrary) (bytesOf : ℚ → List UInt8) (c : Sync) :
    SyncEvent → Except CxxException Sync
  | .message text => return { c with handler := (← c.handler.processMessage lib text).2 }
  | .reconnect =>
    if c.phase = .waiting then
      .ok ⟨{ c.handler with reconnectRequested := false }, .connecting⟩
    else .ok c
  | .established =>
    if c.phase = .connecting then
      .ok ⟨{ c.handler with state := .buffering, deltaBuffer := [] }, .snapshotting⟩
    else .ok c
  | .connectFailed => if c.phase = .connecting then .ok { c with phase := .waiting } else .ok c
  | .snapshotReply reply =>
    if c.phase = .snapshotting then c.takeSnapshot lib bytesOf reply else .ok c
  | .replay => if c.phase = .replaying then .ok c.replayBuffer else .ok c
  | .leave =>
    if c.phase = .streaming then .ok ⟨leaveStreaming c.handler, .waiting⟩ else .ok c

/-- A run. -/
def run (lib : FeedLibrary) (bytesOf : ℚ → List UInt8) (c : Sync) (events : List SyncEvent) :
    Except CxxException Sync :=
  events.foldlM (step lib bytesOf) c

end Sync

/-! ## What a message does to the handler -/

variable {h' : BinanceFeedHandler}

/-- The fields that the synchronisation is about: nothing changes, a trade or a depth message is
delivered, or a resynchronisation is triggered. -/
inductive Handled (h h' : BinanceFeedHandler) : Prop
  | kept (state : h'.state = h.state) (last : h'.lastSequence = h.lastSequence)
      (delivered : h'.delivered = h.delivered)
      (reconnect : h'.reconnectRequested = h.reconnectRequested)
  | traded (t : TradeFlow) (state : h'.state = h.state)
      (last : h'.lastSequence = h.lastSequence)
        (delivered : h'.delivered = h.delivered ++ [.trade t])
      (reconnect : h'.reconnectRequested = h.reconnectRequested)
  | applied (d : BufferedDelta) (streaming : h.state ≠ .buffering)
      (continues : Continues h.lastSequence d) (state : h'.state = h.state)
      (last : h'.lastSequence = d.lastUpdateId)
        (delivered : h'.delivered = h.delivered ++ [.depth d])
  | triggered (state : h'.state = .buffering) (last : h'.lastSequence = h.lastSequence)
      (delivered : h'.delivered = h.delivered) (reconnect : h'.reconnectRequested = true)

theorem bufferDelta_handled : Handled h (h.bufferDelta d).2 := by
  rw [bufferDelta]
  split_ifs
  · exact .triggered rfl rfl rfl rfl
  · exact .kept rfl rfl rfl rfl

theorem streamDelta_handled (hst : h.state ≠ .buffering) : Handled h (h.streamDelta d).2 := by
  by_cases hp : Passed h.lastSequence d
  · rw [streamDelta_passed hp]
    exact .kept rfl rfl rfl rfl
  · by_cases hc : Continues h.lastSequence d
    · rw [streamDelta_continues hp hc]
      exact .applied d hst hc rfl rfl rfl
    · rw [streamDelta_gap hp hc]
      exact .triggered rfl rfl rfl rfl

theorem handle_handled (incoming : Incoming) : Handled h (h.handle incoming).2 := by
  cases incoming with
  | ignored => exact .kept rfl rfl rfl rfl
  | trade t => exact .traded t rfl rfl rfl rfl
  | rejected result => exact .kept rfl rfl rfl rfl
  | depth d =>
    rw [handle]
    split_ifs with hst
    · exact bufferDelta_handled
    · exact streamDelta_handled hst

/-! ## What the replay does to the handler -/

/-- The replay delivers the messages of a chain; it goes through exactly when all of them are one,
and otherwise triggers a resynchronisation. -/
theorem replayDeltas_spec : ∃ es, (h.replayDeltas ds).2.delivered = h.delivered ++ es.map .depth ∧
    Linked h.lastSequence es ∧
    ((h.replayDeltas ds).1 = true ↔ Linked h.lastSequence ds) ∧
    ((h.replayDeltas ds).1 = true →
      (h.replayDeltas ds).2.lastSequence = lastOf h.lastSequence es) ∧
    ((h.replayDeltas ds).1 = false → (h.replayDeltas ds).2.state = .buffering ∧
      (h.replayDeltas ds).2.reconnectRequested = true) := by
  induction ds generalizing h with
  | nil => exact ⟨[], (List.append_nil _).symm, trivial, iff_of_true rfl trivial, fun _ => rfl,
      fun hfalse => by cases hfalse⟩
  | cons d rest ih =>
    rw [replayDeltas]
    by_cases hc : Continues h.lastSequence d
    · rw [validateDeltaSequence_iff.mpr hc]
      obtain ⟨es, hdelivered, hlinked, hiff, hlast, hfail⟩ := ih (h := h.applyDelta d)
      refine ⟨d :: es, ?_, ⟨hc, hlinked⟩, hiff.trans (and_iff_right hc).symm, hlast, hfail⟩
      rw [Bool.not_true, if_neg Bool.false_ne_true, hdelivered, List.map_cons, applyDelta,
        List.append_assoc, List.singleton_append]
    · rw [validateDeltaSequence_eq_false hc]
      exact ⟨[], (List.append_nil _).symm, trivial, by simp [Linked, hc],
        fun htrue => by simp at htrue, fun _ => ⟨rfl, rfl⟩⟩

/-- The messages of the buffer that the sequence has not reached at its start. -/
def pending (h : BinanceFeedHandler) : List BufferedDelta :=
  h.deltaBuffer.dropWhile (Passed h.lastSequence)

/-- What `apply_buffered_deltas` does on the sequence of the handler. -/
structure Replayed (h h' : BinanceFeedHandler) (result : Result) (es : List BufferedDelta) :
    Prop where
  delivered : h'.delivered = h.delivered ++ es.map .depth
  linked : Linked h.lastSequence es
  success_iff : result = .success ↔ Linked h.lastSequence h.pending
  last : result = .success → h'.lastSequence = lastOf h.lastSequence es
  triggered : result ≠ .success → h'.state = .buffering ∧ h'.reconnectRequested = true

theorem applyBufferedDeltas_replayed : ∃ es, Replayed h
    (h.applyBufferedDeltas h.lastSequence).2 (h.applyBufferedDeltas h.lastSequence).1 es := by
  have hpending : h.deltaBuffer.dropWhile (Passed h.lastSequence) = h.pending := rfl
  rw [applyBufferedDeltas, findSyncPoint_eq, hpending]
  cases hds : h.pending with
  | nil =>
    refine ⟨[], (List.append_nil _).symm, trivial, ?_, fun _ => rfl, fun hne => absurd rfl hne⟩
    rw [hds]
    exact iff_of_true rfl trivial
  | cons d rest =>
    by_cases hc : Continues h.lastSequence d
    · obtain ⟨es, hdelivered, hlinked, hiff, hlast, hfail⟩ := @replayDeltas_spec h (d :: rest)
      simp only [if_pos hc]
      cases hrun : h.replayDeltas (d :: rest) with
      | mk done h' =>
        rw [hrun] at hdelivered hiff hlast hfail
        cases done with
        | true =>
          refine ⟨es, hdelivered, hlinked, ?_, fun _ => hlast rfl, fun hne => absurd rfl hne⟩
          rw [hds]
          exact iff_of_true rfl (hiff.mp rfl)
        | false =>
          refine ⟨es, hdelivered, hlinked, ?_, (fun heq => by cases heq), fun _ => hfail rfl⟩
          rw [hds]
          exact iff_of_false (fun heq => by cases heq) (mt hiff.mpr Bool.false_ne_true)
    · simp only [if_neg hc]
      refine ⟨[], (List.append_nil _).symm, trivial, ?_, (fun heq => by cases heq),
        fun _ => ⟨rfl, rfl⟩⟩
      rw [hds]
      exact iff_of_false (fun heq => by cases heq) fun hlinked => hc hlinked.1

/-- What `process_snapshot` does: it fails and leaves the handler as it is, or delivers a snapshot
and takes over its sequence. -/
theorem processSnapshot_cases (lib : FeedLibrary) (bytesOf : ℚ → List UInt8)
    (h : BinanceFeedHandler) (reply : SnapshotReply) :
    (∃ result, result ≠ .success ∧ h.processSnapshot lib bytesOf reply = .ok (result, h)) ∨
    ∃ id snap, snap.sequence = id.toNat ∧ h.processSnapshot lib bytesOf reply =
      .ok (.success, { h with
      lastSequence := id
      delivered := h.delivered ++ [.snapshot snap] }) := by
  rw [processSnapshot]
  split_ifs
  · exact .inl ⟨_, by decide, rfl⟩
  · exact .inl ⟨_, by decide, rfl⟩
  · split
    · exact .inl ⟨_, by decide, rfl⟩
    · split
      · rename_i json _ _ id hid
        obtain ⟨snap, hsnap, hsequence⟩ : ∃ snap, readSnapshot lib json id = .ok snap ∧
            snap.sequence = id.toNat := by
          rw [readSnapshot, Json.valueArray_of_isObject (Json.isObject_of_find hid),
            Json.valueArray_of_isObject (Json.isObject_of_find hid)]
          refine ⟨_, rfl, ?_⟩
          split <;> rfl
        rw [hsnap]
        by_cases hsum : snap.checksumPresent ∧
            OrderBook.computeSnapshotChecksum bytesOf snap ≠ snap.checksum
        · exact .inl ⟨.errorBookCorrupted, by decide, congrArg Except.ok (if_pos hsum)⟩
        · by_cases hempty : snap.bids = [] ∨ snap.asks = []
          · exact .inl ⟨.errorBookCorrupted, by decide,
              congrArg Except.ok ((if_neg hsum).trans (if_pos hempty))⟩
          · exact .inr ⟨id, snap, hsequence,
              congrArg Except.ok ((if_neg hsum).trans (if_neg hempty))⟩
      · exact .inl ⟨_, by decide, rfl⟩

/-! ## Deliveries and chains -/

theorem chain_of_delivered {es : List Delivery} (hd : h'.delivered = h.delivered ++ es) :
    h'.chain = es.foldl extendChain h.chain := by
  rw [chain, hd, List.foldl_append]
  rfl

theorem foldl_extendChain_depths {s : UInt64} :
    (es.map Delivery.depth).foldl extendChain (some (s, ds)) = some (s, ds ++ es) := by
  induction es generalizing ds with
  | nil => rw [List.append_nil]; rfl
  | cons d rest ih =>
    refine (@ih (ds ++ [d])).trans ?_
    rw [List.append_assoc, List.singleton_append]

theorem chain_eq_of_delivered (hd : h'.delivered = h.delivered) : h'.chain = h.chain :=
  congrArg (List.foldl extendChain none) hd

theorem depths_eq_of_delivered (hd : h'.delivered = h.delivered) : h'.depths = h.depths :=
  congrArg (List.filterMap Delivery.depth?) hd

namespace Sync

variable {c c' c₁ c₂ : Sync} {lib : FeedLibrary} {bytesOf : ℚ → List UInt8} {e : SyncEvent}

/-! ## The invariant -/

/-- What holds in every reachable state. -/
structure Synced (c : Sync) : Prop where
  linked : ∀ s ds, c.handler.chain = some (s, ds) → Linked s ds
  streaming : c.handler.state = .streaming → c.phase = .streaming ∧
    ∃ s ds, c.handler.chain = some (s, ds) ∧ c.handler.lastSequence = lastOf s ds
  replaying : c.phase = .replaying → c.handler.chain = some (c.handler.lastSequence, [])
  connected : c.handler.state ≠ .disconnected

theorem synced_start : start.Synced where
  linked := fun s ds heq => by cases heq
  streaming := fun heq => by cases heq
  replaying := fun heq => by cases heq
  connected := fun heq => by cases heq

/-- A step that delivers nothing and does not start streaming. -/
theorem Synced.kept (hc : c.Synced) (hchain : c'.handler.chain = c.handler.chain)
    (hstate : c'.handler.state = .buffering) (hphase : c'.phase ≠ .replaying) : c'.Synced where
  linked := hchain ▸ hc.linked
  streaming := fun heq => by rw [hstate] at heq; cases heq
  replaying := fun heq => absurd heq hphase
  connected := fun heq => by rw [hstate] at heq; cases heq

/-- A step that changes none of the fields in question. -/
theorem Synced.congr (hc : c.Synced) (hchain : c'.handler.chain = c.handler.chain)
    (hstate : c'.handler.state = c.handler.state) (hphase : c'.phase = c.phase)
    (hlast : c'.handler.lastSequence = c.handler.lastSequence) : c'.Synced where
  linked := hchain ▸ hc.linked
  streaming := by rw [hstate, hphase, hchain, hlast]; exact hc.streaming
  replaying := by rw [hphase, hchain, hlast]; exact hc.replaying
  connected := hstate ▸ hc.connected

/-- The event loop is outside its streaming loop while the handler buffers. -/
theorem Synced.buffering (hc : c.Synced) (hphase : c.phase ≠ .streaming) :
    c.handler.state = .buffering := by
  cases hstate : c.handler.state with
  | buffering => rfl
  | streaming => exact absurd (hc.streaming hstate).1 hphase
  | disconnected => exact absurd hstate hc.connected

/-- A message keeps the invariant. -/
theorem Synced.handled (hc : c.Synced) (hh : Handled c.handler h') :
    Synced { c with handler := h' } := by
  cases hh with
  | kept hstate hlast hdelivered _ =>
    exact hc.congr (chain_eq_of_delivered hdelivered) hstate rfl hlast
  | traded t hstate hlast hdelivered _ =>
    exact hc.congr (chain_of_delivered hdelivered) hstate rfl hlast
  | triggered hstate hlast hdelivered _ =>
    exact {
      linked := chain_eq_of_delivered hdelivered ▸ hc.linked
      streaming := fun heq => by rw [hstate] at heq; cases heq
      replaying := fun hphase => by
        rw [hlast, chain_eq_of_delivered hdelivered]
        exact hc.replaying hphase
      connected := fun heq => by rw [hstate] at heq; cases heq }
  | applied d hst hcont hstate hlast hdelivered =>
    -- the handler streams, so that its chain ends at its sequence
    have hstreaming : c.handler.state = .streaming := by
      cases heq : c.handler.state with
      | streaming => rfl
      | buffering => exact absurd heq hst
      | disconnected => exact absurd heq hc.connected
    obtain ⟨hphase, s, ds, hchain, hlastOf⟩ := hc.streaming hstreaming
    have hchain' : h'.chain = some (s, ds ++ [d]) := by
      rw [chain_of_delivered hdelivered, hchain]
      rfl
    exact {
      linked := fun s' ds' heq => by
        rw [hchain'] at heq
        cases heq
        exact linked_append.mpr ⟨hc.linked s ds hchain, hlastOf ▸ hcont, trivial⟩
      streaming := fun _ => ⟨hphase, s, ds ++ [d], hchain', by rw [hlast, lastOf_append]; rfl⟩
      replaying := fun heq => by
        rw [hphase] at heq
        cases heq
      connected := fun heq => by
        rw [hstate, hstreaming] at heq
        cases heq }

/-- A snapshot keeps the invariant, and so does a failed attempt at one. -/
theorem Synced.takeSnapshot (hc : c.Synced) (hphase : c.phase = .snapshotting)
    (reply : SnapshotReply) : ∃ c', c.takeSnapshot lib bytesOf reply = .ok c' ∧ c'.Synced := by
  have hbuffering : c.handler.state = .buffering :=
    hc.buffering fun heq => by rw [hphase] at heq; cases heq
  rw [Sync.takeSnapshot]
  obtain ⟨result, hne, heq⟩ | ⟨id, snap, hsequence, heq⟩ :=
    processSnapshot_cases lib bytesOf c.handler reply
  · rw [heq]
    exact ⟨⟨c.handler, .waiting⟩, by simp [bind, Except.bind, hne, pure, Except.pure],
      hc.kept rfl hbuffering fun heq => by cases heq⟩
  · rw [heq]
    set h' : BinanceFeedHandler := { c.handler with
      lastSequence := id
      delivered := c.handler.delivered ++ [.snapshot snap] } with hh'
    have hchain : h'.chain = some (id, []) := by
      rw [chain_of_delivered (h := c.handler) rfl, List.foldl_cons, extendChain, hsequence,
        UInt64.ofNat_toNat]
      rfl
    have hsynced : ∀ phase, phase = .replaying ∨ phase = .snapshotting →
        Synced ⟨h', phase⟩ := fun phase _ => {
      linked := fun s ds heq => by
        rw [hchain] at heq
        cases heq
        trivial
      streaming := fun heq => by rw [hh', hbuffering] at heq; cases heq
      replaying := fun _ => hchain
      connected := fun heq => by rw [hh', hbuffering] at heq; cases heq }
    by_cases hready : snapshotReady h' = true
    · exact ⟨⟨h', .replaying⟩, by simp [bind, Except.bind, hready, pure, Except.pure],
        hsynced _ (.inl rfl)⟩
    · exact ⟨⟨h', .snapshotting⟩, by simp [bind, Except.bind, hready, pure, Except.pure],
        hsynced _ (.inr rfl)⟩

/-- The replay keeps the invariant. -/
theorem Synced.replayBuffer (hc : c.Synced) (hphase : c.phase = .replaying) :
    c.replayBuffer.Synced := by
  obtain ⟨es, hr⟩ := @applyBufferedDeltas_replayed c.handler
  have hchain : (c.handler.applyBufferedDeltas c.handler.lastSequence).2.chain
      = some (c.handler.lastSequence, es) := by
    rw [chain_of_delivered hr.delivered, hc.replaying hphase, foldl_extendChain_depths,
      List.nil_append]
  rw [Sync.replayBuffer]
  cases hrun : c.handler.applyBufferedDeltas c.handler.lastSequence with
  | mk result h' =>
    rw [hrun] at hr hchain
    have hlinked : ∀ s ds, h'.chain = some (s, ds) → Linked s ds := fun s ds heq => by
      rw [hchain] at heq
      cases heq
      exact hr.linked
    by_cases hsuccess : result = .success
    · subst hsuccess
      exact {
        linked := hlinked
        streaming := fun _ => ⟨rfl, _, es, hchain, hr.last rfl⟩
        replaying := fun heq => by cases heq
        connected := fun heq => by cases heq }
    · obtain ⟨hstate, -⟩ := hr.triggered hsuccess
      have hwaiting : Synced ⟨h', .waiting⟩ := {
        linked := hlinked
        streaming := fun heq => by rw [hstate] at heq; cases heq
        replaying := fun heq => by cases heq
        connected := fun heq => by rw [hstate] at heq; cases heq }
      cases result with
      | success => exact absurd rfl hsuccess
      | _ => exact hwaiting

/-- Leaving the streaming loop delivers nothing. -/
theorem leaveStreaming_delivered : (leaveStreaming h).delivered = h.delivered := by
  rw [leaveStreaming]
  dsimp only
  split_ifs <;> rfl

/-- After the streaming loop the handler buffers. -/
theorem leaveStreaming_state (hne : h.state ≠ .disconnected) :
    (leaveStreaming h).state = .buffering := by
  rw [leaveStreaming]
  cases hstate : h.state with
  | disconnected => exact absurd hstate hne
  | _ => rfl

/-- **One step keeps the invariant**, and is never cut short by an exception. -/
theorem Synced.step (hc : c.Synced) (e : SyncEvent) :
    ∃ c', c.step lib bytesOf e = .ok c' ∧ c'.Synced := by
  cases e with
  | message text =>
    obtain ⟨incoming, -, heq⟩ := processMessage_isOk lib c.handler text
    refine ⟨{ c with handler := (c.handler.handle incoming).2 }, ?_,
      hc.handled (handle_handled incoming)⟩
    rw [Sync.step, heq]
    rfl
  | reconnect =>
    rw [Sync.step]
    split_ifs with hphase
    · exact ⟨_, rfl, hc.kept rfl (hc.buffering (by simp [hphase])) (by simp)⟩
    · exact ⟨c, rfl, hc⟩
  | established =>
    rw [Sync.step]
    split_ifs with hphase
    · exact ⟨_, rfl, hc.kept rfl rfl (by simp)⟩
    · exact ⟨c, rfl, hc⟩
  | connectFailed =>
    rw [Sync.step]
    split_ifs with hphase
    · exact ⟨_, rfl, hc.kept rfl (hc.buffering (by simp [hphase])) (by simp)⟩
    · exact ⟨c, rfl, hc⟩
  | snapshotReply reply =>
    rw [Sync.step]
    split_ifs with hphase
    · exact hc.takeSnapshot hphase reply
    · exact ⟨c, rfl, hc⟩
  | replay =>
    rw [Sync.step]
    split_ifs with hphase
    · exact ⟨_, rfl, hc.replayBuffer hphase⟩
    · exact ⟨c, rfl, hc⟩
  | leave =>
    rw [Sync.step]
    split_ifs with hphase
    · exact ⟨_, rfl, hc.kept (chain_eq_of_delivered leaveStreaming_delivered)
        (leaveStreaming_state hc.connected) (by simp)⟩
    · exact ⟨c, rfl, hc⟩

/-! ## After a break -/

/-- The message breaks the chain: it is streamed, neither passed nor next; or it is among the
buffered messages that are replayed. -/
def Breaks (lib : FeedLibrary) (c : Sync) : SyncEvent → Prop
  | .message text => c.handler.state = .streaming ∧ ∃ d, IsDepth lib text d ∧
      ¬ Passed c.handler.lastSequence d ∧ ¬ Continues c.handler.lastSequence d
  | .replay => c.phase = .replaying ∧ ¬ Linked c.handler.lastSequence c.handler.pending
  | _ => False

/-- The handler waits for a snapshot. -/
structure Halted (c : Sync) : Prop where
  state : c.handler.state = .buffering
  phase : c.phase ≠ .replaying

/-- A message is read and handled. -/
theorem step_message {text : CString} (hstep : c.step lib bytesOf (.message text) = .ok c') :
    ∃ incoming, readMessage lib text = .ok incoming ∧
      c' = { c with handler := (c.handler.handle incoming).2 } := by
  obtain ⟨incoming, hread, heq⟩ := processMessage_isOk lib c.handler text
  rw [Sync.step, heq] at hstep
  cases hstep
  exact ⟨incoming, hread, rfl⟩

/-- A reply of the venue fails or delivers a snapshot, and only the phase changes besides. -/
theorem step_snapshotReply {reply : SnapshotReply}
    (hstep : c.takeSnapshot lib bytesOf reply = .ok c') :
    (c'.handler = c.handler ∧ c'.phase = .waiting) ∨
      ∃ snap, c'.handler.delivered = c.handler.delivered ++ [.snapshot snap] := by
  rw [Sync.takeSnapshot] at hstep
  obtain ⟨result, hne, heq⟩ | ⟨id, snap, -, heq⟩ :=
    processSnapshot_cases lib bytesOf c.handler reply
  · simp only [heq, bind, Except.bind, pure, Except.pure, if_pos hne] at hstep
    cases hstep
    exact .inl ⟨rfl, rfl⟩
  · right
    refine ⟨snap, ?_⟩
    simp only [heq, bind, Except.bind, pure, Except.pure, ne_eq, not_true_eq_false, if_false]
      at hstep
    split_ifs at hstep <;> cases hstep <;> rfl

/-- The replay, by what `apply_buffered_deltas` answers. -/
theorem replayBuffer_spec : ∃ es, Linked c.handler.lastSequence es ∧
    c.replayBuffer.handler.delivered = c.handler.delivered ++ es.map .depth ∧
    (¬ Linked c.handler.lastSequence c.handler.pending →
      c.replayBuffer.handler.state = .buffering ∧
      c.replayBuffer.handler.reconnectRequested = true ∧ c.replayBuffer.phase = .waiting) := by
  obtain ⟨es, hr⟩ := @applyBufferedDeltas_replayed c.handler
  refine ⟨es, hr.linked, ?_⟩
  rw [Sync.replayBuffer]
  cases hrun : c.handler.applyBufferedDeltas c.handler.lastSequence with
  | mk result h' =>
    rw [hrun] at hr
    by_cases hsuccess : result = .success
    · subst hsuccess
      exact ⟨hr.delivered, fun hbreak => absurd (hr.success_iff.mp rfl) hbreak⟩
    · obtain ⟨hstate, hreconnect⟩ := hr.triggered hsuccess
      cases result with
      | success => exact absurd rfl hsuccess
      | _ => exact ⟨hr.delivered, fun _ => ⟨hstate, hreconnect, rfl⟩⟩

/-- A break halts the handler and requests a reconnection. -/
theorem Breaks.halted (hc : c.Synced) (hb : Breaks lib c e)
    (hstep : c.step lib bytesOf e = .ok c') :
    c'.Halted ∧ c'.handler.reconnectRequested = true := by
  cases e with
  | message text =>
    obtain ⟨hstreaming, d, hread, hpassed, hcont⟩ := hb
    obtain ⟨incoming, hread', rfl⟩ := step_message hstep
    cases hread.symm.trans hread'
    have hhandle : c.handler.handle (.depth d)
        = (.errorSequenceGap, c.handler.triggerResnapshot "sequence_gap".toList) := by
      rw [handle, if_neg (by simp [hstreaming]), streamDelta_gap hpassed hcont]
    rw [hhandle]
    exact ⟨⟨rfl, by simp [(hc.streaming hstreaming).1]⟩, rfl⟩
  | replay =>
    obtain ⟨hphase, hbreak⟩ := hb
    rw [Sync.step, if_pos hphase] at hstep
    cases hstep
    obtain ⟨es, -, -, hfail⟩ := @replayBuffer_spec c
    obtain ⟨hstate, hreconnect, hphase'⟩ := hfail hbreak
    exact ⟨⟨hstate, by simp [hphase']⟩, hreconnect⟩
  | _ => exact hb.elim

/-- What a message does to a handler that buffers. -/
theorem Halted.handled (hc : c.Halted) (hh : Handled c.handler h') :
    h'.state = .buffering ∧ h'.depths = c.handler.depths ∧
      (c.handler.reconnectRequested = true → h'.reconnectRequested = true) := by
  cases hh with
  | kept hstate _ hdelivered hreconnect =>
    exact ⟨hstate.trans hc.state, depths_eq_of_delivered hdelivered, fun hr => hreconnect.trans hr⟩
  | traded t hstate _ hdelivered hreconnect =>
    refine ⟨hstate.trans hc.state, ?_, fun hr => hreconnect.trans hr⟩
    rw [depths, hdelivered, List.filterMap_append]
    exact List.append_nil _
  | applied d hst => exact absurd hc.state hst
  | triggered hstate _ hdelivered hreconnect =>
    exact ⟨hstate, depths_eq_of_delivered hdelivered, fun _ => hreconnect⟩

/-- **While the handler waits for a snapshot it delivers no depth message**, and keeps its request
until the connection ends. -/
theorem Halted.step (hc : c.Halted) (hstep : c.step lib bytesOf e = .ok c')
    (hsnap : c'.handler.snapshots = c.handler.snapshots) :
    c'.Halted ∧ c'.handler.depths = c.handler.depths ∧
      (e.endsConnection = false → c.handler.reconnectRequested = true →
        c'.handler.reconnectRequested = true) := by
  cases e with
  | message text =>
    obtain ⟨incoming, -, rfl⟩ := step_message hstep
    obtain ⟨hstate, hdepths, hreconnect⟩ := hc.handled (handle_handled incoming)
    exact ⟨⟨hstate, hc.phase⟩, hdepths, fun _ => hreconnect⟩
  | reconnect =>
    rw [Sync.step] at hstep
    split_ifs at hstep <;> cases hstep
    · exact ⟨⟨hc.state, by simp⟩, rfl, fun hends => by cases hends⟩
    · exact ⟨hc, rfl, fun _ hr => hr⟩
  | established =>
    rw [Sync.step] at hstep
    split_ifs at hstep <;> cases hstep
    · exact ⟨⟨rfl, by simp⟩, rfl, fun _ hr => hr⟩
    · exact ⟨hc, rfl, fun _ hr => hr⟩
  | connectFailed =>
    rw [Sync.step] at hstep
    split_ifs at hstep <;> cases hstep
    · exact ⟨⟨hc.state, by simp⟩, rfl, fun _ hr => hr⟩
    · exact ⟨hc, rfl, fun _ hr => hr⟩
  | snapshotReply reply =>
    rw [Sync.step] at hstep
    split_ifs at hstep
    · obtain ⟨hhandler, hphase⟩ | ⟨snap, hdelivered⟩ := step_snapshotReply hstep
      · exact ⟨⟨hhandler ▸ hc.state, by simp [hphase]⟩, by rw [hhandler],
          fun _ hr => by rw [hhandler, hr]⟩
      · -- the snapshot would be one more
        rw [snapshots, hdelivered, List.filterMap_append] at hsnap
        exact absurd (congrArg List.length hsnap) (by simp [snapshots, Delivery.snapshot?])
    · cases hstep
      exact ⟨hc, rfl, fun _ hr => hr⟩
  | replay =>
    rw [Sync.step, if_neg hc.phase] at hstep
    cases hstep
    exact ⟨hc, rfl, fun _ hr => hr⟩
  | leave =>
    rw [Sync.step] at hstep
    split_ifs at hstep <;> cases hstep
    · exact ⟨⟨leaveStreaming_state (by simp [hc.state]), by simp⟩,
        depths_eq_of_delivered leaveStreaming_delivered, fun hends => by cases hends⟩
    · exact ⟨hc, rfl, fun _ hr => hr⟩

/-- Steps only add to what has been delivered. -/
theorem step_delivered (hstep : c.step lib bytesOf e = .ok c') :
    c.handler.delivered <+: c'.handler.delivered := by
  cases e with
  | message text =>
    obtain ⟨incoming, -, rfl⟩ := step_message hstep
    cases @handle_handled c.handler incoming with
    | kept _ _ hdelivered => exact hdelivered ▸ List.prefix_refl _
    | traded t _ _ hdelivered => exact hdelivered ▸ List.prefix_append _ _
    | applied d _ _ _ _ hdelivered => exact hdelivered ▸ List.prefix_append _ _
    | triggered _ _ hdelivered => exact hdelivered ▸ List.prefix_refl _
  | snapshotReply reply =>
    rw [Sync.step] at hstep
    split_ifs at hstep
    · obtain ⟨hhandler, -⟩ | ⟨snap, hdelivered⟩ := step_snapshotReply hstep
      · exact hhandler ▸ List.prefix_refl _
      · exact hdelivered ▸ List.prefix_append _ _
    · cases hstep
      exact List.prefix_refl _
  | replay =>
    rw [Sync.step] at hstep
    split_ifs at hstep <;> cases hstep
    · obtain ⟨es, -, hdelivered, -⟩ := @replayBuffer_spec c
      exact hdelivered ▸ List.prefix_append _ _
    · exact List.prefix_refl _
  | leave =>
    rw [Sync.step] at hstep
    split_ifs at hstep <;> cases hstep
    · exact leaveStreaming_delivered ▸ List.prefix_refl _
    · exact List.prefix_refl _
  | _ =>
    rw [Sync.step] at hstep
    split_ifs at hstep <;> cases hstep <;> exact List.prefix_refl _

/-! ## Runs -/

variable {events : List SyncEvent}

theorem run_cons (hstep : c.step lib bytesOf e = .ok c') :
    c.run lib bytesOf (e :: events) = c'.run lib bytesOf events := by
  rw [run, List.foldlM_cons, hstep]
  rfl

/-- A run that starts with a step goes on from where the step leads. -/
theorem run_cons_inv (hrun : c.run lib bytesOf (e :: events) = .ok c₂) :
    ∃ c₁, c.step lib bytesOf e = .ok c₁ ∧ c₁.run lib bytesOf events = .ok c₂ := by
  cases hstep : c.step lib bytesOf e with
  | ok c₁ => exact ⟨c₁, rfl, run_cons hstep ▸ hrun⟩
  | error exception =>
    rw [run, List.foldlM_cons, hstep] at hrun
    cases hrun

/-- Every run goes through, and keeps the invariant. -/
theorem Synced.run (hc : c.Synced) : ∃ c', c.run lib bytesOf events = .ok c' ∧ c'.Synced := by
  induction events generalizing c with
  | nil => exact ⟨c, rfl, hc⟩
  | cons e rest ih =>
    obtain ⟨c₁, hstep, hc₁⟩ := hc.step e
    rw [run_cons hstep]
    exact ih hc₁

theorem run_delivered (hrun : c.run lib bytesOf events = .ok c') :
    c.handler.delivered <+: c'.handler.delivered := by
  induction events generalizing c with
  | nil =>
    cases hrun
    exact List.prefix_refl _
  | cons e rest ih =>
    obtain ⟨c₁, hstep, hrest⟩ := run_cons_inv hrun
    exact (step_delivered hstep).trans (ih hrest)

/-- While the handler waits for a snapshot it delivers no depth message. -/
theorem Halted.run (hc : c.Halted) (hrun : c.run lib bytesOf events = .ok c')
    (hsnap : c'.handler.snapshots = c.handler.snapshots) :
    c'.Halted ∧ c'.handler.depths = c.handler.depths ∧
      ((∀ e ∈ events, e.endsConnection = false) → c.handler.reconnectRequested = true →
        c'.handler.reconnectRequested = true) := by
  induction events generalizing c with
  | nil =>
    cases hrun
    exact ⟨hc, rfl, fun _ hr => hr⟩
  | cons e rest ih =>
    obtain ⟨c₁, hstep, hrest⟩ := run_cons_inv hrun
    -- the snapshots in between are those at both ends
    have hfirst : c.handler.snapshots <+: c₁.handler.snapshots :=
      (step_delivered hstep).filterMap _
    have hsecond : c₁.handler.snapshots <+: c'.handler.snapshots :=
      (run_delivered hrest).filterMap _
    have hsnap₁ : c₁.handler.snapshots = c.handler.snapshots :=
      (hfirst.eq_of_length_le (hsnap ▸ hsecond.length_le)).symm
    obtain ⟨hhalted, hdepths, hreconnect⟩ := hc.step hstep hsnap₁
    obtain ⟨hhalted', hdepths', hreconnect'⟩ := ih hhalted hrest (hsnap.trans hsnap₁.symm)
    refine ⟨hhalted', hdepths'.trans hdepths, fun hends hr => ?_⟩
    exact hreconnect' (fun e' he' => hends e' (List.mem_cons_of_mem e he'))
      (hreconnect (hends e List.mem_cons_self) hr)

/-- **The synchronisation of the stream.** While the handler streams, the depth messages delivered
since the last snapshot are a chain that starts at its identifier and ends at the sequence of the
handler; and after a message that breaks the chain nothing more is delivered and the handler
buffers until a new snapshot has been taken, with a reconnection requested until the event loop
ends the connection. -/
theorem synced_run (lib : FeedLibrary) (bytesOf : ℚ → List UInt8) (events : List SyncEvent) :
    ∃ c, start.run lib bytesOf events = .ok c ∧
      (∀ s ds, c.handler.chain = some (s, ds) → Linked s ds) ∧
      (c.handler.state = .streaming → ∃ s ds, c.handler.chain = some (s, ds) ∧
        c.handler.lastSequence = lastOf s ds) ∧
      ∀ e c₁, Breaks lib c e → c.step lib bytesOf e = .ok c₁ →
        ∀ later c₂, c₁.run lib bytesOf later = .ok c₂ →
          c₂.handler.snapshots = c₁.handler.snapshots →
          c₂.handler.depths = c₁.handler.depths ∧ c₂.handler.state = .buffering ∧
            ((∀ e ∈ later, e.endsConnection = false) → c₂.handler.reconnectRequested = true) := by
  obtain ⟨c, hrun, hc⟩ : ∃ c, start.run lib bytesOf events = .ok c ∧ c.Synced :=
    synced_start.run
  refine ⟨c, hrun, hc.linked, fun hstreaming => (hc.streaming hstreaming).2, ?_⟩
  intro e c₁ hbreaks hstep later c₂ hlater hsnap
  obtain ⟨hhalted, hrequested⟩ := hbreaks.halted hc hstep
  obtain ⟨hhalted₂, hdepths, hkept⟩ := hhalted.run hlater hsnap
  exact ⟨hdepths, hhalted₂.state, fun hends => hkept hends hrequested⟩

/-! ### The request is taken back before the next snapshot -/

/-- A snapshot at the update 10 and the updates 20 to 25, which do not follow it. -/
def gapTexts : List (CString × Json) :=
  [("\x7b\"lastUpdateId\":10,\"bids\":[[\"9\",\"1\"]],\"asks\":[[\"11\",\"1\"]]\x7d".toList,
      .object [("asks".toList, .array [.array [.string "11".toList, .string "1".toList]]),
        ("bids".toList, .array [.array [.string "9".toList, .string "1".toList]]),
        ("lastUpdateId".toList, .unsigned 10)]),
    ("\x7b\"e\":\"depthUpdate\",\"U\":20,\"u\":25,\"b\":[]\x7d".toList, depthJson 20 25 [])]

/-- The library on these texts. -/
def gapLibrary : FeedLibrary :=
  .ofTables gapTexts [("9".toList, 9), ("11".toList, 11), ("1".toList, 1)]

/-- The handler streams from the snapshot on. -/
def gapPrefix : List SyncEvent :=
  [.reconnect, .established, .snapshotReply ⟨200, (gapTexts.map Prod.fst).headD []⟩, .replay]

/-- The message with the gap. -/
def gapMessage : SyncEvent := .message ((gapTexts.map Prod.fst).getLastD [])

/-- After the gap the event loop leaves its streaming loop, and no reconnection is requested any
more, while no new snapshot has been taken. -/
theorem request_taken_back : ∃ c c₁ c₂, start.run gapLibrary (fun _ => []) gapPrefix = .ok c ∧
    Breaks gapLibrary c gapMessage ∧ c.step gapLibrary (fun _ => []) gapMessage = .ok c₁ ∧
    c₁.handler.reconnectRequested = true ∧ c₁.run gapLibrary (fun _ => []) [.leave] = .ok c₂ ∧
    c₂.handler.snapshots = c₁.handler.snapshots ∧ c₂.handler.state = .buffering ∧
    c₂.handler.reconnectRequested = false :=
  ⟨_, _, _, rfl, ⟨rfl, ⟨20, 25, 0, [], []⟩, rfl, by decide, by decide⟩, rfl, rfl, rfl,
    rfl, rfl, rfl⟩

end Sync

end BinanceFeedHandler

end TradingInfrastructure
