import TradingInfrastructure.Feeds.CoinbaseConnections

/-!
# The numbering of a Coinbase connection

The venue numbers the messages of a connection one after the other, over all the channels that the
handler subscribes to. The handler compares numbers of the book only, and what it buffers is not
dropped when a connection is replaced.

So the handler stays in step with a venue that loses nothing in the runs in which every update that
it streams comes directly after a message of the book, and every snapshot has a number that is not
below the numbers of the messages carried over from earlier connections (`Numbering.in_sync`).
-/

namespace TradingInfrastructure

namespace CoinbaseFeedHandler

/-! ## Numbers -/

/-- The channels of the subscriptions of `build_subscription_messages`, as messages name them, and
that of the venue's confirmations. -/
def subscribedChannels : List CString :=
  ["heartbeats", "l2_data", "market_trades", "subscriptions"].map String.toList

/-- The message belongs to one of the channels. -/
def isSubscribed (json : Json) : Bool :=
  !isError json &&
    match json.find "channel".toList with
    | some (.string channel) => subscribedChannels.contains channel
    | _ => false

/-- The number that a text has. -/
def sequenceOf (lib : FeedLibrary) (text : CString) : Option UInt64 :=
  (lib.parse text).bind fun json => (json.sequenceAt "sequence_num".toList).toOption

/-- The number of a message of the subscribed channels. -/
def numberOf (lib : FeedLibrary) (text : CString) : Option UInt64 :=
  (lib.parse text).bind fun json =>
    if isSubscribed json then (json.sequenceAt "sequence_num".toList).toOption else none

/-- The message is one of the book. -/
def isBook (lib : FeedLibrary) (text : CString) : Bool :=
  match readMessage lib text with
  | .ok (.level2 _ _) => true
  | _ => false

/-- The number of a snapshot that the buffer is replayed on: one with both sides. -/
def replayStart (lib : FeedLibrary) (text : CString) : Option UInt64 :=
  match readMessage lib text with
  | .ok (.level2 json seq) =>
    if hasSnapshot json ∧ (readSnapshot lib json seq).bids ≠ [] ∧
      (readSnapshot lib json seq).asks ≠ [] then some seq else none
  | _ => none

/-- The message is an update of the book. -/
def isUpdate (lib : FeedLibrary) (text : CString) : Bool :=
  match readMessage lib text with
  | .ok (.level2 json _) => !hasSnapshot json
  | _ => false

/-- The messages of a buffer that a replay hands to `process_delta`, after this number. -/
def applied (lib : FeedLibrary) : UInt64 → List CString → List CString
  | _, [] => []
  | last, message :: rest =>
    match lib.parse message with
    | none => applied lib last rest
    | some json =>
      match json.sequenceAt "sequence_num".toList with
      | .error _ => []
      | .ok seq =>
        if seq ≤ last then applied lib last rest
        else if seq ≠ last + 1 then []
        else message :: applied lib seq rest

variable {lib : FeedLibrary} {h h' : CoinbaseFeedHandler} {now : ℤ} {text : CString}
  {messages : List CString}

theorem sequenceOf_eq_some {json : Json} {seq : UInt64} (hjson : lib.parse text = some json)
    (hseq : json.sequenceAt "sequence_num".toList = .ok seq) : sequenceOf lib text = some seq := by
  rw [sequenceOf, hjson, Option.bind_some, hseq]
  rfl

/-- Messages with old numbers are passed over. -/
theorem replayDeltas_of_old {done : Bool}
    (hold : ∀ message ∈ messages, ∀ n ∈ sequenceOf lib message, n ≤ h.lastSequence)
    (hrun : h.replayDeltas lib messages = .ok (done, h')) : done = true ∧ h' = h := by
  induction messages with
  | nil =>
    cases hrun
    exact ⟨rfl, rfl⟩
  | cons message rest ih =>
    obtain ⟨hmessage, hrest⟩ := List.forall_mem_cons.mp hold
    rw [replayDeltas] at hrun
    cases hjson : lib.parse message with
    | none =>
      rw [hjson] at hrun
      exact ih hrest hrun
    | some json =>
      rw [hjson] at hrun
      obtain ⟨seq, hseq, hrun⟩ := of_bind_eq_ok hrun
      have hle : seq ≤ h.lastSequence := hmessage seq (sequenceOf_eq_some hjson hseq)
      rw [if_pos hle] at hrun
      exact ih hrest hrun

/-- None of them is applied. -/
theorem applied_of_old {last : UInt64}
    (hold : ∀ message ∈ messages, ∀ n ∈ sequenceOf lib message, n ≤ last) :
    applied lib last messages = [] := by
  induction messages with
  | nil => rfl
  | cons message rest ih =>
    obtain ⟨hmessage, hrest⟩ := List.forall_mem_cons.mp hold
    rw [applied]
    cases hjson : lib.parse message with
    | none => exact ih hrest
    | some json =>
      cases hseq : json.sequenceAt "sequence_num".toList with
      | error exception => simp only [hseq]
      | ok seq =>
        have hle : seq ≤ last := hmessage seq (sequenceOf_eq_some hjson hseq)
        simp only [hseq, if_pos hle]
        exact ih hrest

/-- A message with a number is on one of the channels. -/
theorem exists_isSubscribed {n : UInt64} (hnumber : numberOf lib text = some n) :
    ∃ json, lib.parse text = some json ∧ isSubscribed json = true := by
  obtain ⟨json, hjson, hnumber⟩ := Option.bind_eq_some_iff.mp hnumber
  split_ifs at hnumber with hsubscribed
  exact ⟨json, hjson, hsubscribed⟩

/-! ## What a message does to the book -/

/-- A message of the book has a number. -/
theorem numberOf_of_readMessage {json : Json} {seq : UInt64}
    (hread : readMessage lib text = .ok (.level2 json seq)) :
    numberOf lib text = some seq ∧ sequenceOf lib text = some seq := by
  rw [readMessage] at hread
  rw [numberOf]
  cases hparse : lib.parse text with
  | none =>
    rw [hparse] at hread
    cases hread
  | some json' =>
    rw [hparse] at hread
    dsimp only at hread
    split_ifs at hread with herror
    · obtain ⟨reason, -, hread⟩ := of_bind_eq_ok hread
      cases hread
    · split at hread
      · next channel hchannel =>
        split_ifs at hread with hbeat htrades hbook
        · cases hread
        · cases hread
        · obtain ⟨seq', hseq, hread⟩ := of_bind_eq_ok hread
          cases hread
          have hsubscribed : isSubscribed json = true := by
            rw [isSubscribed, hchannel, hbook, Bool.not_eq_true _ |>.mp herror]
            decide
          refine ⟨?_, sequenceOf_eq_some hparse hseq⟩
          rw [Option.bind_some, if_pos hsubscribed, hseq]
          rfl
        · cases hread
      · cases hread

theorem numberOf_of_isBook (hbook : isBook lib text = true) :
    ∃ seq, numberOf lib text = some seq ∧ sequenceOf lib text = some seq := by
  rw [isBook] at hbook
  split at hbook
  · next json seq hread => exact ⟨seq, numberOf_of_readMessage hread⟩
  · cases hbook

/-- A message that is not one of the book leaves it, the buffer and the state alone. -/
theorem processMessage_of_not_isBook {result : Result} (hbook : isBook lib text = false)
    (hrun : h.processMessage lib now text = .ok (result, h')) :
    result ≠ .errorSequenceGap ∧ h'.state = h.state ∧ h'.lastSequence = h.lastSequence ∧
      h'.deltaBuffer = h.deltaBuffer := by
  obtain ⟨incoming, hread, hrun⟩ := of_bind_eq_ok hrun
  rw [isBook, hread] at hbook
  cases incoming with
  | ignored =>
    cases hrun
    exact ⟨by decide, rfl, rfl, rfl⟩
  | error reason =>
    cases hrun
    rw [handleError]
    split_ifs <;> exact ⟨by decide, rfl, rfl, rfl⟩
  | heartbeat exchangeTs =>
    cases hrun
    exact ⟨by decide, rfl, rfl, rfl⟩
  | trades trades =>
    cases hrun
    exact ⟨by decide, rfl, rfl, rfl⟩
  | level2 json seq => cases hbook

/-- An update that is the next one when the handler streams. -/
theorem handleUpdate_next {json : Json} {seq : UInt64}
    (hnext : h.state = .streaming → seq = h.lastSequence + 1) :
    (h.handleUpdate lib text json seq).1 ≠ .errorSequenceGap ∧
      ((h.handleUpdate lib text json seq).2.state = .streaming →
        (h.handleUpdate lib text json seq).2.lastSequence = seq) ∧
      ((h.handleUpdate lib text json seq).2.deltaBuffer = h.deltaBuffer ∨
        (h.handleUpdate lib text json seq).2.deltaBuffer = h.deltaBuffer ++ [text] ∨
        (h.handleUpdate lib text json seq).2.deltaBuffer = []) := by
  rw [handleUpdate]
  split_ifs with hstate hroom hgap
  · exact ⟨fun heq => (by cases heq), fun h => absurd h hstate, .inr (.inl rfl)⟩
  · exact ⟨fun heq => (by cases heq), fun heq => (by cases heq), .inr (.inr rfl)⟩
  · exact absurd (hnext (not_not.mp hstate)) hgap
  · exact ⟨fun heq => (by cases heq), fun _ => rfl, .inl rfl⟩

/-- A snapshot on which only old messages are replayed. -/
theorem handleSnapshot_of_old {json : Json} {seq : UInt64} {result : Result}
    (hold : (readSnapshot lib json seq).bids ≠ [] → (readSnapshot lib json seq).asks ≠ [] →
      ∀ message ∈ h.deltaBuffer, ∀ n ∈ sequenceOf lib message, n ≤ seq)
    (hrun : h.handleSnapshot lib json seq = .ok (result, h')) :
    result ≠ .errorSequenceGap ∧ (h'.state = .streaming → h'.lastSequence = seq) ∧
      h'.deltaBuffer = [] := by
  rw [handleSnapshot, processSnapshot] at hrun
  split_ifs at hrun with hsides
  · cases hrun
    exact ⟨by decide, fun h => (by cases h), rfl⟩
  · obtain ⟨hbids, hasks⟩ := not_or.mp hsides
    obtain ⟨⟨done, h₁⟩, hbuffer, hrun⟩ := of_bind_eq_ok hrun
    obtain ⟨⟨done', h₂⟩, hreplay, hbuffer⟩ := of_bind_eq_ok hbuffer
    obtain ⟨rfl, rfl⟩ := replayDeltas_of_old (hold hbids hasks) hreplay
    cases hbuffer
    cases hrun
    exact ⟨by decide, fun _ => rfl, rfl⟩

/-! ## Connections and their numbers -/

/-- The event loop, with what the numbering of the connection says: the number of its last message,
whether that was one of the book, and how many messages at the head of the buffer were carried over
from earlier connections. -/
structure Numbering where
  loop : EventLoop
  lastNumber : Option UInt64
  afterBook : Bool
  carried : ℕ

namespace Numbering

/-- Before the first connection. -/
def start : Numbering := ⟨EventLoop.start, none, false, 0⟩

/-- A connection delivers. -/
def Receiving (s : Numbering) : Prop := s.loop.phase = .connecting ∨ s.loop.phase = .connected

instance (s : Numbering) : Decidable s.Receiving := inferInstanceAs (Decidable (_ ∨ _))

/-- One step of the event loop. A buffer only grows at its end or is cleared, and with it the part
that was carried over. -/
def step (lib : FeedLibrary) (s : Numbering) (e : LoopEvent) : Numbering :=
  let loop := s.loop.step lib e
  let carried := min s.carried loop.handler.deltaBuffer.length
  match e with
  | .connect =>
    if s.loop.phase = .idle then ⟨loop, none, false, loop.handler.deltaBuffer.length⟩
    else { s with loop := loop, carried := carried }
  | .message _ text =>
    if s.Receiving then
      { loop := loop
        lastNumber := (numberOf lib text).or s.lastNumber
        afterBook := isBook lib text || ((numberOf lib text).isNone && s.afterBook)
        carried := carried }
    else { s with loop := loop, carried := carried }
  | .connectFailed | .established | .check _ | .closedByVenue =>
    { s with loop := loop, carried := carried }

/-- The messages of earlier connections that are still in the buffer. -/
def carriedOver (s : Numbering) : List CString := s.loop.handler.deltaBuffer.take s.carried

/-- **What the venue promises**: a message of a subscribed channel has the number after that of the
one before it on its connection. -/
def Consecutive (lib : FeedLibrary) (s : Numbering) : LoopEvent → Prop
  | .message _ text => s.Receiving → ∀ json ∈ lib.parse text, isSubscribed json = true →
      (numberOf lib text).isSome ∧
        ∀ last ∈ s.lastNumber, ∀ n ∈ numberOf lib text, n.toNat = last.toNat + 1
  | _ => True

/-- **What keeps the handler in step**: an update that it streams comes directly after a message of
the book, and a snapshot with both sides has a number that is not below the numbers of the messages
carried over. -/
def Apart (lib : FeedLibrary) (s : Numbering) : LoopEvent → Prop
  | .message _ text => s.Receiving →
      (isUpdate lib text = true → s.loop.handler.state = .streaming → s.afterBook = true) ∧
        ∀ seq ∈ replayStart lib text, ∀ message ∈ s.carriedOver,
          ∀ n ∈ sequenceOf lib message, n ≤ seq
  | _ => True

/-- The handler has not lost its step with this message: there is no resynchronisation for a gap,
and nothing of an earlier connection is applied. -/
def InStep (lib : FeedLibrary) (s : Numbering) (now : ℤ) (text : CString) : Prop :=
  (∀ result h, s.loop.handler.processMessage lib now text = .ok (result, h) →
    result ≠ .errorSequenceGap) ∧
    ∀ seq ∈ replayStart lib text, applied lib seq s.carriedOver = []

/-- What the handler has of its connection: after a message of the book a streaming handler has its
number, and what was not carried over has numbers up to the last. -/
structure Kept (lib : FeedLibrary) (s : Numbering) : Prop where
  following : s.Receiving → s.afterBook = true → s.loop.handler.state = .streaming →
    s.lastNumber = some s.loop.handler.lastSequence
  own : ∀ message ∈ s.loop.handler.deltaBuffer.drop s.carried, ∀ n ∈ sequenceOf lib message,
    ∃ last ∈ s.lastNumber, n ≤ last

theorem kept_start : Kept lib start :=
  ⟨fun _ hbook => (by cases hbook), fun message hmessage => absurd hmessage List.not_mem_nil⟩

instance (lib : FeedLibrary) (s : Numbering) : ∀ e, Decidable (s.Consecutive lib e)
  | .message _ _ =>
    -- otherwise all numbers are tried
    have := @Option.decidableForallMem UInt64
    inferInstanceAs (Decidable (_ → ∀ json ∈ _, _ → _ ∧ ∀ last ∈ _, ∀ n ∈ _, _))
  | .connect => isTrue trivial
  | .connectFailed => isTrue trivial
  | .established => isTrue trivial
  | .check _ => isTrue trivial
  | .closedByVenue => isTrue trivial

instance (lib : FeedLibrary) (s : Numbering) : ∀ e, Decidable (s.Apart lib e)
  | .message _ _ =>
    have := @Option.decidableForallMem UInt64
    inferInstanceAs (Decidable (_ → (_ → _ → _) ∧ ∀ seq ∈ _, ∀ message ∈ _, ∀ n ∈ _, _))
  | .connect => isTrue trivial
  | .connectFailed => isTrue trivial
  | .established => isTrue trivial
  | .check _ => isTrue trivial
  | .closedByVenue => isTrue trivial

variable {s : Numbering} {e : LoopEvent}

/-- The numbers of a connection go up. -/
theorem Consecutive.grow (hvenue : s.Consecutive lib (.message now text)) (hrecv : s.Receiving)
    {n : UInt64} (hn : ∃ last ∈ s.lastNumber, n ≤ last) :
    ∃ last ∈ (numberOf lib text).or s.lastNumber, n ≤ last := by
  obtain ⟨last, hlast, hle⟩ := hn
  cases hnumber : numberOf lib text with
  | none => exact ⟨last, hlast, hle⟩
  | some next =>
    refine ⟨next, rfl, UInt64.le_trans hle ?_⟩
    obtain ⟨json, hjson, hsubscribed⟩ := exists_isSubscribed hnumber
    have hnext := (hvenue hrecv json hjson hsubscribed).2 last hlast next hnumber
    rw [UInt64.le_iff_toNat_le, hnext]
    exact Nat.le_succ _

theorem mem_drop_of_mem_drop_min {buffer : List CString} {message : CString} {n : ℕ}
    (hmessage : message ∈ buffer.drop (min n buffer.length)) : message ∈ buffer.drop n := by
  obtain hle | hle := Nat.le_total n buffer.length
  · rwa [min_eq_left hle] at hmessage
  · rw [min_eq_right hle, List.drop_length] at hmessage
    exact absurd hmessage List.not_mem_nil

/-- The numbers of what was not carried over, when a message has left the buffer alone, has been
added to it, or has cleared it. -/
theorem Kept.own_message (hkept : s.Kept lib) (hrecv : s.Receiving)
    (hvenue : s.Consecutive lib (.message now text)) {buffer : List CString}
    (hbuffer : buffer = s.loop.handler.deltaBuffer ∨
      (buffer = s.loop.handler.deltaBuffer ++ [text] ∧ isBook lib text = true) ∨ buffer = []) :
    ∀ message ∈ buffer.drop (min s.carried buffer.length), ∀ n ∈ sequenceOf lib message,
      ∃ last ∈ (numberOf lib text).or s.lastNumber, n ≤ last := by
  intro message hmessage n hn
  have hmessage := mem_drop_of_mem_drop_min hmessage
  obtain rfl | ⟨rfl, hbook⟩ | rfl := hbuffer
  · exact hvenue.grow hrecv (hkept.own message hmessage n hn)
  · rw [List.drop_append] at hmessage
    obtain hold | hnew := List.mem_append.mp hmessage
    · exact hvenue.grow hrecv (hkept.own message hold n hn)
    · obtain rfl := List.mem_singleton.mp (List.mem_of_mem_drop hnew)
      obtain ⟨seq, hnumber, hsequence⟩ := numberOf_of_isBook hbook
      obtain rfl : seq = n := Option.some.inj (hsequence.symm.trans hn)
      exact ⟨seq, by rw [hnumber]; rfl, UInt64.le_refl seq⟩
  · rw [List.drop_nil] at hmessage
    exact absurd hmessage List.not_mem_nil

/-- What a message has done to the handler when it is in step. -/
structure Outcome (lib : FeedLibrary) (text : CString) (h h' : CoinbaseFeedHandler) : Prop where
  book : isBook lib text = true → h'.state = .streaming → numberOf lib text = some h'.lastSequence
  other : isBook lib text = false → h'.state = h.state ∧ h'.lastSequence = h.lastSequence
  buffer : h'.deltaBuffer = h.deltaBuffer ∨
    (h'.deltaBuffer = h.deltaBuffer ++ [text] ∧ isBook lib text = true) ∨ h'.deltaBuffer = []

/-- An update that comes directly after a message of the book is the next one. -/
theorem Kept.next (hkept : s.Kept lib) (hrecv : s.Receiving)
    (hvenue : s.Consecutive lib (.message now text)) (hafter : s.afterBook = true)
    (hstate : s.loop.handler.state = .streaming) {json : Json} {seq : UInt64}
    (hread : readMessage lib text = .ok (.level2 json seq)) :
    seq = s.loop.handler.lastSequence + 1 := by
  obtain ⟨json', hjson, hsubscribed⟩ := exists_isSubscribed (numberOf_of_readMessage hread).1
  have hnext := (hvenue hrecv json' hjson hsubscribed).2 _ (hkept.following hrecv hafter hstate)
    seq (numberOf_of_readMessage hread).1
  have hlt := seq.toNat_lt
  rw [← UInt64.toNat_inj, UInt64.toNat_add, hnext]
  exact (Nat.mod_eq_of_lt (by omega)).symm

/-- All that a snapshot finds in the buffer has old numbers. -/
theorem Kept.old (hkept : s.Kept lib) (hrecv : s.Receiving)
    (hvenue : s.Consecutive lib (.message now text)) {seq : UInt64}
    (hnumber : numberOf lib text = some seq)
    (hcarried : ∀ message ∈ s.carriedOver, ∀ n ∈ sequenceOf lib message, n ≤ seq) :
    ∀ message ∈ s.loop.handler.deltaBuffer, ∀ n ∈ sequenceOf lib message, n ≤ seq := by
  intro message hmessage n hn
  rw [← List.take_append_drop s.carried s.loop.handler.deltaBuffer] at hmessage
  obtain hold | hown := List.mem_append.mp hmessage
  · exact hcarried message hold n hn
  · obtain ⟨last, hlast, hle⟩ := hvenue.grow hrecv (hkept.own message hown n hn)
    rw [hnumber] at hlast
    cases hlast
    exact hle

/-- **A message on a connection that is in step.** -/
theorem Kept.outcome (hkept : s.Kept lib) (hrecv : s.Receiving)
    (hvenue : s.Consecutive lib (.message now text)) (hapart : s.Apart lib (.message now text))
    {result : Result} {h' : CoinbaseFeedHandler}
    (hrun : s.loop.handler.processMessage lib now text = .ok (result, h')) :
    result ≠ .errorSequenceGap ∧ Outcome lib text s.loop.handler h' := by
  obtain ⟨hupdate, hsnapshot⟩ := hapart hrecv
  cases hbook : isBook lib text with
  | false =>
    obtain ⟨hresult, hstate, hsequence, hbuffer⟩ := processMessage_of_not_isBook hbook hrun
    exact ⟨hresult, fun h => absurd h (by rw [hbook]; decide), fun _ => ⟨hstate, hsequence⟩,
      .inl hbuffer⟩
  | true =>
    obtain ⟨incoming, hread, hrun⟩ := of_bind_eq_ok hrun
    rw [isBook, hread] at hbook
    cases incoming with
    | level2 json seq =>
      have hnumber := (numberOf_of_readMessage hread).1
      rw [handle] at hrun
      split_ifs at hrun with hsnap
      · have hold : (readSnapshot lib json seq).bids ≠ [] → (readSnapshot lib json seq).asks ≠ [] →
            ∀ message ∈ s.loop.handler.deltaBuffer, ∀ n ∈ sequenceOf lib message, n ≤ seq := by
          intro hbids hasks
          refine hkept.old hrecv hvenue hnumber (hsnapshot seq ?_)
          rw [replayStart, hread]
          exact if_pos ⟨hsnap, hbids, hasks⟩
        obtain ⟨hresult, hsequence, hbuffer⟩ := handleSnapshot_of_old hold hrun
        refine ⟨hresult, fun _ hstate => ?_, fun h => ?_, .inr (.inr hbuffer)⟩
        · rw [hnumber, hsequence hstate]
        · rw [isBook, hread] at h
          cases h
      · have hnext : s.loop.handler.state = .streaming →
            seq = s.loop.handler.lastSequence + 1 := fun hstate =>
          hkept.next hrecv hvenue (hupdate (by rw [isUpdate, hread]; simpa using hsnap) hstate)
            hstate hread
        obtain ⟨hresult, hsequence, hbuffer⟩ := @handleUpdate_next lib _ text json seq hnext
        rw [Except.ok.injEq] at hrun
        rw [hrun] at hresult hsequence hbuffer
        refine ⟨hresult, fun _ hstate => ?_, fun h => ?_, ?_⟩
        · rw [hnumber, hsequence hstate]
        · rw [isBook, hread] at h
          cases h
        · exact hbuffer.imp_right (Or.imp_left fun h => ⟨h, by rw [isBook, hread]⟩)
    | _ => cases hbook

/-- What is not a message leaves the numbers alone, and the book too while a connection delivers. -/
theorem Kept.of_loop (hkept : s.Kept lib) {loop : EventLoop}
    (hbook : loop.phase = .connecting ∨ loop.phase = .connected → s.Receiving ∧
      loop.handler.state = s.loop.handler.state ∧
      loop.handler.lastSequence = s.loop.handler.lastSequence)
    (hbuffer : loop.handler.deltaBuffer = s.loop.handler.deltaBuffer ∨
      loop.handler.deltaBuffer = []) :
    Kept lib { s with
      loop := loop
      carried := min s.carried loop.handler.deltaBuffer.length } where
  following hrecv hafter hstreaming := by
    obtain ⟨hrecv, hstate, hsequence⟩ := hbook hrecv
    rw [hsequence]
    exact hkept.following hrecv hafter (hstate.symm.trans hstreaming)
  own message hmessage := by
    have hmessage := mem_drop_of_mem_drop_min hmessage
    obtain heq | heq := hbuffer
    · rw [heq] at hmessage
      exact hkept.own message hmessage
    · rw [heq, List.drop_nil] at hmessage
      exact absurd hmessage List.not_mem_nil

/-- A step that changes nothing. -/
theorem Kept.of_same (hkept : s.Kept lib) :
    Kept lib { s with carried := min s.carried s.loop.handler.deltaBuffer.length } :=
  hkept.of_loop (fun hrecv => ⟨hrecv, rfl, rfl⟩) (.inl rfl)

/-- The end of a connection. -/
theorem Kept.of_end (hkept : s.Kept lib) {loop : EventLoop} (hconnecting : loop.phase ≠ .connecting)
    (hconnected : loop.phase ≠ .connected)
    (hbuffer : loop.handler.deltaBuffer = s.loop.handler.deltaBuffer ∨
      loop.handler.deltaBuffer = []) :
    Kept lib { s with
      loop := loop
      carried := min s.carried loop.handler.deltaBuffer.length } :=
  hkept.of_loop (fun hrecv => (hrecv.elim hconnecting hconnected).elim) hbuffer

/-- The start of one: everything in the buffer is carried over. -/
theorem kept_connect (loop : EventLoop) :
    Kept lib ⟨loop, none, false, loop.handler.deltaBuffer.length⟩ where
  following _ hafter := by cases hafter
  own message hmessage := by
    rw [List.drop_length] at hmessage
    exact absurd hmessage List.not_mem_nil

/-- **A message keeps the handler in step** and its numbers right. -/
theorem Kept.receive (hkept : s.Kept lib) (hrecv : s.Receiving)
    (hvenue : s.Consecutive lib (.message now text)) (hapart : s.Apart lib (.message now text)) :
    (s.step lib (.message now text)).Kept lib := by
  have hloop : s.loop.step lib (.message now text) = s.loop.receive lib now text := by
    rw [EventLoop.step]
    exact if_pos hrecv
  rw [step, hloop, if_pos hrecv, EventLoop.receive]
  cases hrun : s.loop.handler.processMessage lib now text with
  | error exception =>
    refine ⟨fun h => ?_, hkept.own_message hrecv hvenue (.inl rfl)⟩
    obtain h | h := h <;> cases h
  | ok answer =>
    obtain ⟨result, h'⟩ := answer
    obtain ⟨-, hbook, hother, hbuffer⟩ := hkept.outcome hrecv hvenue hapart hrun
    refine ⟨fun _ hafter hstreaming => ?_, hkept.own_message hrecv hvenue hbuffer⟩
    dsimp only at hafter hstreaming ⊢
    cases hb : isBook lib text with
    | true =>
      rw [hbook hb hstreaming]
      rfl
    | false =>
      rw [hb, Bool.false_or, Bool.and_eq_true, Option.isNone_iff_eq_none] at hafter
      obtain ⟨hstate, hsequence⟩ := hother hb
      rw [hafter.1, Option.none_or, hsequence]
      exact hkept.following hrecv hafter.2 (hstate.symm.trans hstreaming)

/-- **A step keeps the numbers right.** -/
theorem Kept.step (hkept : s.Kept lib) (hvenue : s.Consecutive lib e) (hapart : s.Apart lib e) :
    (s.step lib e).Kept lib := by
  cases e with
  | message now text =>
    by_cases hrecv : s.Receiving
    · exact hkept.receive hrecv hvenue hapart
    · have hloop : s.loop.step lib (.message now text) = s.loop := by
        rw [EventLoop.step]
        exact if_neg hrecv
      rw [Numbering.step, hloop, if_neg hrecv]
      exact hkept.of_same
  | connect =>
    rw [Numbering.step, EventLoop.step]
    split_ifs with hidle hrunning
    · exact kept_connect _
    · exact kept_connect _
    · exact hkept.of_same
  | connectFailed =>
    rw [Numbering.step, EventLoop.step]
    split_ifs
    · exact hkept.of_end (fun h => (by cases h)) (fun h => (by cases h)) (.inl rfl)
    · exact hkept.of_same
  | established =>
    rw [Numbering.step, EventLoop.step]
    split_ifs with hphase
    · exact hkept.of_loop (fun _ => ⟨.inl hphase, rfl, rfl⟩) (.inl rfl)
    · exact hkept.of_same
  | check now =>
    rw [Numbering.step, EventLoop.step]
    split_ifs
    · rw [EventLoop.check]
      split_ifs
      · exact hkept.of_end (fun h => (by cases h)) (fun h => (by cases h)) (.inl rfl)
      · exact hkept.of_end (fun h => (by cases h)) (fun h => (by cases h)) (.inl rfl)
      · exact hkept.of_end (fun h => (by cases h)) (fun h => (by cases h)) (.inr rfl)
      · exact hkept.of_same
    · exact hkept.of_same
  | closedByVenue =>
    rw [Numbering.step, EventLoop.step]
    split_ifs
    · exact hkept.of_end (fun h => (by cases h)) (fun h => (by cases h)) (.inl rfl)
    · exact hkept.of_same

/-- A run with a venue that numbers its messages consecutively and loses none, in which the book's
messages stand apart. -/
theorem kept_run {events : List LoopEvent}
    (hvenue : AllSteps (step lib) (Consecutive lib) start events)
    (hapart : AllSteps (step lib) (Apart lib) start events) :
    (events.foldl (step lib) start).Kept lib :=
  AllSteps.foldl (fun _ _ hkept h => hkept.step h.1 h.2) kept_start (hvenue.and hapart)

/-- **The handler stays in step** with a venue that loses nothing, whenever an update that it
streams comes directly after a message of the book and no snapshot has a number below those of the
messages carried over: there is no resynchronisation for a gap, and nothing of an earlier connection
is applied. -/
theorem in_step (lib : FeedLibrary) (events : List LoopEvent)
    (hvenue : AllSteps (step lib) (Consecutive lib) start events)
    (hapart : AllSteps (step lib) (Apart lib) start events) :
    ∀ before now text after, events = before ++ .message now text :: after →
      (before.foldl (step lib) start).Receiving →
        (before.foldl (step lib) start).InStep lib now text := by
  rintro before now text after rfl hrecv
  obtain ⟨hvenueBefore, hvenueNow⟩ := allSteps_append.mp hvenue
  obtain ⟨hapartBefore, hapartNow⟩ := allSteps_append.mp hapart
  have hkept := kept_run hvenueBefore hapartBefore
  refine ⟨fun result h hrun => (hkept.outcome hrecv hvenueNow.1 hapartNow.1 hrun).1,
    fun seq hseq => applied_of_old ((hapartNow.1 hrecv).2 seq hseq)⟩

/-! ### A heartbeat between two messages of the book, and a buffer that is carried over -/

/-- The text of a message, for its channel, number and events. -/
def messageText (channel number events : CString) : CString :=
  "\x7b\"channel\":\"".toList ++ channel ++ "\",\"sequence_num\":".toList ++ number ++
    ",\"events\":[".toList ++ events ++ "]\x7d".toList

/-- Such a message. -/
def messageJson (channel : CString) (number : ℕ) (events : List Json) : Json :=
  .object [("channel".toList, .string channel), ("events".toList, .array events),
    ("sequence_num".toList, .unsigned (.ofNat number))]

/-- A level of a side. -/
def levelJson (side price : CString) : Json :=
  .object [("new_quantity".toList, .string "1".toList), ("price_level".toList, .string price),
    ("side".toList, .string side)]

/-- The text of an event with levels at 9 and 11. -/
def eventText (type : CString) : CString :=
  "\x7b\"type\":\"".toList ++ type ++ "\",\"updates\":[".toList ++
    "\x7b\"side\":\"bid\",\"price_level\":\"9\",\"new_quantity\":\"1\"\x7d,".toList ++
    "\x7b\"side\":\"offer\",\"price_level\":\"11\",\"new_quantity\":\"1\"\x7d]\x7d".toList

/-- Such an event. -/
def eventJson (type : CString) : Json :=
  .object [("type".toList, .string type), ("updates".toList,
    .array [levelJson "bid".toList "9".toList, levelJson "offer".toList "11".toList])]

/-- Two snapshots, two heartbeats and two updates, with their numbers. -/
def numberedTexts : List (CString × Json) :=
  [(messageText "l2_data".toList "4".toList (eventText "snapshot".toList),
      messageJson "l2_data".toList 4 [eventJson "snapshot".toList]),
    (messageText "l2_data".toList "5".toList (eventText "update".toList),
      messageJson "l2_data".toList 5 [eventJson "update".toList]),
    (messageText "heartbeats".toList "5".toList [], messageJson "heartbeats".toList 5 []),
    (messageText "l2_data".toList "6".toList (eventText "update".toList),
      messageJson "l2_data".toList 6 [eventJson "update".toList])]

/-- The library on these texts. -/
def numberedLibrary : FeedLibrary :=
  .ofTables numberedTexts [("9".toList, 9), ("11".toList, 11), ("1".toList, 1)]

/-- One of the texts arrives. -/
def arrival (i : ℕ) : LoopEvent := .message 1 ((numberedTexts.map Prod.fst).getD i [])

/-- A connection on which a snapshot is followed by an update. -/
def updateRun : List LoopEvent := [.connect, .established, arrival 0]

theorem in_step_update :
    (updateRun.foldl (step numberedLibrary) start).InStep numberedLibrary 1
      ((numberedTexts.map Prod.fst).getD 1 []) :=
  in_step numberedLibrary (updateRun ++ [arrival 1]) (by decide +kernel) (by decide +kernel)
    updateRun 1 _ [] rfl (by decide +kernel)

/-- A snapshot and a heartbeat. -/
def heartbeatRun : List LoopEvent := [.connect, .established, arrival 0, arrival 2]

/-- An update without a snapshot, and another connection. -/
def replacedRun : List LoopEvent :=
  [.connect, .established, arrival 1, .closedByVenue, .connect, .established]

/-- A gap is a loss of step. -/
theorem not_inStep_of_gap (hgap : (s.loop.handler.processMessage lib now text).toOption.map
    Prod.fst = some .errorSequenceGap) : ¬ s.InStep lib now text := by
  intro hin
  cases hrun : s.loop.handler.processMessage lib now text with
  | error exception =>
    rw [hrun] at hgap
    cases hgap
  | ok answer =>
    rw [hrun] at hgap
    exact hin.1 answer.1 answer.2 hrun (Option.some.inj hgap)

/-- The update behind the heartbeat counts as a gap, and the update of the first connection is
applied on the snapshot of the second, though the venue has lost nothing. -/
theorem out_of_step :
    (AllSteps (step numberedLibrary) (Consecutive numberedLibrary) start
        (heartbeatRun ++ [arrival 3]) ∧
      ¬ (heartbeatRun.foldl (step numberedLibrary) start).InStep numberedLibrary 1
        ((numberedTexts.map Prod.fst).getD 3 [])) ∧
    AllSteps (step numberedLibrary) (Consecutive numberedLibrary) start
        (replacedRun ++ [arrival 0]) ∧
      ¬ (replacedRun.foldl (step numberedLibrary) start).InStep numberedLibrary 1
        ((numberedTexts.map Prod.fst).getD 0 []) := by
  refine ⟨⟨by decide +kernel, not_inStep_of_gap (by decide +kernel)⟩, by decide +kernel, ?_⟩
  exact fun hin => absurd (hin.2 4 (by decide +kernel)) (by decide +kernel)

end Numbering

end CoinbaseFeedHandler

end TradingInfrastructure
