import TradingInfrastructure.Feeds.CoinbaseFeedHandler
import TradingInfrastructure.Foundations.Runs

/-!
# Why a Coinbase connection ends

The event loop of the Coinbase handler tests a request to reconnect and the time of the last
heartbeat before each call of the socket library. Both are members of the handler, which outlive
the connection they came from, and the tests run before a new connection can deliver anything.

So a connection ends for its own faults in the runs whose connections start without a request left
over and whose tests find no overdue heartbeat of an earlier connection (`closed_for_own_faults`).
A heartbeat timeout leaves both behind: from then on every connection is closed at its first test
(`Overdue.closes`).
-/

namespace TradingInfrastructure

namespace CoinbaseFeedHandler

/-! ## What a message leaves alone -/

variable {lib : FeedLibrary} {h h' h'' : CoinbaseFeedHandler} {now : ℤ} {text : CString}

/-- The time of the last heartbeat stays, and only `trigger_resnapshot` requests a reconnection. -/
structure Steady (h h' : CoinbaseFeedHandler) : Prop where
  heartbeat : h'.lastHeartbeatNs = h.lastHeartbeatNs
  resyncs : h.resyncs ≤ h'.resyncs
  request : h'.reconnectRequested = true → h.reconnectRequested = true ∨ h.resyncs < h'.resyncs

theorem Steady.of_eq (hbeat : h'.lastHeartbeatNs = h.lastHeartbeatNs)
    (hresyncs : h'.resyncs = h.resyncs) (hrequest : h'.reconnectRequested = h.reconnectRequested) :
    Steady h h' :=
  ⟨hbeat, hresyncs.ge, fun hr => .inl (hrequest ▸ hr)⟩

theorem Steady.trans (h₁ : Steady h h') (h₂ : Steady h' h'') : Steady h h'' where
  heartbeat := h₂.heartbeat.trans h₁.heartbeat
  resyncs := h₁.resyncs.trans h₂.resyncs
  request hr := by
    obtain hr' | hlt := h₂.request hr
    · exact (h₁.request hr').imp_right fun hlt => hlt.trans_le h₂.resyncs
    · exact .inr (h₁.resyncs.trans_lt hlt)

theorem steady_refl : Steady h h := .of_eq rfl rfl rfl

theorem steady_fail (reason : CString) : Steady h (h.withReason reason).triggerResnapshot :=
  ⟨rfl, Nat.le_succ _, fun _ => .inr (Nat.lt_succ_self _)⟩

theorem steady_processDelta (json : Json) (seq : UInt64) : Steady h (h.processDelta lib json seq) :=
  .of_eq rfl rfl rfl

theorem steady_processSnapshot (json : Json) (seq : UInt64) :
    Steady h (h.processSnapshot lib json seq).2 := by
  rw [processSnapshot]
  split_ifs
  · exact steady_refl
  · exact .of_eq rfl rfl rfl

theorem steady_replayDeltas {messages : List CString} {done : Bool}
    (hrun : h.replayDeltas lib messages = .ok (done, h')) : Steady h h' := by
  induction messages generalizing h with
  | nil =>
    cases hrun
    exact steady_refl
  | cons message rest ih =>
    rw [replayDeltas] at hrun
    cases hjson : lib.parse message with
    | none =>
      rw [hjson] at hrun
      exact ih hrun
    | some json =>
      simp only [hjson] at hrun
      cases hseq : json.sequenceAt "sequence_num".toList with
      | error exception =>
        rw [hseq] at hrun
        cases hrun
      | ok seq =>
        simp only [hseq, bind, Except.bind] at hrun
        split_ifs at hrun
        · exact ih hrun
        · cases hrun
          exact steady_refl
        · exact (steady_processDelta json seq).trans (ih hrun)

theorem steady_applyBufferedDeltas {done : Bool}
    (hrun : h.applyBufferedDeltas lib = .ok (done, h')) : Steady h h' := by
  rw [applyBufferedDeltas] at hrun
  cases hreplay : h.replayDeltas lib h.deltaBuffer with
  | error exception =>
    rw [hreplay] at hrun
    cases hrun
  | ok answer =>
    rw [hreplay] at hrun
    cases hrun
    exact (steady_replayDeltas hreplay).trans (.of_eq rfl rfl rfl)

theorem steady_handleSnapshot {json : Json} {seq : UInt64} {result : Result}
    (hrun : h.handleSnapshot lib json seq = .ok (result, h')) : Steady h h' := by
  rw [handleSnapshot] at hrun
  have hsnap := @steady_processSnapshot lib h json seq
  cases hs : h.processSnapshot lib json seq with
  | mk answer h₁ =>
    rw [hs] at hrun hsnap
    cases answer with
    | success =>
      simp only at hrun
      cases hb : h₁.applyBufferedDeltas lib with
      | error exception =>
        rw [hb] at hrun
        cases hrun
      | ok replayed =>
        rw [hb] at hrun
        obtain ⟨done, h₂⟩ := replayed
        have hbuffer := hsnap.trans (steady_applyBufferedDeltas hb)
        cases done with
        | true =>
          cases hrun
          exact hbuffer.trans (.of_eq rfl rfl rfl)
        | false =>
          cases hrun
          exact hbuffer.trans (steady_fail _)
    | _ =>
      cases hrun
      exact hsnap.trans (steady_fail _)

theorem steady_handleUpdate (json : Json) (seq : UInt64) :
    Steady h (h.handleUpdate lib text json seq).2 := by
  rw [handleUpdate]
  split_ifs
  · exact .of_eq rfl rfl rfl
  · exact steady_fail _
  · exact steady_fail _
  · exact steady_processDelta json seq

theorem steady_handleError (reason : CString) : Steady h (h.handleError reason) := by
  rw [handleError]
  split_ifs <;> exact .of_eq rfl rfl rfl

/-- A message that is no heartbeat. -/
theorem steady_handle {incoming : Incoming} {result : Result}
    (hne : ∀ exchangeTs, incoming ≠ .heartbeat exchangeTs)
    (hrun : h.handle lib now text incoming = .ok (result, h')) : Steady h h' := by
  cases incoming with
  | ignored =>
    cases hrun
    exact steady_refl
  | error reason =>
    cases hrun
    exact steady_handleError reason
  | heartbeat exchangeTs => exact absurd rfl (hne exchangeTs)
  | trades trades =>
    cases hrun
    exact .of_eq rfl rfl rfl
  | level2 json seq =>
    rw [handle] at hrun
    split_ifs at hrun
    · exact steady_handleSnapshot hrun
    · have hupdate := @steady_handleUpdate lib h text json seq
      rw [Except.ok.injEq] at hrun
      rw [hrun] at hupdate
      exact hupdate

/-! ## The event loop -/

/-- `k_heartbeat_grace_ns`. -/
def heartbeatGraceNs : ℤ := 5000000000

/-- Where `ws_event_loop` stands. -/
inductive LoopPhase
  /-- Between two connections. -/
  | idle
  /-- Until the connection is established. -/
  | connecting
  /-- In the loop over an established connection. -/
  | connected
  /-- The loop has ended, or an exception has. -/
  | ended
  deriving DecidableEq

/-- What can happen next. -/
inductive LoopEvent
  | connect
  | connectFailed
  | established
  /-- The tests before a call of the socket library, at this time. -/
  | check (now : ℤ)
  /-- A message of the connection, at this time. -/
  | message (now : ℤ) (text : CString)
  /-- The venue closes the connection. -/
  | closedByVenue

/-- The event loop with its handler. The last two fields are the history of the connection: the
time of its last heartbeat, and whether `trigger_resnapshot` was called for one of its messages. -/
structure EventLoop where
  handler : CoinbaseFeedHandler
  phase : LoopPhase
  lastBeat : Option ℤ
  faulted : Bool

namespace EventLoop

/-- The state in which `start` leaves the handler. -/
def start : EventLoop where
  handler := { state := .buffering, running := true }
  phase := .idle
  lastBeat := none
  faulted := false

/-- The heartbeat test. -/
def heartbeatOverdue (c : EventLoop) (now : ℤ) : Bool :=
  0 < c.handler.lastHeartbeatNs && heartbeatGraceNs < now - c.handler.lastHeartbeatNs

/-- The end of a connection. -/
def disconnect (c : EventLoop) (h : CoinbaseFeedHandler) : EventLoop :=
  { c with handler := { h with state := .buffering }, phase := .idle }

/-- The head of the loop over an established connection. -/
def check (c : EventLoop) (now : ℤ) : EventLoop :=
  if !c.handler.running then { c.disconnect c.handler with phase := .ended }
  else if c.handler.reconnectRequested then
    c.disconnect { c.handler with reconnectRequested := false }
  else if c.heartbeatOverdue now then
    c.disconnect (c.handler.withReason "heartbeat timeout".toList).triggerResnapshot
  else c

/-- The heartbeat time that a message brings. -/
def beatOf (lib : FeedLibrary) (now : ℤ) (text : CString) : Option ℤ :=
  match readMessage lib text with
  | .ok (.heartbeat _) => some now
  | _ => none

/-- A message of the connection. -/
def receive (lib : FeedLibrary) (c : EventLoop) (now : ℤ) (text : CString) : EventLoop :=
  match c.handler.processMessage lib now text with
  | .ok (_, h) =>
    { c with
      handler := h
      lastBeat := (beatOf lib now text).or c.lastBeat
      faulted := c.faulted || c.handler.resyncs < h.resyncs }
  | .error _ => { c with phase := .ended }

/-- One step. An event that is not possible changes nothing. -/
def step (lib : FeedLibrary) (c : EventLoop) : LoopEvent → EventLoop
  | .connect =>
    if c.phase = .idle then
      if c.handler.running then { c with phase := .connecting, lastBeat := none, faulted := false }
      else { c with phase := .ended }
    else c
  | .connectFailed => if c.phase = .connecting then { c with phase := .idle } else c
  | .established => if c.phase = .connecting then { c with phase := .connected } else c
  | .check now => if c.phase = .connected then c.check now else c
  | .message now text =>
    if c.phase = .connecting ∨ c.phase = .connected then c.receive lib now text else c
  | .closedByVenue => if c.phase = .connected then c.disconnect c.handler else c

/-- The tests end the connection. -/
def Closes (c : EventLoop) (now : ℤ) : Prop :=
  c.phase = .connected ∧ c.handler.running = true ∧
    (c.handler.reconnectRequested = true ∨ c.heartbeatOverdue now = true)

/-- The connection has a fault of its own: a heartbeat and then none for more than five seconds, or
a resynchronisation for one of its messages. -/
def OwnFault (c : EventLoop) (now : ℤ) : Prop :=
  (∃ beat, c.lastBeat = some beat ∧ heartbeatGraceNs < now - beat) ∨ c.faulted = true

/-- Nothing of an earlier connection is left over: no request to reconnect when a connection
starts, and no overdue heartbeat when one that has had no heartbeat yet is tested. -/
def Fresh (c : EventLoop) : LoopEvent → Prop
  | .connect => c.phase = .idle → c.handler.reconnectRequested = false
  | .check now => c.lastBeat = none → c.heartbeatOverdue now = false
  | _ => True

instance (c : EventLoop) (now : ℤ) : Decidable (c.Closes now) :=
  inferInstanceAs (Decidable (_ ∧ _))

instance (c : EventLoop) : ∀ e, Decidable (c.Fresh e)
  | .connect => inferInstanceAs (Decidable (_ → _))
  | .check _ => inferInstanceAs (Decidable (_ → _))
  | .connectFailed => isTrue trivial
  | .established => isTrue trivial
  | .message _ _ => isTrue trivial
  | .closedByVenue => isTrue trivial

/-! ## What a connection knows of itself -/

variable {c : EventLoop} {e : LoopEvent}

/-- During a connection a request to reconnect comes from one of its messages, and so does the time
of the last heartbeat once it has had one. -/
structure Own (c : EventLoop) : Prop where
  request : c.phase = .connecting ∨ c.phase = .connected →
    c.handler.reconnectRequested = true → c.faulted = true
  beat : c.phase = .connecting ∨ c.phase = .connected →
    ∀ beat, c.lastBeat = some beat → c.handler.lastHeartbeatNs = beat

/-- Outside a connection there is nothing to know. -/
theorem Own.of_phase (hidle : c.phase ≠ .connecting) (hconnected : c.phase ≠ .connected) :
    c.Own where
  request := fun hphase => (hphase.elim hidle hconnected).elim
  beat := fun hphase => (hphase.elim hidle hconnected).elim

theorem own_start : start.Own := .of_phase (by decide) (by decide)

theorem own_disconnect : (c.disconnect h).Own :=
  .of_phase (fun heq => by cases heq) fun heq => by cases heq

/-- A message of the connection. -/
theorem Own.receive (hc : c.Own) (hphase : c.phase = .connecting ∨ c.phase = .connected) :
    (c.receive lib now text).Own := by
  rw [EventLoop.receive]
  cases hrun : c.handler.processMessage lib now text with
  | error exception => exact .of_phase (fun heq => by cases heq) fun heq => by cases heq
  | ok answer =>
    obtain ⟨result, h'⟩ := answer
    rw [processMessage] at hrun
    cases hread : readMessage lib text with
    | error exception =>
      rw [hread] at hrun
      cases hrun
    | ok incoming =>
      rw [hread] at hrun
      by_cases hbeat : ∃ exchangeTs, incoming = .heartbeat exchangeTs
      · obtain ⟨exchangeTs, rfl⟩ := hbeat
        cases hrun
        refine ⟨fun _ hr => ?_, fun _ beat heq => ?_⟩
        · exact Bool.or_eq_true_iff.mpr (.inl (hc.request hphase hr))
        · rw [beatOf, hread] at heq
          exact Option.some.inj heq
      · have hs := steady_handle (fun exchangeTs heq => hbeat ⟨exchangeTs, heq⟩) hrun
        have hnone : beatOf lib now text = none := by
          rw [beatOf, hread]
          cases incoming with
          | heartbeat exchangeTs => exact absurd ⟨exchangeTs, rfl⟩ hbeat
          | _ => rfl
        refine ⟨fun _ hr => ?_, fun _ beat heq => ?_⟩
        · obtain hr' | hlt := hs.request hr
          · exact Bool.or_eq_true_iff.mpr (.inl (hc.request hphase hr'))
          · exact Bool.or_eq_true_iff.mpr (.inr (decide_eq_true hlt))
        · rw [hnone, Option.none_or] at heq
          exact hs.heartbeat.trans (hc.beat hphase beat heq)

/-- **A step keeps what a connection knows**, when it starts without a request left over. -/
theorem Own.step (hc : c.Own) (hfresh : Fresh c e) : (c.step lib e).Own := by
  cases e with
  | connect =>
    rw [EventLoop.step]
    split_ifs with hphase
    · exact ⟨fun _ hr => absurd hr (by rw [hfresh hphase]; decide), fun _ beat heq => by cases heq⟩
    · exact .of_phase (fun heq => by cases heq) fun heq => by cases heq
    · exact hc
  | connectFailed =>
    rw [EventLoop.step]
    split_ifs
    · exact .of_phase (fun heq => by cases heq) fun heq => by cases heq
    · exact hc
  | established =>
    rw [EventLoop.step]
    split_ifs with hphase
    · exact ⟨fun _ => hc.request (.inl hphase), fun _ => hc.beat (.inl hphase)⟩
    · exact hc
  | check now =>
    rw [EventLoop.step]
    split_ifs
    · rw [check]
      split_ifs
      · exact .of_phase (fun heq => by cases heq) fun heq => by cases heq
      · exact own_disconnect
      · exact own_disconnect
      · exact hc
    · exact hc
  | message now text =>
    rw [EventLoop.step]
    split_ifs with hphase
    · exact hc.receive hphase
    · exact hc
  | closedByVenue =>
    rw [EventLoop.step]
    split_ifs
    · exact own_disconnect
    · exact hc

/-- Tests that find nothing of an earlier connection end this one for its own fault. -/
theorem Own.ownFault (hc : c.Own) (hfresh : Fresh c (.check now)) (hcloses : c.Closes now) :
    c.OwnFault now := by
  obtain ⟨hphase, -, hrequest | hoverdue⟩ := hcloses
  · exact .inr (hc.request (.inr hphase) hrequest)
  · left
    cases hbeat : c.lastBeat with
    | none =>
      rw [hfresh hbeat] at hoverdue
      cases hoverdue
    | some beat =>
      rw [heartbeatOverdue, hc.beat (.inr hphase) beat hbeat, Bool.and_eq_true,
        decide_eq_true_iff, decide_eq_true_iff] at hoverdue
      exact ⟨beat, rfl, hoverdue.2⟩

/-- **Connections end for their own faults** in the runs that find nothing of an earlier connection
left over. -/
theorem closed_for_own_faults (lib : FeedLibrary) (events : List LoopEvent)
    (hfresh : AllSteps (step lib) Fresh start events) :
    ∀ before now after, events = before ++ .check now :: after →
      Closes (before.foldl (step lib) start) now →
        OwnFault (before.foldl (step lib) start) now := by
  rintro before now after rfl hcloses
  obtain ⟨hbefore, hnow⟩ := allSteps_append.mp hfresh
  have hown : (before.foldl (step lib) start).Own :=
    AllSteps.foldl (fun c e hc hf => hc.step hf) own_start hbefore
  exact hown.ownFault hnow.1 hcloses

/-! ### A heartbeat and a timeout -/

/-- A heartbeat, as text and as value. -/
def heartbeatTexts : List (CString × Json) :=
  [("\x7b\"channel\":\"heartbeats\",\"events\":[]\x7d".toList,
    .object [("channel".toList, .string "heartbeats".toList), ("events".toList, .array [])])]

/-- A connection has a heartbeat, and none for more than five seconds. -/
def timeoutRun : List LoopEvent :=
  [.connect, .established, .message 1 ((heartbeatTexts.map Prod.fst).headD [])]

theorem timeout_ownFault :
    OwnFault (timeoutRun.foldl (step (.ofTables heartbeatTexts [])) start) 5000000002 :=
  closed_for_own_faults (.ofTables heartbeatTexts []) (timeoutRun ++ [.check 5000000002])
    (by decide) timeoutRun 5000000002 [] rfl (by decide)

/-- The two connections that follow the timeout are closed at their first test, the one by the
request of the timeout and the other by the old heartbeat, and neither has had a message. -/
theorem timeout_closes_the_next :
    let lib := FeedLibrary.ofTables heartbeatTexts []
    let second := (timeoutRun ++ [LoopEvent.check 5000000002, .connect, .established]).foldl
      (step lib) start
    let third := [LoopEvent.check 5100000002, .connect, .established].foldl (step lib) second
    (second.Closes 5100000002 ∧ second.lastBeat = none ∧ second.faulted = false) ∧
      (third.Closes 5200000002 ∧ third.lastBeat = none ∧ third.faulted = false) := by
  decide

/-! ## After a timeout -/

/-- Between two connections, with a heartbeat that is overdue at this time. -/
structure Overdue (c : EventLoop) (now : ℤ) : Prop where
  phase : c.phase = .idle
  running : c.handler.running = true
  overdue : c.heartbeatOverdue now = true

/-- An overdue heartbeat stays overdue. -/
theorem heartbeatOverdue_mono {later : ℤ} (hle : now ≤ later)
    (hoverdue : c.heartbeatOverdue now = true) : c.heartbeatOverdue later = true := by
  rw [heartbeatOverdue, Bool.and_eq_true, decide_eq_true_iff, decide_eq_true_iff] at *
  omega

/-- A timeout leaves the heartbeat overdue. -/
theorem overdue_check (hrunning : c.handler.running = true)
    (hoverdue : c.heartbeatOverdue now = true) : (c.check now).Overdue now := by
  rw [check, if_neg (by simp [hrunning])]
  by_cases hrequest : c.handler.reconnectRequested = true
  · rw [if_pos hrequest]
    exact ⟨rfl, hrunning, hoverdue⟩
  · rw [if_neg hrequest, if_pos hoverdue]
    exact ⟨rfl, hrunning, hoverdue⟩

/-- The connection as it stands before its first test. -/
def reconnected (lib : FeedLibrary) (c : EventLoop) : EventLoop :=
  [LoopEvent.connect, .established].foldl (step lib) c

/-- **A connection after a timeout is closed at its first test**, and the next one will be. -/
theorem Overdue.closes {later : ℤ} (hc : c.Overdue now) (hle : now ≤ later) :
    (c.reconnected lib).Closes later ∧
      ((c.reconnected lib).step lib (.check later)).Overdue later := by
  have heq : c.reconnected lib =
      { c with phase := .connected, lastBeat := none, faulted := false } := by
    rw [reconnected, List.foldl_cons, EventLoop.step, if_pos hc.phase, if_pos hc.running]
    rfl
  have hoverdue := heartbeatOverdue_mono hle hc.overdue
  rw [heq]
  refine ⟨⟨rfl, hc.running, .inr hoverdue⟩, ?_⟩
  rw [EventLoop.step, if_pos rfl]
  exact overdue_check hc.running hoverdue

/-- The connections that are tested at these times before they receive a message. -/
def connections (lib : FeedLibrary) (c : EventLoop) : List ℤ → List EventLoop
  | [] => []
  | now :: later =>
    c.reconnected lib :: connections lib ((c.reconnected lib).step lib (.check now)) later

/-- **One timeout closes all the connections that follow it**, as long as each is tested before it
receives a message, which is the order of the event loop. -/
theorem Overdue.closes_all {times : List ℤ} (hc : c.Overdue now)
    (htimes : (now :: times).Pairwise (· ≤ ·)) :
    List.Forall₂ Closes (c.connections lib times) times := by
  induction times generalizing c now with
  | nil => exact .nil
  | cons later rest ih =>
    obtain ⟨hclose, hnext⟩ := @Overdue.closes lib now c later hc
      ((List.pairwise_cons.mp htimes).1 later List.mem_cons_self)
    exact .cons hclose (ih hnext (List.pairwise_cons.mp htimes).2)

/-- After one timeout, three connections in a row. -/
theorem closes_all_three :
    let lib := FeedLibrary.ofTables heartbeatTexts []
    List.Forall₂ Closes
      (((timeoutRun ++ [LoopEvent.check 5000000002]).foldl (step lib) start).connections lib
        [5100000002, 5200000002, 5300000002]) [5100000002, 5200000002, 5300000002] :=
  Overdue.closes_all (show Overdue _ 5000000002 from ⟨by decide, by decide, by decide⟩) (by decide)

end EventLoop

end CoinbaseFeedHandler

end TradingInfrastructure
