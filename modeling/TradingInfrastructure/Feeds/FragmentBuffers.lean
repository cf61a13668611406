import TradingInfrastructure.Foundations.Reassembly

/-!
# The buffers of the websocket callbacks

`binance_lws_cb`, `kraken_lws_cb`, `okx_lws_cb` and `coinbase_lws_cb` put the fragments of a message
together. The first three have an array of bytes and how many of them are used, the last one a
string; `ws_event_loop` sets `frag_len` to zero for each connection, which empties the array but not
the string. A fragment that the buffer has no room for empties it, and the fragments after it are
put together as if the message started there.
-/

namespace TradingInfrastructure

open Reassembly

/-- `std::memcpy` of the data into a buffer, from an index on. -/
def memcpy (buf : List UInt8) (index : ℕ) (data : List UInt8) : List UInt8 :=
  buf.take index ++ data ++ buf.drop (index + data.length)

/-- `frag_buf` and `frag_len` of the sessions of Binance, Kraken and OKX. -/
structure ArraySession where
  fragBuf : List UInt8
  fragLen : ℕ := 0
  length_eq : fragBuf.length = 131072
  fragLen_le : fragLen ≤ 131072

/-- `frag_buf` and `frag_len` of the session of Coinbase. -/
structure StringSession where
  fragBuf : List UInt8 := []
  fragLen : ℕ := 0
  length_le : fragBuf.length ≤ 8388608

namespace ArraySession

/-- `session.frag_len = 0`. -/
def reset (s : ArraySession) : ArraySession := { s with fragLen := 0, fragLen_le := Nat.zero_le _ }

theorem length_memcpy {buf data : List UInt8} {index : ℕ}
    (h : index + data.length ≤ buf.length) : (memcpy buf index data).length = buf.length := by
  unfold memcpy
  rw [List.length_append, List.length_append, List.length_take, List.length_drop]
  omega

/-- `LWS_CALLBACK_CLIENT_RECEIVE`, the part before the last fragment is looked at. -/
def append (s : ArraySession) (data : List UInt8) : ArraySession :=
  if h : s.fragLen + data.length ≤ 131072 then
    { fragBuf := memcpy s.fragBuf s.fragLen data
      fragLen := s.fragLen + data.length
      length_eq := (length_memcpy (h.trans_eq s.length_eq.symm)).trans s.length_eq
      fragLen_le := h }
  else s.reset

/-- `LWS_CALLBACK_CLIENT_RECEIVE`: the session, and what `process_message` gets. The handler of the
session is set before the first connection. -/
def receive (s : ArraySession) (data : List UInt8) (isFinal : Bool) :
    ArraySession × Option (List UInt8) :=
  let seen := s.append data
  if isFinal = true ∧ seen.fragLen > 0 then
    (seen.reset, some (seen.fragBuf.take seen.fragLen))
  else (seen, none)

/-- The bytes that are used. -/
def content (s : ArraySession) : List UInt8 := s.fragBuf.take s.fragLen

theorem length_content (s : ArraySession) : s.content.length = s.fragLen := by
  rw [content, List.length_take, s.length_eq]
  exact Nat.min_eq_left s.fragLen_le

@[simp] theorem content_reset (s : ArraySession) : s.reset.content = [] := List.take_zero

theorem content_append (s : ArraySession) (data : List UInt8) :
    (s.append data).content = push 131072 s.content data := by
  unfold append push
  rw [length_content]
  split_ifs with hroom
  · have hlength : (s.fragBuf.take s.fragLen ++ data).length = s.fragLen + data.length := by
      rw [List.length_append, ← content, length_content]
    change (memcpy s.fragBuf s.fragLen data).take (s.fragLen + data.length) = _
    rw [memcpy, List.take_append_of_le_length hlength.ge, ← hlength, List.take_length]
    rfl
  · exact s.content_reset

theorem buffers : Buffers ⟨reset, receive⟩ 131072 content where
  bound s := s.length_content.trans_le s.fragLen_le
  handed s data isFinal := by
    have hlength := (s.append data).length_content
    rw [content_append] at hlength
    have hpos : (s.append data).fragLen > 0 ↔ push 131072 s.content data ≠ [] := by
      rw [← hlength, gt_iff_lt, List.length_pos_iff]
    unfold receive
    dsimp only
    simp only [hpos]
    split_ifs
    · rw [← content, content_append]
    · rfl
  content s data isFinal := by
    have hlength := (s.append data).length_content
    unfold receive
    dsimp only
    rw [← content_append]
    split_ifs with hboth hfinal hfinal
    · exact content_reset _
    · exact absurd hboth.1 hfinal
    · have hzero : (s.append data).fragLen = 0 := by
        by_contra hne
        exact hboth ⟨hfinal, Nat.pos_of_ne_zero hne⟩
      rw [hzero] at hlength
      exact List.length_eq_zero_iff.mp hlength
    · rfl

end ArraySession

namespace StringSession

/-- `session.frag_len = 0`. -/
def reset (s : StringSession) : StringSession := { s with fragLen := 0 }

/-- `LWS_CALLBACK_CLIENT_RECEIVE`, the part before the last fragment is looked at. -/
def append (s : StringSession) (data : List UInt8) : StringSession :=
  if h : s.fragBuf.length + data.length ≤ 8388608 then
    { s with
      fragBuf := s.fragBuf ++ data
      length_le := by rwa [List.length_append] }
  else { s with fragBuf := [], length_le := Nat.zero_le _ }

/-- `LWS_CALLBACK_CLIENT_RECEIVE`: the session, and what `process_message` gets. -/
def receive (s : StringSession) (data : List UInt8) (isFinal : Bool) :
    StringSession × Option (List UInt8) :=
  let seen := s.append data
  if isFinal = true ∧ seen.fragBuf ≠ [] then
    ({ seen with fragBuf := [], length_le := Nat.zero_le _ }, some seen.fragBuf)
  else (seen, none)

theorem fragBuf_append (s : StringSession) (data : List UInt8) :
    (s.append data).fragBuf = push 8388608 s.fragBuf data := by
  unfold append push
  split_ifs <;> rfl

theorem buffers : Buffers ⟨reset, receive⟩ 8388608 fragBuf where
  bound := length_le
  handed s data isFinal := by
    unfold receive
    dsimp only
    rw [← fragBuf_append]
    split_ifs <;> rfl
  content s data isFinal := by
    unfold receive
    dsimp only
    rw [← fragBuf_append]
    split_ifs with hboth hfinal hfinal
    · rfl
    · exact absurd hboth.1 hfinal
    · by_contra hne
      exact hboth ⟨hfinal, hne⟩
    · rfl

end StringSession

/-! ## The four callbacks -/

/-- The feeds that put fragments together. -/
inductive FeedVenue
  | binance | kraken | okx | coinbase

namespace FeedVenue

/-- The session of a feed. -/
def Session : FeedVenue → Type
  | binance | kraken | okx => ArraySession
  | coinbase => StringSession

/-- `sizeof(frag_buf)`, or `k_max_msg_bytes`. -/
def capacity : FeedVenue → ℕ
  | binance | kraken | okx => 131072
  | coinbase => 8388608

/-- `binance_lws_cb`, with what `ws_event_loop` does for a connection. -/
def binanceLwsCb : Receiver ArraySession UInt8 := ⟨ArraySession.reset, ArraySession.receive⟩

/-- `kraken_lws_cb`. -/
def krakenLwsCb : Receiver ArraySession UInt8 := ⟨ArraySession.reset, ArraySession.receive⟩

/-- `okx_lws_cb`. -/
def okxLwsCb : Receiver ArraySession UInt8 := ⟨ArraySession.reset, ArraySession.receive⟩

/-- `coinbase_lws_cb`. -/
def coinbaseLwsCb : Receiver StringSession UInt8 := ⟨StringSession.reset, StringSession.receive⟩

/-- The callback of a feed. -/
def lwsCb : (v : FeedVenue) → Receiver v.Session UInt8
  | binance => binanceLwsCb
  | kraken => krakenLwsCb
  | okx => okxLwsCb
  | coinbase => coinbaseLwsCb

/-- The bytes in the buffer of a feed. -/
def content : (v : FeedVenue) → v.Session → List UInt8
  | binance | kraken | okx => ArraySession.content
  | coinbase => StringSession.fragBuf

theorem buffers (v : FeedVenue) : Buffers v.lwsCb v.capacity v.content := by
  cases v with
  | binance => exact ArraySession.buffers
  | kraken => exact ArraySession.buffers
  | okx => exact ArraySession.buffers
  | coinbase => exact StringSession.buffers

/-- What a feed has handed to `process_message` after some events. -/
def handed (v : FeedVenue) (s : v.Session) (events : List (Event UInt8)) : List (List UInt8) :=
  (events.foldl (v.lwsCb.step v.capacity) { session := s }).handed

/-- **The strings handed to `process_message`** are at all times the complete messages that fit, in
order, exactly when every message that fits is not empty and finds the buffer empty, and every one
that does not fit has nothing after the last fragment that empties the buffer. -/
theorem handed_iff (v : FeedVenue) (s : v.Session) (connections : List (Connection UInt8)) :
    (∀ pre, pre <+: connections.flatMap Connection.events →
        v.handed s pre = pre.flatMap (Event.due v.capacity)) ↔
      AllSteps (v.lwsCb.step v.capacity)
        (fun l event => Handles v.capacity (v.content l.session) event)
        { session := s } (connections.flatMap Connection.events) := by
  rw [← v.buffers.handed_eq_due_iff]
  refine forall₂_congr fun pre _ => ?_
  rw [due_foldl, List.nil_append]
  rfl

/-! ## Two runs -/

/-- The session of Coinbase at its start. -/
def coinbaseStart : coinbase.Session :=
    { fragBuf := [], length_le := Nat.zero_le _ : StringSession }

/-- As many bytes as the buffer of Binance has. -/
@[irreducible] def zeros : List UInt8 := List.replicate 131072 0

theorem length_zeros : zeros.length = 131072 := by
  rw [zeros, List.length_replicate]

/-- A session of Binance with an empty buffer. -/
def binanceStart : binance.Session :=
  { fragBuf := zeros
    length_eq := length_zeros
    fragLen_le := Nat.zero_le _ : ArraySession }

/-- A connection that breaks in a message, and one with a message after it. -/
def brokenThenWhole : List (Connection UInt8) :=
  [{ cut := [[1]] }, { messages := [{ last := [2] }] }]

/-- A message that fills the buffer of Binance, and two bytes more. -/
def overlong : Message UInt8 := { front := [zeros, [1]], last := [2] }

/-- **A prefix and a tail.** Coinbase puts the part of the message of the first connection before
the message of the second; Binance hands over the last byte of a message that is too long. -/
theorem brokenThenWhole_prefixed :
    (coinbase.handed coinbaseStart (brokenThenWhole.flatMap Connection.events) = [[1, 2]] ∧
      (brokenThenWhole.flatMap Connection.events).flatMap (Event.due coinbase.capacity) = [[2]]) ∧
    (binance.handed binanceStart [.message overlong] = [[2]] ∧
      (Event.message overlong).due binance.capacity = []) := by
  refine ⟨⟨by decide +kernel, by decide +kernel⟩, ?_, ?_⟩
  · have hstart : binance.content binanceStart = [] := List.take_zero (l := zeros)
    have hfill : push 131072 [] zeros = zeros := if_pos (by rw [length_zeros]; decide)
    have hover : push 131072 zeros [1] = [] := if_neg (by rw [length_zeros]; decide)
    have hpushed : pushAll 131072 (binance.content binanceStart) overlong.fragments = [2] := by
      rw [hstart, overlong, Message.fragments, List.cons_append, List.cons_append, pushAll_cons,
        hfill, pushAll_cons, hover]
      rfl
    have hmessage := binance.buffers.handed_message (l := { session := binanceStart }) overlong
    dsimp only at hmessage
    rw [capacity, hpushed] at hmessage
    exact hmessage
  · have hwhole : overlong.whole = zeros ++ [1, 2] := by
      simp [overlong, Message.whole, Message.fragments]
    refine if_neg ?_
    rw [hwhole, List.length_append, length_zeros]
    decide

end FeedVenue

end TradingInfrastructure
