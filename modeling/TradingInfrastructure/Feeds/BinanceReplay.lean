import TradingInfrastructure.Feeds.BinanceFeedHandler

/-!
# Buffered replay against streaming

`apply_buffered_deltas` and the streaming branch of `process_message` read the same messages by two
sets of rules: streaming passes over every message that the sequence has already reached, while the
replay does so only up to its first message, and takes a later one for a gap.

Both are described by what they do from a sequence on (`streamOutcome`, `replayOutcome`). They
agree exactly on the lists of `Agree`: a passed message behind the first one that is applied is
harmless only when a gap ends the stream anyway.
-/

namespace TradingInfrastructure

open BinanceFeed

namespace BinanceFeedHandler

/-! ## What the two paths do from a sequence on -/

/-- The calls that a list of messages leads to, the sequence it leaves, and whether it ends in a
resynchronisation. -/
structure Outcome where
  calls : List Publication
  last : UInt64
  resynced : Bool
  deriving DecidableEq

/-- The calls of a message that is applied come first. -/
def Outcome.after (d : BufferedDelta) (o : Outcome) : Outcome :=
  { o with calls := d.calls ++ o.calls }

/-- The streaming branch of `process_message`, message after message. -/
def streamOutcome (last : UInt64) : List BufferedDelta → Outcome
  | [] => ⟨[], last, false⟩
  | d :: rest =>
    if Passed last d then streamOutcome last rest
    else if Continues last d then (streamOutcome d.lastUpdateId rest).after d
    else ⟨[], last, true⟩

/-- The second loop of `apply_buffered_deltas`. -/
def replayOutcome (last : UInt64) : List BufferedDelta → Outcome
  | [] => ⟨[], last, false⟩
  | d :: rest =>
    if Continues last d then (replayOutcome d.lastUpdateId rest).after d else ⟨[], last, true⟩

variable {h : BinanceFeedHandler} {d : BufferedDelta} {ds rest : List BufferedDelta}
variable {last : UInt64} {o : Outcome}

/-- The handler shows an outcome, counted from an earlier state of it. -/
structure Shows (h₀ h : BinanceFeedHandler) (o : Outcome) : Prop where
  published : h.published = h₀.published ++ o.calls
  last : h.lastSequence = o.last
  resyncCount : h.resyncCount = h₀.resyncCount + if o.resynced then 1 else 0
  reconnect : h.reconnectRequested = (h₀.reconnectRequested || o.resynced)

theorem Shows.after {h₀ : BinanceFeedHandler} (hs : Shows (h₀.applyDelta d) h o) :
    Shows h₀ h (o.after d) where
  published := by
    rw [hs.published]
    simp [BinanceFeedHandler.published, applyDelta, Outcome.after, Delivery.calls]
  last := hs.last
  resyncCount := hs.resyncCount
  reconnect := hs.reconnect

theorem shows_triggerResnapshot (reason : CString) :
    Shows h (h.triggerResnapshot reason) ⟨[], h.lastSequence, true⟩ :=
  ⟨(List.append_nil _).symm, rfl, rfl, (Bool.or_true _).symm⟩

theorem shows_self : Shows h h ⟨[], h.lastSequence, false⟩ :=
  ⟨(List.append_nil _).symm, rfl, rfl, (Bool.or_false _).symm⟩

/-! ### The handler streaming -/

/-- Handing over parsed depth messages. -/
def handleAll (h : BinanceFeedHandler) (ds : List BufferedDelta) : BinanceFeedHandler :=
  ds.foldl (fun h d => (h.handle (.depth d)).2) h

@[simp] theorem handleAll_nil : h.handleAll [] = h := rfl

@[simp] theorem handleAll_cons :
    h.handleAll (d :: rest) = (h.handle (.depth d)).2.handleAll rest := rfl

/-- While the buffer has room, messages only go into it. -/
theorem handleAll_buffering (hb : h.state = .buffering)
    (hroom : h.deltaBuffer.length + ds.length ≤ maxBufferSize) :
    ∃ mark, h.handleAll ds =
      { h with deltaBuffer := h.deltaBuffer ++ ds, bufferHighWaterMark := mark } := by
  induction ds generalizing h with
  | nil => exact ⟨h.bufferHighWaterMark, by rw [List.append_nil]; rfl⟩
  | cons d rest ih =>
    rw [List.length_cons] at hroom
    rw [handleAll_cons, handle_buffering hb (by omega)]
    obtain ⟨mark, hmark⟩ := ih (h := { h with
      deltaBuffer := h.deltaBuffer ++ [d]
      bufferHighWaterMark := max h.bufferHighWaterMark (h.deltaBuffer.length + 1) })
      hb (by simp only [List.length_append, List.length_singleton]; omega)
    refine ⟨mark, hmark.trans ?_⟩
    rw [List.append_assoc, List.singleton_append]

theorem handleAll_buffering_shows (hb : h.state = .buffering)
    (hroom : h.deltaBuffer.length + ds.length ≤ maxBufferSize) {h₀ : BinanceFeedHandler}
    (hs : Shows h₀ h o) : Shows h₀ (h.handleAll ds) o := by
  obtain ⟨mark, hmark⟩ := handleAll_buffering hb hroom
  rw [hmark]
  exact ⟨hs.published, hs.last, hs.resyncCount, hs.reconnect⟩

/-- **Streaming does what its outcome says.** After a gap the messages that follow only go into the
buffer. -/
theorem handleAll_streaming (hst : h.state ≠ .buffering) (hroom : ds.length ≤ maxBufferSize) :
    Shows h (h.handleAll ds) (streamOutcome h.lastSequence ds) := by
  induction ds generalizing h with
  | nil => exact shows_self
  | cons d rest ih =>
    have hrest : rest.length ≤ maxBufferSize := (Nat.le_succ _).trans hroom
    have hhandle : h.handle (.depth d) = h.streamDelta d := if_neg hst
    rw [handleAll_cons, hhandle, streamOutcome]
    by_cases hp : Passed h.lastSequence d
    · rw [streamDelta_passed hp, if_pos hp]
      exact ih hst hrest
    · rw [if_neg hp]
      by_cases hc : Continues h.lastSequence d
      · rw [streamDelta_continues hp hc, if_pos hc]
        exact (ih (h := h.applyDelta d) hst hrest).after
      · rw [streamDelta_gap hp hc, if_neg hc]
        exact handleAll_buffering_shows rfl (by simpa [triggerResnapshot] using hrest)
          (shows_triggerResnapshot _)

/-! ### The handler replaying -/

theorem replayDeltas_shows : Shows h (h.replayDeltas ds).2 (replayOutcome h.lastSequence ds) := by
  induction ds generalizing h with
  | nil => exact shows_self
  | cons d rest ih =>
    rw [replayDeltas, replayOutcome]
    by_cases hc : Continues h.lastSequence d
    · rw [validateDeltaSequence_iff.mpr hc, if_pos hc]
      exact (ih (h := h.applyDelta d)).after
    · rw [validateDeltaSequence_eq_false hc, if_neg hc]
      exact shows_triggerResnapshot _

/-- What the search for the first message finds, by the messages behind the passed ones. -/
theorem findSyncPoint_eq (s : UInt64) (skipped : ℕ) :
    findSyncPoint s skipped ds =
      match ds.dropWhile (Passed s) with
      | [] => .allStale (skipped + ds.length)
      | d :: rest =>
        if Continues s d then .bridge (skipped + (ds.takeWhile (Passed s)).length) (d :: rest)
        else .gap := by
  induction ds generalizing skipped with
  | nil => rfl
  | cons d rest ih =>
    rw [findSyncPoint]
    by_cases hp : Passed s d
    · rw [if_pos hp, ih, List.dropWhile_cons_of_pos (by simpa using hp),
        List.takeWhile_cons_of_pos (by simpa using hp), List.length_cons, List.length_cons]
      simp only [Nat.add_assoc, Nat.add_comm 1]
    · rw [if_neg hp, List.dropWhile_cons_of_neg (by simpa using hp),
        List.takeWhile_cons_of_neg (by simpa using hp)]
      rfl

/-- **The replay does what its outcome says**, on the messages from the first that the snapshot has
not reached. -/
theorem applyBufferedDeltas_shows :
    Shows h (h.applyBufferedDeltas h.lastSequence).2
      (replayOutcome h.lastSequence (h.deltaBuffer.dropWhile (Passed h.lastSequence))) := by
  rw [applyBufferedDeltas, findSyncPoint_eq]
  cases hds : h.deltaBuffer.dropWhile (Passed h.lastSequence) with
  | nil => exact ⟨(List.append_nil _).symm, rfl, rfl, (Bool.or_false _).symm⟩
  | cons d rest =>
    by_cases hc : Continues h.lastSequence d
    · have hr := @replayDeltas_shows h (d :: rest)
      simp only [if_pos hc]
      cases hrun : h.replayDeltas (d :: rest) with
      | mk done h' =>
        rw [hrun] at hr
        cases done with
        | true => exact ⟨hr.published, hr.last, hr.resyncCount, hr.reconnect⟩
        | false => exact hr
    · simp only [if_neg hc, replayOutcome]
      exact shows_triggerResnapshot _

/-! ## Where the two agree -/

/-- The first message that the sequence has not reached starts too late: streaming ends in a
resynchronisation before it delivers anything more. -/
def NextIsGap (last : UInt64) : List BufferedDelta → Prop
  | [] => False
  | d :: rest => if Passed last d then NextIsGap last rest else ¬ Continues last d

/-- The messages continue one another from the sequence on without a level, up to the last
identifier there is. -/
def Quiet (last : UInt64) : List BufferedDelta → Prop
  | [] => last = -1
  | d :: rest => d.calls = [] ∧ Continues last d ∧ Quiet d.lastUpdateId rest

/-- No passed message follows an applied one, unless a gap comes next. (A passed message can only
continue the sequence when that has reached the end of the identifiers.) -/
def Agree (last : UInt64) : List BufferedDelta → Prop
  | [] => True
  | d :: rest =>
    if Passed last d then
      if Continues last d then Quiet last (d :: rest) else NextIsGap last rest
    else if Continues last d then Agree d.lastUpdateId rest
    else True

/-- A message that is both passed and continues the sequence stands at the end of the
identifiers. -/
theorem eq_neg_one_of_passed_continues (hp : Passed last d) (hc : Continues last d) :
    last = -1 := by
  have hle : last + 1 ≤ last := UInt64.le_trans hc.2 hp
  rw [UInt64.le_iff_toNat_le, UInt64.toNat_add] at hle
  have hlt := last.toNat_lt
  apply UInt64.toNat_inj.mp
  have hone : (1 : UInt64).toNat = 1 := rfl
  have hneg : (-1 : UInt64).toNat = 2 ^ 64 - 1 := rfl
  omega

theorem passed_neg_one (d : BufferedDelta) : Passed (-1) d := by
  rw [Passed, UInt64.le_iff_toNat_le]
  have hlt := d.lastUpdateId.toNat_lt
  have hneg : (-1 : UInt64).toNat = 2 ^ 64 - 1 := rfl
  omega

/-- At the end of the identifiers streaming passes over everything. -/
theorem streamOutcome_neg_one : streamOutcome (-1) ds = ⟨[], -1, false⟩ := by
  induction ds with
  | nil => rfl
  | cons d rest ih => rw [streamOutcome, if_pos (passed_neg_one d), ih]

theorem Outcome.after_inj {o' : Outcome} : o.after d = o'.after d ↔ o = o' := by
  cases o
  cases o'
  simp [Outcome.after]

theorem Outcome.after_eq_iff {a : List Publication} {l : UInt64} {r : Bool} :
    o.after d = ⟨a, l, r⟩ ↔ d.calls ++ o.calls = a ∧ o.last = l ∧ o.resynced = r := by
  cases o
  simp [Outcome.after]

/-- The replay comes to the end without a call and without a resynchronisation exactly on the quiet
lists. -/
theorem replayOutcome_eq_quiet_iff : replayOutcome last ds = ⟨[], -1, false⟩ ↔ Quiet last ds := by
  induction ds generalizing last with
  | nil => simp [replayOutcome, Quiet]
  | cons d rest ih =>
    rw [replayOutcome, Quiet, ← ih]
    by_cases hc : Continues last d
    · rw [if_pos hc, Outcome.after_eq_iff, List.append_eq_nil_iff]
      cases replayOutcome d.lastUpdateId rest
      simp [hc, and_assoc]
    · rw [if_neg hc]
      simp [hc]

/-- Streaming never goes back. -/
theorem last_le_streamOutcome (ds : List BufferedDelta) (last : UInt64) :
    last ≤ (streamOutcome last ds).last := by
  induction ds generalizing last with
  | nil => exact UInt64.le_refl last
  | cons d rest ih =>
    rw [streamOutcome]
    split_ifs with hp hc
    · exact ih last
    · exact UInt64.le_trans (UInt64.le_of_lt (UInt64.not_le.mp hp)) (ih d.lastUpdateId)
    · exact UInt64.le_refl last

theorem streamOutcome_dropWhile :
    streamOutcome last (ds.dropWhile (Passed last)) = streamOutcome last ds := by
  induction ds with
  | nil => rfl
  | cons d rest ih =>
    by_cases hp : Passed last d
    · rw [List.dropWhile_cons_of_pos (by simpa using hp), ih, streamOutcome, if_pos hp]
    · rw [List.dropWhile_cons_of_neg (by simpa using hp)]

/-- Streaming resynchronises before it delivers anything exactly when the next message is a gap. -/
theorem streamOutcome_eq_gap_iff : streamOutcome last ds = ⟨[], last, true⟩ ↔
    NextIsGap last ds := by
  induction ds with
  | nil => simp [streamOutcome, NextIsGap]
  | cons d rest ih =>
    rw [streamOutcome, NextIsGap]
    by_cases hp : Passed last d
    · rw [if_pos hp, if_pos hp, ih]
    · rw [if_neg hp, if_neg hp]
      by_cases hc : Continues last d
      · rw [if_pos hc, Outcome.after_eq_iff, iff_false_intro (not_not_intro hc), iff_false]
        rintro ⟨-, hlast, -⟩
        exact hp (UInt64.le_trans (last_le_streamOutcome rest d.lastUpdateId)
          (UInt64.le_of_eq hlast))
      · rw [if_neg hc]
        exact iff_of_true rfl hc

/-- **The two outcomes agree exactly on the agreeing lists.** -/
theorem replayOutcome_eq_streamOutcome_iff :
    replayOutcome last ds = streamOutcome last ds ↔ Agree last ds := by
  induction ds generalizing last with
  | nil => exact iff_of_true rfl trivial
  | cons d rest ih =>
    rw [Agree]
    by_cases hp : Passed last d
    · rw [if_pos hp, streamOutcome, if_pos hp]
      by_cases hc : Continues last d
      · rw [if_pos hc, eq_neg_one_of_passed_continues hp hc, streamOutcome_neg_one,
          replayOutcome_eq_quiet_iff]
      · rw [if_neg hc, replayOutcome, if_neg hc, eq_comm, streamOutcome_eq_gap_iff]
    · rw [if_neg hp, streamOutcome, if_neg hp, replayOutcome]
      by_cases hc : Continues last d
      · rw [if_pos hc, if_pos hc, if_pos hc, ← ih, Outcome.after_inj]
      · rw [if_neg hc, if_neg hc, if_neg hc]
        exact iff_of_true rfl trivial

/-! ## Texts -/

/-- Handing texts to `process_message` one by one. -/
def processAll (lib : FeedLibrary) (h : BinanceFeedHandler) (messages : List CString) :
    Except CxxException BinanceFeedHandler :=
  messages.foldlM (fun h message => return (← h.processMessage lib message).2) h

theorem processAll_depth {lib : FeedLibrary} {messages : List CString}
    (hread : List.Forall₂ (IsDepth lib) messages ds) :
    h.processAll lib messages = .ok (h.handleAll ds) := by
  induction hread generalizing h with
  | nil => rfl
  | @cons message d _ _ hd _ ih =>
    have hstep : h.processMessage lib message = .ok (h.handle (.depth d)) := by
      rw [processMessage, hd]
      rfl
    rw [handleAll_cons, ← ih, processAll, List.foldlM_cons, hstep]
    rfl

/-- What a caller sees of the handler: the calls of its callbacks, its sequence, and whether and
how often it asked for a resynchronisation. -/
def view (h : BinanceFeedHandler) : List Publication × UInt64 × Bool × ℕ :=
  (h.published, h.lastSequence, h.reconnectRequested, h.resyncCount)

/-- The messages are buffered behind the snapshot with this sequence, and then replayed. -/
def bufferAndReplay (lib : FeedLibrary) (h : BinanceFeedHandler) (s : UInt64)
    (messages : List CString) : Except CxxException BinanceFeedHandler := do
  let buffered ← processAll lib
    { h with state := .buffering, lastSequence := s, deltaBuffer := [] } messages
  return (buffered.applyBufferedDeltas s).2

/-- The messages are handed to the streaming handler. -/
def streamFrom (lib : FeedLibrary) (h : BinanceFeedHandler) (s : UInt64)
    (messages : List CString) : Except CxxException BinanceFeedHandler :=
  processAll lib { h with state := .streaming, lastSequence := s, deltaBuffer := [] } messages

/-- Two outcomes counted from one handler are seen as the same exactly when they are. -/
theorem Shows.view_eq_iff {h₁ h₂ : BinanceFeedHandler} {o₁ o₂ : Outcome}
    (hs₁ : Shows h h₁ o₁) (hs₂ : Shows h h₂ o₂) : h₁.view = h₂.view ↔ o₁ = o₂ := by
  rcases o₁ with ⟨calls₁, last₁, resynced₁⟩
  rcases o₂ with ⟨calls₂, last₂, resynced₂⟩
  simp only [view, hs₁.published, hs₂.published, hs₁.last, hs₂.last, hs₁.resyncCount,
    hs₂.resyncCount, hs₁.reconnect, hs₂.reconnect]
  cases resynced₁ <;> cases resynced₂ <;> simp

/-- **Replay and streaming agree exactly when no message that the sequence has reached follows an
applied one**, except where the next message is a gap. -/
theorem replay_eq_streaming_iff (lib : FeedLibrary) (h : BinanceFeedHandler) (s : UInt64)
    (messages : List CString) (ds : List BufferedDelta)
    (hread : List.Forall₂ (IsDepth lib) messages ds) (hsize : ds.length ≤ maxBufferSize) :
    (∃ replayed streamed, bufferAndReplay lib h s messages = .ok replayed ∧
      streamFrom lib h s messages = .ok streamed ∧ replayed.view = streamed.view) ↔
    Agree s (ds.dropWhile (Passed s)) := by
  set hb : BinanceFeedHandler :=
    { h with state := .buffering, lastSequence := s, deltaBuffer := [] } with hhb
  set hs : BinanceFeedHandler :=
    { h with state := .streaming, lastSequence := s, deltaBuffer := [] } with hhs
  -- both start from the same view, so that their outcomes are counted from one handler
  have hreplay : Shows hs ((hb.handleAll ds).applyBufferedDeltas s).2
      (replayOutcome s (ds.dropWhile (Passed s))) := by
    have hroom : hb.deltaBuffer.length + ds.length ≤ maxBufferSize := by simpa [hhb] using hsize
    obtain ⟨mark, hmark⟩ := handleAll_buffering (h := hb) rfl hroom
    have hrun := applyBufferedDeltas_shows
      (h := { hb with deltaBuffer := hb.deltaBuffer ++ ds, bufferHighWaterMark := mark })
    rw [hmark]
    exact ⟨hrun.published, hrun.last, hrun.resyncCount, hrun.reconnect⟩
  have hstream : Shows hs (hs.handleAll ds) (streamOutcome s (ds.dropWhile (Passed s))) := by
    rw [streamOutcome_dropWhile]
    exact handleAll_streaming (h := hs) (by simp [hhs]) hsize
  have hbuffer : bufferAndReplay lib h s messages
      = .ok ((hb.handleAll ds).applyBufferedDeltas s).2 := by
    rw [bufferAndReplay, ← hhb, processAll_depth hread]
    rfl
  have hstreamed : streamFrom lib h s messages = .ok (hs.handleAll ds) :=
    processAll_depth hread
  rw [hbuffer, hstreamed, ← replayOutcome_eq_streamOutcome_iff, ← hreplay.view_eq_iff hstream]
  constructor
  · rintro ⟨replayed, streamed, heq₁, heq₂, hview⟩
    cases heq₁
    cases heq₂
    exact hview
  · exact fun hview => ⟨_, _, rfl, rfl, hview⟩

/-- A depth update as `nlohmann::json::parse` reads it, with its members in order of their keys. -/
def depthJson (first last : UInt64) (bids : List Json) : Json :=
  .object [("U".toList, .unsigned first), ("b".toList, .array bids),
    ("e".toList, .string "depthUpdate".toList), ("u".toList, .unsigned last)]

/-- Two messages that follow one another: the updates 1 to 5, and the update 6 of a bid. -/
def consecutive : List (CString × Json) :=
  [("\x7b\"e\":\"depthUpdate\",\"U\":1,\"u\":5,\"b\":[]\x7d".toList, depthJson 1 5 []),
    ("\x7b\"e\":\"depthUpdate\",\"U\":6,\"u\":6,\"b\":[[\"10\",\"2\"]]\x7d".toList,
      depthJson 6 6 [.array [.string "10".toList, .string "2".toList]])]

/-- The library on these two messages. -/
def consecutiveLibrary : FeedLibrary :=
  .ofTables consecutive [("10".toList, 10), ("2".toList, 2)]

theorem consecutive_agree :
    ∃ replayed streamed,
      bufferAndReplay consecutiveLibrary {} 0 (consecutive.map Prod.fst) = .ok replayed ∧
      streamFrom consecutiveLibrary {} 0 (consecutive.map Prod.fst) = .ok streamed ∧
      replayed.view = streamed.view :=
  (replay_eq_streaming_iff consecutiveLibrary {} 0 (consecutive.map Prod.fst)
    [⟨1, 5, 0, [], []⟩, ⟨6, 6, 0, [⟨10, 2⟩], []⟩]
    (.cons rfl (.cons rfl .nil)) (by decide)).mpr (by simp [Agree, List.dropWhile])

/-- Two messages of which the second repeats the end of the first: the updates 1 to 5, and 3 to
5. -/
def overlapping : List (CString × Json) :=
  [("\x7b\"e\":\"depthUpdate\",\"U\":1,\"u\":5,\"b\":[]\x7d".toList, depthJson 1 5 []),
    ("\x7b\"e\":\"depthUpdate\",\"U\":3,\"u\":5,\"b\":[]\x7d".toList, depthJson 3 5 [])]

/-- Both are depth updates. The replay takes the second one for a gap and resynchronises, while
streaming passes over it. -/
theorem overlapping_differ :
    let lib := FeedLibrary.ofTables overlapping []
    let messages := overlapping.map Prod.fst
    List.Forall₂ (IsDepth lib) messages [⟨1, 5, 0, [], []⟩, ⟨3, 5, 0, [], []⟩] ∧
      (bufferAndReplay lib {} 0 messages).map view = .ok ([], 5, true, 1) ∧
      (streamFrom lib {} 0 messages).map view = .ok ([], 5, false, 0) :=
  ⟨.cons rfl (.cons rfl .nil), rfl, rfl⟩

end BinanceFeedHandler

end TradingInfrastructure
