import TradingInfrastructure.OrderBook.Steps

/-!
# Which snapshots a book takes

`apply_snapshot` looks at a snapshot twice: before it writes, at the spread and the checksum
(`Takes`), and after it, at how many levels the grid did not reach (`Reaches`). A snapshot that
fails the first look leaves the book as it was; one that fails the second has replaced the book,
which is then no longer initialized.
-/

namespace TradingInfrastructure

namespace OrderBook

variable {bytesOf : ℚ → List UInt8} {b : OrderBook} {s : Snapshot} {d : Delta} {side : Side}

/-- The checks before anything is written: both sides have a level, the spread of the first levels
is positive and not too wide, and a checksum is right. -/
def Takes (bytesOf : ℚ → List UInt8) (b : OrderBook) (s : Snapshot) : Prop :=
  match s.bids, s.asks with
  | bid :: _, ask :: _ =>
    0 < ask.price - bid.price ∧
      ask.price - bid.price ≤ b.maxAllowedSpreadAbs (b.computeSnapshotActiveLevels bid.price) ∧
      (s.checksumPresent = true → computeSnapshotChecksum bytesOf s = s.checksum)
  | _, _ => False

instance (bytesOf : ℚ → List UInt8) (b : OrderBook) (s : Snapshot) :
    Decidable (Takes bytesOf b s) := by
  unfold Takes
  split <;> infer_instance

/-- The check after the levels are written: at most half of them are outside the grid. -/
def Reaches (b : OrderBook) (s : Snapshot) : Prop :=
  ((b.snapshotStart s).skippedLevels s.bids + (b.snapshotStart s).skippedLevels s.asks) * 2 ≤
    s.bids.length + s.asks.length

instance (b : OrderBook) (s : Snapshot) : Decidable (b.Reaches s) :=
  inferInstanceAs (Decidable (_ ≤ _))

/-- The levels of a snapshot in its grid. -/
def written (b : OrderBook) (s : Snapshot) : OrderBook :=
  s.asks.foldl (writeLevel .ask) (s.bids.foldl (writeLevel .bid) (b.snapshotStart s))

theorem writeLevels_keep (levels : List PriceLevel) :
    (levels.foldl (writeLevel side) b).sequence = b.sequence ∧
      (levels.foldl (writeLevel side) b).initialized = b.initialized := by
  induction levels generalizing b with
  | nil => exact ⟨rfl, rfl⟩
  | cons level rest ih =>
    have hstep : (writeLevel side b level).sequence = b.sequence ∧
        (writeLevel side b level).initialized = b.initialized := by
      rw [writeLevel]
      split
      · cases side <;> exact ⟨rfl, rfl⟩
      · exact ⟨rfl, rfl⟩
    exact ⟨ih.1.trans hstep.1, ih.2.trans hstep.2⟩

theorem written_sequence : (b.written s).sequence = s.sequence :=
  (writeLevels_keep s.asks).1.trans (writeLevels_keep s.bids).1

theorem written_initialized : (b.written s).initialized = true :=
  (writeLevels_keep s.asks).2.trans (writeLevels_keep s.bids).2

/-- A snapshot that fails the first checks changes nothing. -/
theorem applySnapshot_of_not_takes (h : ¬ b.Takes bytesOf s) :
    (b.applySnapshot bytesOf s).2 = b := by
  unfold applySnapshot
  unfold Takes at h
  split
  · next bid _ ask _ hb ha =>
    simp only [hb, ha] at h
    dsimp only
    split_ifs with hspread hwide hsum hskipped
    · rfl
    · rfl
    · rfl
    · exact absurd ⟨not_le.mp hspread, not_lt.mp hwide,
        fun hp => by_contra fun hne => hsum ⟨hp, hne⟩⟩ h
    · exact absurd ⟨not_le.mp hspread, not_lt.mp hwide,
        fun hp => by_contra fun hne => hsum ⟨hp, hne⟩⟩ h
  · rfl

/-- A snapshot that passes them replaces the book, which is initialized when the grid reaches
enough of it. -/
theorem applySnapshot_of_takes (h : b.Takes bytesOf s) :
    (b.applySnapshot bytesOf s).2 = { b.written s with initialized := decide (b.Reaches s) } := by
  unfold Takes at h
  split at h
  · next bid bids ask asks hb ha =>
    obtain ⟨hspread, hwide, hsum⟩ := h
    have hstart : b.startSnapshot s (b.computeSnapshotActiveLevels bid.price)
        (b.computeSnapshotBasePrice bid.price (b.computeSnapshotActiveLevels bid.price))
          = b.snapshotStart s := by
      simp [snapshotStart, hb]
    simp only [applySnapshot, hb, ha]
    rw [if_neg (not_le.mpr hspread), if_neg (not_lt.mpr hwide),
      if_neg fun hne => hne.2 (hsum hne.1), hstart, ← hb, ← ha, ← written]
    by_cases hreach : b.Reaches s
    · rw [if_neg (not_lt.mpr hreach), decide_eq_true hreach,
        ← written_initialized (b := b) (s := s)]
    · rw [if_pos (not_le.mp hreach), decide_eq_false hreach]
  · exact h.elim

/-- The checks of a snapshot with both sides. -/
theorem takes_iff {bid ask : PriceLevel} {bids asks : List PriceLevel} (hb : s.bids = bid :: bids)
    (ha : s.asks = ask :: asks) : b.Takes bytesOf s ↔
      0 < ask.price - bid.price ∧
      ask.price - bid.price ≤ b.maxAllowedSpreadAbs (b.computeSnapshotActiveLevels bid.price) ∧
      (s.checksumPresent = true → computeSnapshotChecksum bytesOf s = s.checksum) := by
  rw [Takes, hb, ha]

/-- **A snapshot is applied exactly when it passes both checks.** -/
theorem applySnapshot_success_iff :
    (b.applySnapshot bytesOf s).1 = .success ↔ b.Takes bytesOf s ∧ b.Reaches s := by
  unfold applySnapshot
  split
  · next bid bids ask asks hb ha =>
    have hstart : b.startSnapshot s (b.computeSnapshotActiveLevels bid.price)
        (b.computeSnapshotBasePrice bid.price (b.computeSnapshotActiveLevels bid.price))
          = b.snapshotStart s := by
      simp [snapshotStart, hb]
    rw [takes_iff hb ha]
    simp only [hb, ha]
    rw [← hb, ← ha, hstart]
    split_ifs with hspread hwide hsum hskipped
    · exact iff_of_false (by decide) fun h => absurd h.1.1 (not_lt.mpr hspread)
    · exact iff_of_false (by decide) fun h => absurd h.1.2.1 (not_le.mpr hwide)
    · exact iff_of_false (by decide) fun h => hsum.2 (h.1.2.2 hsum.1)
    · exact iff_of_false (by decide) fun h => absurd h.2 (not_le.mpr hskipped)
    · exact iff_of_true rfl ⟨⟨not_le.mp hspread, not_lt.mp hwide,
        fun hp => by_contra fun hne => hsum ⟨hp, hne⟩⟩, not_lt.mp hskipped⟩
  · next hnone =>
    refine iff_of_false (fun heq => by cases heq) fun h => ?_
    have htakes := h.1
    cases hb : s.bids with
    | nil => simp only [Takes, hb] at htakes
    | cons bid bids =>
      cases ha : s.asks with
      | nil => simp only [Takes, hb, ha] at htakes
      | cons ask asks => exact hnone _ _ _ _ hb ha

theorem applySnapshot_sequence (h : b.Takes bytesOf s) :
    (b.applySnapshot bytesOf s).2.sequence = s.sequence := by
  rw [applySnapshot_of_takes h]
  exact written_sequence

/-- A delta sets the sequence to its own or leaves it. -/
theorem applyDelta_sequence : (b.applyDelta d).2.sequence = b.sequence ∨
    (b.applyDelta d).2.sequence = d.sequence := by
  have hadvance : ∀ b' : OrderBook, (b'.advanceSequence d).sequence = b'.sequence ∨
      (b'.advanceSequence d).sequence = d.sequence := by
    intro b'
    rw [advanceSequence]
    split_ifs
    · exact .inr rfl
    · exact .inl rfl
  have hstore : ∀ (b' : OrderBook) (i : ℕ), (b'.storeDelta d i).sequence = b'.sequence ∨
      (b'.storeDelta d i).sequence = d.sequence := by
    intro b' i
    have h := hadvance ({ b' with outOfRangeStreak := 0 }.setSlot d.side i d.size d.orderCount)
    cases hside : d.side <;> rw [hside] at h <;> rw [storeDelta, hside] <;> exact h
  unfold applyDelta
  split_ifs
  · exact .inl rfl
  · exact .inl rfl
  · exact .inl rfl
  · split
    · exact hstore b _
    · dsimp only
      split_ifs
      · split
        · exact hstore _ _
        · exact .inl rfl
      · exact hadvance _

theorem applyDelta_initialized : (b.applyDelta d).2.initialized = b.initialized := by
  have hadvance : ∀ b' : OrderBook, (b'.advanceSequence d).initialized = b'.initialized := by
    intro b'
    rw [advanceSequence]
    split_ifs <;> rfl
  have hstore : ∀ (b' : OrderBook) (i : ℕ), (b'.storeDelta d i).initialized = b'.initialized := by
    intro b' i
    rw [storeDelta, hadvance]
    cases d.side <;> rfl
  unfold applyDelta
  split_ifs
  · rfl
  · rfl
  · rfl
  · split
    · exact hstore b _
    · dsimp only
      split_ifs
      · split
        · exact hstore _ _
        · rfl
      · exact hadvance _

/-- An initialized book does not refuse a delta for want of a snapshot. -/
theorem applyDelta_ne_errorBookCorrupted (h : b.initialized = true) :
    (b.applyDelta d).1 ≠ .errorBookCorrupted := by
  unfold applyDelta
  rw [h, Bool.not_true, if_neg Bool.false_ne_true]
  split_ifs
  · exact fun heq => by cases heq
  · exact fun heq => by cases heq
  · split
    · exact fun heq => by cases heq
    · dsimp only
      split_ifs
      · split <;> exact fun heq => by cases heq
      · exact fun heq => by cases heq

end OrderBook

end TradingInfrastructure
