import TradingInfrastructure.OrderBook.Soundness

/-!
# When the touch is right

The best price of a side is that of the best level the book stores; it is the best price written
exactly when every level the book has lost lies behind one that it stores (`touchComplete_iff`).
`apply_delta` does not keep it so: it answers with success to a delta outside the grid that
improves the touch and drops it, until the price has been out of the grid four times or far
enough, and a delete or a move of the grid can lay bare what was dropped before. `KeepsTouch`
says which deltas keep the touch right, and `touchComplete_run_iff` that a run keeps it right
exactly when all of its deltas do.
-/

namespace TradingInfrastructure

open PartialView (Holds Sound Covers IsBest Lost)

namespace Tracked

/-- The last size written at the price is positive. -/
def Live (t : Tracked) (side : Side) : ℚ → Prop := Holds OrderBook.HasSize (t.last side)

/-- The book stores a level with a size at the price. -/
def Stored (t : Tracked) (side : Side) : ℚ → Prop := Holds OrderBook.HasSize (t.book.shown side)

/-- The best bid is the highest price whose last written size is positive, and the best ask the
lowest; they are zero when there is none. -/
def TouchComplete (t : Tracked) : Prop :=
  (IsGreatest {p | t.Live .bid p} t.book.getBestBid ∨
      (t.book.getBestBid = 0 ∧ ∀ p, ¬ t.Live .bid p)) ∧
    (IsLeast {p | t.Live .ask p} t.book.getBestAsk ∨
      (t.book.getBestAsk = 0 ∧ ∀ p, ¬ t.Live .ask p))

/-- Every level of the side that the book has lost lies behind one that it stores. -/
def Covered (t : Tracked) (side : Side) : Prop :=
  Covers OrderBook.HasSize side.Ahead (t.book.shown side) (t.last side)

/-- The conditions under which a delta that is not stale keeps the touch right.

* Its price is in the grid: it has a size, or every lost level of its side lies behind a stored
  level at another price.
* Its price is outside the grid, which does not move: it has no size, or does not improve the
  touch.
* Its price is outside the grid, which moves: on each side, every level that is lost or leaves the
  window lies behind a stored level that stays in it. A delta with a size frees its own side of
  this. -/
def KeepsTouch (t : Tracked) (d : Delta) : Prop :=
  t.book.stale d = false →
    match t.book.priceToIndex d.price, (t.book.shouldRecenter d).1 with
    | some _, _ => d.size = 0 → ∀ p, p ≠ d.price → t.Live d.side p → ¬ t.Stored d.side p →
        ∃ q, q ≠ d.price ∧ t.Stored d.side q ∧ d.side.Ahead q p
    | none, false => d.size = 0 ∨ t.book.deltaImprovesTouch d = false
    | none, true => ∀ side, (side = d.side → d.size = 0) →
        ∀ p, (side = d.side → p ≠ d.price) → t.Live side p →
          ¬ (t.Stored side p ∧ t.book.InWindow d.price p) →
          ∃ q, t.Stored side q ∧ t.book.InWindow d.price q ∧ side.Ahead q p

end Tracked

namespace OrderBook

/-- A snapshot leaves the touch right when every level it writes with a size outside the grid lies
behind one that it writes with a size inside. -/
def SnapshotKeepsTouch (b : OrderBook) (s : Snapshot) : Prop :=
  ∀ side p, Holds HasSize (lastWrite ((s.levels side).map PriceLevel.entry)) p →
    ¬ (b.snapshotStart s).HasSlot p →
    ∃ q, Holds HasSize (lastWrite ((s.levels side).map PriceLevel.entry)) q ∧
      (b.snapshotStart s).HasSlot q ∧ side.Ahead q p

end OrderBook

/-! ## The touch and the lost levels -/

theorem Side.ahead_or {side : Side} {p q : ℚ} (h : ¬ side.Ahead p q) : q = p ∨ side.Ahead q p := by
  cases side
  · exact (not_lt.mp h).eq_or_lt.imp Eq.symm id
  · exact (not_lt.mp h).eq_or_lt

theorem isBest_bid_iff {S : ℚ → Prop} {p : ℚ} :
    IsBest Side.bid.Ahead S p ↔ IsGreatest {q | S q} p := by
  refine and_congr_right fun _ => ⟨fun h q hq => ?_, fun h q hq => ?_⟩
  · rcases h q hq with rfl | hlt
    · exact le_rfl
    · exact le_of_lt hlt
  · exact (h hq).eq_or_lt

theorem isBest_ask_iff {S : ℚ → Prop} {p : ℚ} :
    IsBest Side.ask.Ahead S p ↔ IsLeast {q | S q} p := by
  refine and_congr_right fun _ => ⟨fun h q hq => ?_, fun h q hq => ?_⟩
  · rcases h q hq with rfl | hlt
    · exact le_rfl
    · exact le_of_lt hlt
  · exact (h hq).eq_or_lt.imp Eq.symm id

namespace Tracked

variable {tick : ℚ} {t : Tracked} {side : Side} {d : Delta}

theorem Faithful.live_pos (h : t.Faithful tick) {p : ℚ} (hp : t.Live side p) : 0 < p := by
  obtain ⟨v, hv, -⟩ := hp
  obtain ⟨w, hw, rfl⟩ := exists_of_lastWrite hv
  exact h.price_pos side w hw

theorem Faithful.stored_live (h : t.Faithful tick) {p : ℚ} (hp : t.Stored side p) :
    t.Live side p :=
  (h.sound side).holds hp

/-- The touch of a side is right exactly when the stored levels cover the lost ones. -/
theorem Faithful.isBest_iff_covered (h : t.Faithful tick) (side : Side) :
    (IsBest side.Ahead (t.Live side) (t.book.bestPrice side) ∨
        (t.book.bestPrice side = 0 ∧ ∀ p, ¬ t.Live side p)) ↔ t.Covered side := by
  rcases h.gridded.bestPrice_spec side with hbest | ⟨hzero, hnone⟩
  · have hlive := h.stored_live hbest.1
    have hempty : ¬ (t.book.bestPrice side = 0 ∧ ∀ p, ¬ t.Live side p) :=
      fun hc => hc.2 _ hlive
    rw [or_iff_left hempty]
    exact PartialView.isBest_live_iff (h.sound side) hbest
  · have hbest : ¬ IsBest side.Ahead (t.Live side) (t.book.bestPrice side) := by
      intro hc
      exact absurd (h.live_pos hc.1) (by simp [hzero])
    rw [or_iff_right hbest, Covered, PartialView.covers_of_empty hnone]
    exact and_iff_right hzero

/-- **The touch is right exactly when the stored levels cover the lost ones**, on both sides. -/
theorem Faithful.touchComplete_iff (h : t.Faithful tick) :
    t.TouchComplete ↔ ∀ side, t.Covered side := by
  have hbid := h.isBest_iff_covered .bid
  have hask := h.isBest_iff_covered .ask
  rw [isBest_bid_iff] at hbid
  rw [isBest_ask_iff] at hask
  rw [TouchComplete, OrderBook.getBestBid, OrderBook.getBestAsk, hbid, hask]
  constructor
  · rintro ⟨hb, ha⟩ side
    cases side
    · exact hb
    · exact ha
  · exact fun hc => ⟨hc .bid, hc .ask⟩

/-- A delta does not improve the touch exactly when a stored level lies ahead of it. -/
theorem Faithful.not_improves_iff (h : t.Faithful tick) :
    t.book.deltaImprovesTouch d = false ↔ ∃ q, t.Stored d.side q ∧ d.side.Ahead q d.price := by
  have himproves : t.book.deltaImprovesTouch d = false ↔
      0 < t.book.bestPrice d.side ∧ d.side.Ahead (t.book.bestPrice d.side) d.price := by
    unfold OrderBook.deltaImprovesTouch OrderBook.getBestBid OrderBook.getBestAsk
    cases d.side <;> simp [Side.Ahead]
  rw [himproves]
  rcases h.gridded.bestPrice_spec d.side with hbest | ⟨hzero, hnone⟩
  · constructor
    · exact fun hc => ⟨_, hbest.1, hc.2⟩
    · rintro ⟨q, hq, hahead⟩
      refine ⟨h.live_pos (h.stored_live hbest.1), ?_⟩
      rcases hbest.2 q hq with rfl | hq'
      · exact hahead
      · exact hq'.trans hahead
  · constructor
    · intro hc
      exact absurd hc.1 (by simp [hzero])
    · rintro ⟨q, hq, -⟩
      exact absurd hq (hnone q)

/-- A grid that moves is moved by a delta at or ahead of all stored levels of its side. -/
theorem Faithful.ahead_of_recenter (h : t.Faithful tick)
    (hrec : (t.book.shouldRecenter d).1 = true) {q : ℚ} (hq : t.Stored d.side q) :
    q = d.price ∨ d.side.Ahead d.price q := by
  have himp : ¬ t.book.deltaImprovesTouch d = false := by
    intro hc
    simp [OrderBook.shouldRecenter, hc] at hrec
  rw [h.not_improves_iff] at himp
  exact (Side.ahead_or fun ha => himp ⟨q, hq, ha⟩).imp Eq.symm id

/-! ## One delta -/

/-- A price on a tick without an index is not stored. -/
theorem not_stored_of_priceToIndex_none {p : ℚ} (hp : t.book.priceToIndex p = none) :
    ¬ t.Stored side p := by
  rintro ⟨v, hv, -⟩
  rw [OrderBook.shown_of_priceToIndex_none hp] at hv
  cases hv

/-- A delta leaves the other side's history alone, so that side stays covered by what is shown. -/
theorem forall_covered_delta_iff (hc : ∀ side, t.Covered side)
    (hother : ∀ side, side ≠ d.side → (t.delta d).book.shown side = t.book.shown side) :
    (∀ side, (t.delta d).Covered side) ↔ (t.delta d).Covered d.side := by
  refine ⟨fun h => h d.side, fun h side => ?_⟩
  by_cases hs : side = d.side
  · exact hs ▸ h
  · rw [Covered, hother side hs, last_delta_of_ne hs]
    exact hc side

/-- The slot of the delta is written. -/
theorem Faithful.covered_store_iff (h : t.Faithful tick) (hd : d.Regular tick)
    (hc : ∀ side, t.Covered side) (hst : t.book.stale d = false) {i : ℕ}
    (hi : i < t.book.activeLevels) (hp : d.price = t.book.indexToPrice i)
    (he : t.book.applyDelta d = (.success, t.book.storeDelta d i)) :
    (∀ side, (t.delta d).Covered side) ↔
      (d.size = 0 → ∀ p, p ≠ d.price → t.Live d.side p → ¬ t.Stored d.side p →
        ∃ q, q ≠ d.price ∧ t.Stored d.side q ∧ d.side.Ahead q p) := by
  have hbook : (t.delta d).book = t.book.storeDelta d i := congrArg Prod.snd he
  rw [forall_covered_delta_iff hc fun side hs => by
    rw [hbook, OrderBook.shown_storeDelta_of_ne _ _ _ hs]]
  rw [Covered, hbook, h.gridded.shown_storeDelta d hi hp, last_delta_self hst]
  rcases hd.size_nonneg.eq_or_lt with hzero | hpos
  · rw [PartialView.covers_delete_iff (by simp [OrderBook.HasSize, ← hzero])]
    constructor
    · exact fun hcov _ p hne hl hs => hcov p hne ⟨hl, hs⟩
    · exact fun hcov p hne hlost => hcov hzero.symm p hne hlost.1 hlost.2
  · exact iff_of_true ((hc d.side).write _ hpos) fun hzero => absurd hzero hpos.ne'

/-- The delta is skipped. -/
theorem Faithful.covered_skip_iff (h : t.Faithful tick) (hd : d.Regular tick)
    (hc : ∀ side, t.Covered side) (hst : t.book.stale d = false)
    (hidx : t.book.priceToIndex d.price = none)
    (he : t.book.applyDelta d = (.success, t.book.skipDelta d)) :
    (∀ side, (t.delta d).Covered side) ↔
      (d.size = 0 ∨ t.book.deltaImprovesTouch d = false) := by
  have hbook : (t.delta d).book = t.book.skipDelta d := congrArg Prod.snd he
  have hshown : ∀ side, (t.delta d).book.shown side = t.book.shown side := by
    intro side
    rw [hbook, OrderBook.shown_skipDelta]
  rw [forall_covered_delta_iff hc fun side _ => hshown side, Covered, hshown, last_delta_self hst,
    (hc d.side).skip_iff (OrderBook.shown_of_priceToIndex_none hidx _), h.not_improves_iff]
  rcases hd.size_nonneg.eq_or_lt with hzero | hpos
  · simp [OrderBook.HasSize, ← hzero]
  · simp only [OrderBook.HasSize, hpos, true_imp_iff, hpos.ne', false_or]
    rfl

/-- The grid moves and the slot of the delta is written. -/
theorem Faithful.covered_move_iff (h : t.Faithful tick) (hd : d.Regular tick)
    (hc : ∀ side, t.Covered side) (hst : t.book.stale d = false)
    (hidx : t.book.priceToIndex d.price = none) (hrec : (t.book.shouldRecenter d).1 = true)
    (he : t.book.applyDelta d = (.success, t.book.moveAndStore d)) :
    (∀ side, (t.delta d).Covered side) ↔
      ∀ side, (side = d.side → d.size = 0) →
        ∀ p, (side = d.side → p ≠ d.price) → t.Live side p →
          ¬ (t.Stored side p ∧ t.book.InWindow d.price p) →
          ∃ q, t.Stored side q ∧ t.book.InWindow d.price q ∧ side.Ahead q p := by
  obtain ⟨hg, rfl, -, -⟩ := id h
  have hbook : (t.delta d).book = t.book.moveAndStore d := congrArg Prod.snd he
  refine forall_congr' fun side => ?_
  by_cases hs : side = d.side
  · subst hs
    rw [Covered, hbook, hg.shown_moveAndStore hd, last_delta_self hst]
    rcases hd.size_nonneg.eq_or_lt with hzero | hpos
    · rw [PartialView.covers_delete_iff (by simp [OrderBook.HasSize, ← hzero])]
      simp only [Lost, hg.holds_recenterGrid hd.onTick, hzero.symm, true_imp_iff, and_imp]
      refine forall_congr' fun p => forall_congr' fun _ => forall_congr' fun _ =>
        forall_congr' fun _ => exists_congr fun q => ?_
      -- the price of the delta has no slot yet, so no stored level is at it
      constructor
      · rintro ⟨-, ⟨hq, hw⟩, ha⟩
        exact ⟨hq, hw, ha⟩
      · rintro ⟨hq, hw, ha⟩
        refine ⟨?_, ⟨hq, hw⟩, ha⟩
        rintro rfl
        exact not_stored_of_priceToIndex_none hidx hq
    · have hsize : OrderBook.HasSize (d.size, d.orderCount) := hpos
      refine iff_of_true ?_ fun hzero => absurd (hzero rfl) hpos.ne'
      exact (hc d.side).write_head hsize (fun q hq => h.ahead_of_recenter hrec hq) _
  · rw [Covered, hbook, OrderBook.shown_moveAndStore_of_ne _ hs, last_delta_of_ne hs]
    simp only [Covers, Lost, hg.holds_recenterGrid hd.onTick, hs, false_imp_iff, true_imp_iff,
      and_imp, and_assoc]
    rfl

/-- **A delta keeps the touch right exactly when it meets the condition.** -/
theorem Faithful.covered_delta_iff (h : t.Faithful tick) (hd : d.Regular tick)
    (hc : ∀ side, t.Covered side) : (∀ side, (t.delta d).Covered side) ↔ t.KeepsTouch d := by
  have hd' : d.Regular t.book.tickSize := h.tick_eq ▸ hd
  rcases h.gridded.applyDelta_cases hd' with ⟨hst, he⟩ | ⟨hst, i, hi, hp, he⟩ |
      ⟨hst, hidx, hrec, he⟩ | ⟨hst, hidx, hrec, he⟩
  · refine iff_of_true (fun side => ?_) (by simp [KeepsTouch, hst])
    have hbook : (t.delta d).book = t.book := congrArg Prod.snd he
    rw [Covered, hbook, last_delta_of_stale hst]
    exact hc side
  · rw [h.covered_store_iff hd hc hst hi hp he]
    have hidx := (h.gridded.priceToIndex_eq_some hd'.onTick).mpr ⟨hi, hp⟩
    simp only [KeepsTouch, hst, hidx, true_imp_iff]
  · rw [h.covered_skip_iff hd hc hst hidx he]
    simp only [KeepsTouch, hst, hidx, hrec, true_imp_iff]
  · rw [h.covered_move_iff hd hc hst hidx hrec he]
    simp only [KeepsTouch, hst, hidx, hrec, true_imp_iff]

/-! ## Runs -/

/-- What a snapshot leaves is covered exactly when the snapshot keeps the touch right. -/
theorem covered_ofSnapshot_iff {b : OrderBook} {s : Snapshot} {bytesOf : ℚ → List UInt8}
    (hb : b.Allocated) (hs : s.Regular b.tickSize)
    (hok : (b.applySnapshot bytesOf s).1 = .success) :
    (∀ side, (ofSnapshot bytesOf b s).Covered side) ↔ b.SnapshotKeepsTouch s := by
  obtain ⟨hg, hw, hm⟩ := hb.applySnapshot hs hok
  have hslot : ∀ p, (b.applySnapshot bytesOf s).2.HasSlot p ↔ (b.snapshotStart s).HasSlot p := by
    intro p
    simp only [OrderBook.HasSlot, hw.activeLevels, hw.indexToPrice]
  have hholds : ∀ side p, Holds OrderBook.HasSize ((b.applySnapshot bytesOf s).2.shown side) p ↔
      Holds OrderBook.HasSize (lastWrite ((s.levels side).map PriceLevel.entry)) p ∧
        (b.snapshotStart s).HasSlot p := by
    intro side p
    constructor
    · rintro ⟨v, hv, hsize⟩
      obtain ⟨hlast, hp⟩ := (hg.shown_of_mirrors (hm side) hsize).mp hv
      exact ⟨⟨v, hlast, hsize⟩, (hslot p).mp hp⟩
    · rintro ⟨⟨v, hlast, hsize⟩, hp⟩
      exact ⟨v, (hg.shown_of_mirrors (hm side) hsize).mpr ⟨hlast, (hslot p).mpr hp⟩, hsize⟩
  refine forall_congr' fun side => forall_congr' fun p => ?_
  have hbook : (ofSnapshot bytesOf b s).book = (b.applySnapshot bytesOf s).2 := rfl
  have hlast : (ofSnapshot bytesOf b s).last side =
      lastWrite ((s.levels side).map PriceLevel.entry) := rfl
  simp only [Lost, hbook, hlast, hholds, and_assoc]
  constructor
  · intro h hl hp
    exact h ⟨hl, fun hc => hp hc.2⟩
  · intro h hlost
    exact h hlost.1 fun hp => hlost.2 ⟨hlost.1, hp⟩

/-- **A run keeps the touch right exactly when the snapshot and every delta do.** -/
theorem touchComplete_run_iff {tick : ℚ} (htick : 0 < tick) {maxLevels : ℕ} (hmax : 2 ≤ maxLevels)
    (bytesOf : ℚ → List UInt8) {s : Snapshot} (hs : s.Regular tick)
    (hok : ((OrderBook.new tick maxLevels).applySnapshot bytesOf s).1 = .success)
    {ds : List Delta} (hds : ∀ d ∈ ds, d.Regular tick) :
    (∀ pre, pre <+: ds →
        ((ofSnapshot bytesOf (.new tick maxLevels) s).run pre).TouchComplete) ↔
      (OrderBook.new tick maxLevels).SnapshotKeepsTouch s ∧
        AllSteps delta KeepsTouch (ofSnapshot bytesOf (.new tick maxLevels) s) ds := by
  have hb := OrderBook.allocated_new htick hmax
  have hstart : (ofSnapshot bytesOf (.new tick maxLevels) s).Faithful tick :=
    faithful_ofSnapshot hb hs hok
  rw [← covered_ofSnapshot_iff hb hs hok, ← hstart.touchComplete_iff]
  refine forall_prefix_iff_allSteps (fun t d h hd => h.delta hd) (fun t d h hd ht => ?_) hstart hds
  rw [h.touchComplete_iff] at ht
  rw [(h.delta hd).touchComplete_iff]
  exact h.covered_delta_iff hd ht

/-- A bid one tick above a grid of four levels around 100. -/
def droppedBid : Delta where
  price := 102
  size := 1
  orderCount := 1
  sequence := 11

theorem regular_droppedBid : droppedBid.Regular 1 :=
  ⟨by norm_num [droppedBid], ⟨102, by norm_num [droppedBid]⟩, by norm_num [droppedBid]⟩

/-- The book after the bid and the ask of `touchSnapshot`. -/
def atTouch : Tracked := ofSnapshot (fun _ => []) (.new 1 4) OrderBook.touchSnapshot

theorem getBestBid_droppedBid : (atTouch.delta droppedBid).book.getBestBid = 100 := by
  decide +kernel

theorem last_droppedBid : (atTouch.delta droppedBid).last .bid 102 = some (1, 1) := by
  decide +kernel

theorem not_touchComplete_droppedBid : ¬ (atTouch.delta droppedBid).TouchComplete := by
  have hlive : (atTouch.delta droppedBid).Live .bid 102 :=
    ⟨(1, 1), last_droppedBid, by norm_num [OrderBook.HasSize]⟩
  rintro ⟨hgreatest | ⟨-, hnone⟩, -⟩
  · have hle : (102 : ℚ) ≤ 100 := getBestBid_droppedBid ▸ hgreatest.2 hlive
    norm_num at hle
  · exact hnone 102 hlive

/-- The run of the dropped bid does not meet the condition. -/
theorem touchComplete_run_droppedBid :
    ¬ ((OrderBook.new 1 4).SnapshotKeepsTouch OrderBook.touchSnapshot ∧
      AllSteps delta KeepsTouch atTouch [droppedBid]) := by
  have hall := touchComplete_run_iff one_pos (by norm_num : 2 ≤ 4) (fun _ => [])
    OrderBook.regular_touchSnapshot OrderBook.touchSnapshot_success
    (by simpa using regular_droppedBid : ∀ d ∈ [droppedBid], d.Regular 1)
  exact fun hok => not_touchComplete_droppedBid (hall.mpr hok [droppedBid] (List.prefix_refl _))

/-- **The bid is dropped**: `apply_delta` answers with success and advances the sequence, but the
best bid stays at 100. -/
theorem droppedBid_touch_wrong :
    (atTouch.book.applyDelta droppedBid).1 = .success ∧
      (atTouch.delta droppedBid).book.sequence = 11 ∧
      (atTouch.delta droppedBid).last .bid 102 = some (1, 1) ∧
      (atTouch.delta droppedBid).book.getBestBid = 100 ∧
      ¬ (atTouch.delta droppedBid).TouchComplete :=
  ⟨by decide +kernel, by decide +kernel, last_droppedBid, getBestBid_droppedBid,
    not_touchComplete_droppedBid⟩

end Tracked

end TradingInfrastructure
