import TradingInfrastructure.OrderBook.Grid

/-!
# What a delta and a snapshot do

`Gridded.applyDelta_cases` says once what a delta on a tick does to a gridded book: nothing, a
slot write, a skip, or a move of the grid and a slot write. `Allocated.applySnapshot` says what a
successful snapshot leaves: a grid whose slots hold the last level written at their prices
(`Mirrors`).
-/

namespace TradingInfrastructure

/-- The levels of a snapshot on a side. -/
def Snapshot.levels (s : Snapshot) : Side → List PriceLevel
  | .bid => s.bids
  | .ask => s.asks

/-- What a level writes: at its price, its size and order count. -/
def PriceLevel.entry (level : PriceLevel) : ℚ × (ℚ × ℕ) :=
  (level.price, (level.size, level.orderCount))

/-- What a delta writes on its side. -/
def Delta.entry (d : Delta) : ℚ × (ℚ × ℕ) := (d.price, (d.size, d.orderCount))

/-- The prices of the snapshot are positive multiples of the tick, and its sizes not negative. -/
def Snapshot.Regular (tick : ℚ) (s : Snapshot) : Prop :=
  ∀ side, ∀ level ∈ s.levels side, 0 < level.price ∧ OnTick tick level.price ∧ 0 ≤ level.size

/-- The price of the delta is a positive multiple of the tick, and its size not negative. -/
structure Delta.Regular (tick : ℚ) (d : Delta) : Prop where
  price_pos : 0 < d.price
  onTick : OnTick tick d.price
  size_nonneg : 0 ≤ d.size

namespace OrderBook

variable {b : OrderBook} {side : Side} {i : ℕ}

/-! ## What a delta does -/

/-- The book after a delta that it skips: only the streak and the sequence move. -/
def skipDelta (b : OrderBook) (d : Delta) : OrderBook :=
  { b with outOfRangeStreak := (b.shouldRecenter d).2 }.advanceSequence d

/-- The book after a delta that moves the grid: it is centered on the price, which is stored. -/
def moveAndStore (b : OrderBook) (d : Delta) : OrderBook :=
  (b.recenterGrid d.price).storeDelta d (b.activeLevels / 2)

theorem recenterGrid_withStreak (b : OrderBook) (n : ℕ) (anchor : ℚ) :
    { b with outOfRangeStreak := n }.recenterGrid anchor = b.recenterGrid anchor := rfl

/-- **What a delta does to a gridded book**: it is stale; or its slot is written; or it is outside
the grid and skipped; or it is outside the grid, which is moved so that its slot is written. -/
theorem Gridded.applyDelta_cases (h : b.Gridded) {d : Delta} (hd : d.Regular b.tickSize) :
    (b.stale d = true ∧ b.applyDelta d = (.success, b)) ∨
    (b.stale d = false ∧ ∃ i < b.activeLevels, d.price = b.indexToPrice i ∧
      b.applyDelta d = (.success, b.storeDelta d i)) ∨
    (b.stale d = false ∧ b.priceToIndex d.price = none ∧ (b.shouldRecenter d).1 = false ∧
      b.applyDelta d = (.success, b.skipDelta d)) ∨
    (b.stale d = false ∧ b.priceToIndex d.price = none ∧ (b.shouldRecenter d).1 = true ∧
      b.applyDelta d = (.success, b.moveAndStore d)) := by
  have hsize : ¬ d.size < 0 := not_lt.mpr hd.size_nonneg
  cases hstale : b.stale d with
  | true =>
    left
    exact ⟨rfl, by simp [applyDelta, h.initialized, hsize, hstale]⟩
  | false =>
    right
    cases hidx : b.priceToIndex d.price with
    | some i =>
      left
      obtain ⟨hi, hp⟩ := (h.priceToIndex_eq_some hd.onTick).mp hidx
      exact ⟨rfl, i, hi, hp, by simp [applyDelta, h.initialized, hsize, hstale, hidx]⟩
    | none =>
      right
      cases hrec : (b.shouldRecenter d).1 with
      | false =>
        left
        exact ⟨rfl, rfl, rfl,
          by simp [applyDelta, h.initialized, hsize, hstale, hidx, hrec, skipDelta]⟩
      | true =>
        right
        -- the moved grid has a slot for the price it is centered on
        obtain ⟨hanchor, hslot⟩ := h.anchor_inWindow d.price
        have hmoved := (h.recenterGrid hd.onTick).priceToIndex_indexToPrice hslot
        rw [← hanchor] at hmoved
        refine ⟨rfl, rfl, rfl, ?_⟩
        simp only [applyDelta, recenterGrid_withStreak]
        simp [h.initialized, hsize, hstale, hidx, hrec, hmoved, moveAndStore]

theorem sameWindow_skipDelta (b : OrderBook) (d : Delta) :
    SameWindow (b.skipDelta d) b ∧ (b.skipDelta d).grid = b.grid := by
  unfold skipDelta advanceSequence
  split <;> exact ⟨⟨rfl, rfl, rfl, rfl⟩, by funext s; cases s <;> rfl⟩

theorem shown_skipDelta (b : OrderBook) (d : Delta) (side : Side) :
    (b.skipDelta d).shown side = b.shown side :=
  (b.sameWindow_skipDelta d).1.shown (congrFun (b.sameWindow_skipDelta d).2 side)

theorem Gridded.moved (h : b.Gridded) {d : Delta} (hd : d.Regular b.tickSize) :
    b.activeLevels / 2 < (b.recenterGrid d.price).activeLevels ∧
      d.price = (b.recenterGrid d.price).indexToPrice (b.activeLevels / 2) ∧
      (b.recenterGrid d.price).Gridded :=
  ⟨(h.anchor_inWindow d.price).2, (h.anchor_inWindow d.price).1, h.recenterGrid hd.onTick⟩

/-- The moved grid shows the delta at its price. -/
theorem Gridded.shown_moveAndStore (h : b.Gridded) {d : Delta} (hd : d.Regular b.tickSize) :
    (b.moveAndStore d).shown d.side = Function.update ((b.recenterGrid d.price).shown d.side)
      d.price (some (d.size, d.orderCount)) := by
  obtain ⟨hslot, hprice, hmoved⟩ := h.moved hd
  exact hmoved.shown_storeDelta d hslot hprice

theorem shown_moveAndStore_of_ne (b : OrderBook) {d : Delta} (hs : side ≠ d.side) :
    (b.moveAndStore d).shown side = (b.recenterGrid d.price).shown side :=
  shown_storeDelta_of_ne _ d _ hs

@[simp] theorem tickSize_storeDelta (b : OrderBook) (d : Delta) (i : ℕ) :
    (b.storeDelta d i).tickSize = b.tickSize :=
  (b.storeDelta_eq d i).1.tickSize.trans (b.sameWindow_setSlot _ _ _ _).tickSize

/-- A delta keeps the book gridded, on the same tick. -/
theorem Gridded.applyDelta (h : b.Gridded) {d : Delta} (hd : d.Regular b.tickSize) :
    (b.applyDelta d).2.Gridded ∧ (b.applyDelta d).2.tickSize = b.tickSize := by
  rcases h.applyDelta_cases hd with ⟨-, he⟩ | ⟨-, i, -, -, he⟩ | ⟨-, -, -, he⟩ | ⟨-, -, -, he⟩ <;>
    rw [he]
  · exact ⟨h, rfl⟩
  · exact ⟨h.storeDelta d i, tickSize_storeDelta b d i⟩
  · exact ⟨(h.withStreak _).advanceSequence d, (b.sameWindow_skipDelta d).1.tickSize⟩
  · exact ⟨(h.recenterGrid hd.onTick).storeDelta d _, tickSize_storeDelta _ d _⟩

/-! ## What a snapshot leaves -/

/-- Every slot of the side holds what was last written at its price, or nothing. -/
def Mirrors (b : OrderBook) (side : Side) (last : ℚ → Option (ℚ × ℕ)) : Prop :=
  ∀ i < b.activeLevels, (b.grid side).cell i = (last (b.indexToPrice i)).getD (0, 0)

theorem Mirrors.congr {b' : OrderBook} {last : ℚ → Option (ℚ × ℕ)} (hm : b.Mirrors side last)
    (hw : SameWindow b' b) (hg : b'.grid side = b.grid side) : b'.Mirrors side last := by
  intro i hi
  rw [hg, hw.indexToPrice, hm i (hw.activeLevels ▸ hi)]

theorem Gridded.writeLevel_cases (h : b.Gridded) (side : Side) {level : PriceLevel}
    (hl : OnTick b.tickSize level.price) :
    (∃ i < b.activeLevels, level.price = b.indexToPrice i ∧
      writeLevel side b level = b.setSlot side i level.size level.orderCount) ∨
    ((∀ i < b.activeLevels, level.price ≠ b.indexToPrice i) ∧ writeLevel side b level = b) := by
  cases hidx : b.priceToIndex level.price with
  | some i =>
    obtain ⟨hi, hp⟩ := (h.priceToIndex_eq_some hl).mp hidx
    exact Or.inl ⟨i, hi, hp, by simp [writeLevel, hidx]⟩
  | none =>
    refine Or.inr ⟨fun i hi hp => ?_, by simp [writeLevel, hidx]⟩
    rw [hp, h.priceToIndex_indexToPrice hi] at hidx
    cases hidx

/-- One level of a snapshot: the window and the other side are left alone, and the slots mirror
the writes with it. -/
theorem Gridded.writeLevel (h : b.Gridded) (side : Side) {level : PriceLevel}
    (hl : OnTick b.tickSize level.price) {last : ℚ → Option (ℚ × ℕ)} (hm : b.Mirrors side last) :
    (writeLevel side b level).Gridded ∧ SameWindow (writeLevel side b level) b ∧
      (∀ side', side' ≠ side → (writeLevel side b level).grid side' = b.grid side') ∧
      (writeLevel side b level).Mirrors side
        (Function.update last level.price (some (level.size, level.orderCount))) := by
  rcases h.writeLevel_cases side hl with ⟨i, hi, hp, he⟩ | ⟨hout, he⟩
  · rw [he]
    have hw := b.sameWindow_setSlot side i level.size level.orderCount
    refine ⟨h.setSlot .., hw, fun _ hs => grid_setSlot_of_ne b hs .., fun j hj => ?_⟩
    have hj' : j < b.activeLevels := hw.activeLevels ▸ hj
    rw [grid_setSlot_self, SideGrid.cell_set (h.grid side) (hi.trans_le h.active_le),
      hw.indexToPrice, hp]
    by_cases hji : j = i
    · subst hji
      simp
    · rw [if_neg hji, Function.update_of_ne (mt h.indexToPrice_inj.mp hji), hm j hj']
  · rw [he]
    refine ⟨h, ⟨rfl, rfl, rfl, rfl⟩, fun _ _ => rfl, fun j hj => ?_⟩
    rw [Function.update_of_ne (hout j hj).symm, hm j hj]

/-- The levels of one side of a snapshot. -/
theorem Gridded.writeLevels (side : Side) (levels : List PriceLevel) :
    ∀ {b : OrderBook} {ws : List (ℚ × (ℚ × ℕ))}, b.Gridded →
      (∀ level ∈ levels, OnTick b.tickSize level.price) → b.Mirrors side (lastWrite ws) →
      (levels.foldl (OrderBook.writeLevel side) b).Gridded ∧
        SameWindow (levels.foldl (OrderBook.writeLevel side) b) b ∧
        (∀ side', side' ≠ side →
          (levels.foldl (OrderBook.writeLevel side) b).grid side' = b.grid side') ∧
        (levels.foldl (OrderBook.writeLevel side) b).Mirrors side
          (lastWrite (ws ++ levels.map PriceLevel.entry)) := by
  induction levels with
  | nil =>
    intro b ws h _ hm
    exact ⟨h, ⟨rfl, rfl, rfl, rfl⟩, fun _ _ => rfl, by simpa using hm⟩
  | cons level levels ih =>
    intro b ws h hticks hm
    obtain ⟨h', hw', hg', hm'⟩ := h.writeLevel side (hticks level (by simp)) hm
    rw [← lastWrite_append_singleton] at hm'
    have hticks' : ∀ l ∈ levels, OnTick (OrderBook.writeLevel side b level).tickSize l.price := by
      intro l hl
      rw [hw'.tickSize]
      exact hticks l (by simp [hl])
    obtain ⟨h'', hw'', hg'', hm''⟩ := ih h' hticks' hm'
    refine ⟨h'', ⟨hw''.1.trans hw'.1, hw''.2.trans hw'.2, hw''.3.trans hw'.3,
      hw''.4.trans hw'.4⟩, fun s hs => (hg'' s hs).trans (hg' s hs), ?_⟩
    simpa [PriceLevel.entry] using hm''

/-- A snapshot uses at least two levels, and no more than the arrays have. -/
theorem computeSnapshotActiveLevels_bounds (h2 : 2 ≤ b.maxLevels) (bestBid : ℚ) :
    2 ≤ b.computeSnapshotActiveLevels bestBid ∧
      b.computeSnapshotActiveLevels bestBid ≤ b.maxLevels := by
  simp only [computeSnapshotActiveLevels, minActiveLevels]
  split <;> omega

theorem onTick_computeSnapshotBasePrice {bestBid : ℚ} (hp : OnTick b.tickSize bestBid) (n : ℕ) :
    OnTick b.tickSize (b.computeSnapshotBasePrice bestBid n) := by
  simp only [computeSnapshotBasePrice]
  split
  · exact hp.sub (.natCast_mul _ _)
  · exact ⟨1, by simp⟩

/-- The empty grid a snapshot starts from: as many levels as the price of the best bid allows,
centered on it. -/
def snapshotStart (b : OrderBook) (s : Snapshot) : OrderBook :=
  let bestBid := (s.bids.headD default).price
  b.startSnapshot s (b.computeSnapshotActiveLevels bestBid)
    (b.computeSnapshotBasePrice bestBid (b.computeSnapshotActiveLevels bestBid))

/-- **What a successful snapshot does**: it writes its levels into the grid it starts from. -/
theorem applySnapshot_success {bytesOf : ℚ → List UInt8} {s : Snapshot}
    (h : (b.applySnapshot bytesOf s).1 = .success) :
    s.bids ≠ [] ∧ (b.applySnapshot bytesOf s).2 =
      s.asks.foldl (OrderBook.writeLevel .ask)
        (s.bids.foldl (OrderBook.writeLevel .bid) (b.snapshotStart s)) := by
  unfold applySnapshot at h ⊢
  split at h
  · next bid bids ask asks hb ha =>
    have hstart : b.snapshotStart s = b.startSnapshot s (b.computeSnapshotActiveLevels bid.price)
        (b.computeSnapshotBasePrice bid.price (b.computeSnapshotActiveLevels bid.price)) := by
      simp [snapshotStart, hb]
    simp only [hb, ha] at h ⊢
    rw [hstart]
    split_ifs at h ⊢
    exact ⟨by simp, rfl⟩
  · cases h

theorem Allocated.gridded_snapshotStart (hb : b.Allocated) {s : Snapshot}
    (hs : s.Regular b.tickSize) (hbids : s.bids ≠ []) : (b.snapshotStart s).Gridded := by
  obtain ⟨bid, bids, hcons⟩ := List.exists_cons_of_ne_nil hbids
  have hbid : OnTick b.tickSize (s.bids.headD default).price := by
    rw [hcons, List.headD_cons]
    exact (hs .bid bid (by simp [Snapshot.levels, hcons])).2.1
  obtain ⟨hpos, hle⟩ := computeSnapshotActiveLevels_bounds hb.two_le (s.bids.headD default).price
  exact {
    tick_pos := hb.tick_pos
    two_le := hb.two_le
    bids := hb.bids.clear
    asks := hb.asks.clear
    scratchBids := hb.scratchBids
    scratchAsks := hb.scratchAsks
    initialized := rfl
    base_onTick := onTick_computeSnapshotBasePrice hbid _
    active_pos := by
      change 0 < b.computeSnapshotActiveLevels _
      omega
    active_le := hle }

theorem mirrors_snapshotStart (b : OrderBook) (s : Snapshot) (side : Side) :
    (b.snapshotStart s).Mirrors side (lastWrite []) := by
  intro i _
  cases side <;> exact SideGrid.cell_clear _ i

/-- **What a successful snapshot leaves**: a gridded book, with the window the snapshot started
from, whose slots hold the last levels written at their prices. -/
theorem Allocated.applySnapshot (hb : b.Allocated) {bytesOf : ℚ → List UInt8} {s : Snapshot}
    (hs : s.Regular b.tickSize) (h : (b.applySnapshot bytesOf s).1 = .success) :
    (b.applySnapshot bytesOf s).2.Gridded ∧
      SameWindow (b.applySnapshot bytesOf s).2 (b.snapshotStart s) ∧
      ∀ side, (b.applySnapshot bytesOf s).2.Mirrors side
        (lastWrite ((s.levels side).map PriceLevel.entry)) := by
  obtain ⟨hbids, he⟩ := applySnapshot_success h
  have hstart := hb.gridded_snapshotStart hs hbids
  have hticks : ∀ side, ∀ level ∈ s.levels side, OnTick (b.snapshotStart s).tickSize level.price :=
    fun side level hl => (hs side level hl).2.1
  obtain ⟨h₁, hw₁, hg₁, hm₁⟩ := hstart.writeLevels .bid s.bids (hticks .bid)
    (b.mirrors_snapshotStart s .bid)
  have hask := (b.mirrors_snapshotStart s .ask).congr hw₁ (hg₁ .ask (by decide))
  obtain ⟨h₂, hw₂, hg₂, hm₂⟩ := h₁.writeLevels .ask s.asks
    (by rw [hw₁.tickSize]; exact hticks .ask) hask
  rw [he]
  refine ⟨h₂, ⟨hw₂.1.trans hw₁.1, hw₂.2.trans hw₁.2, hw₂.3.trans hw₁.3, hw₂.4.trans hw₁.4⟩, ?_⟩
  intro side
  cases side
  · exact hm₁.congr hw₂ (hg₂ .bid (by decide))
  · simpa [Snapshot.levels] using hm₂

theorem Gridded.shown_of_mirrors (h : b.Gridded) {last : ℚ → Option (ℚ × ℕ)}
    (hm : b.Mirrors side last) {p : ℚ} {v : ℚ × ℕ} (hsize : HasSize v) :
    b.shown side p = some v ↔ last p = some v ∧ b.HasSlot p := by
  rw [h.shown_eq_some]
  constructor
  · rintro ⟨i, hi, rfl, hcell⟩
    refine ⟨?_, i, hi, rfl⟩
    rw [hm i hi] at hcell
    cases hlast : last (b.indexToPrice i) with
    | none =>
      rw [hlast, Option.getD_none] at hcell
      exact absurd hsize (by simp [← hcell, HasSize])
    | some w => rw [← hcell, hlast, Option.getD_some]
  · rintro ⟨hlast, i, hi, rfl⟩
    exact ⟨i, hi, rfl, by rw [hm i hi, hlast, Option.getD_some]⟩

end OrderBook

end TradingInfrastructure
