import TradingInfrastructure.OrderBook.Basic
import TradingInfrastructure.Foundations.PartialView

/-!
# What the grid shows

When the prices are multiples of the tick, the arrays of a side are a view of a map from prices
to levels: `shown` gives the size and the order count at a price of the grid. Each operation of
the book is described once, by what it does to the view: a slot write updates it
(`shown_storeDelta`), moving the grid restricts it to the new window (`shown_recenterGrid`), and
a snapshot starts it empty (`shown_startSnapshot`). The readers see the view in order of price
(`bestPrice_spec`, `topLevels_pairwise`).
-/

namespace TradingInfrastructure

/-! ## Prices on ticks -/

/-- The price is a multiple of the tick. -/
def OnTick (tick p : ℚ) : Prop := ∃ k : ℤ, p = k * tick

/-- A price on the side comes ahead of another one. -/
def Side.Ahead : Side → ℚ → ℚ → Prop
  | .bid, p, q => q < p
  | .ask, p, q => p < q

theorem Side.Ahead.trans {side : Side} {p q r : ℚ} (h : side.Ahead p q) (h' : side.Ahead q r) :
    side.Ahead p r := by
  cases side
  · exact lt_trans h' h
  · exact lt_trans h h'

instance (side : Side) : IsTrans ℚ side.Ahead := ⟨fun _ _ _ => Side.Ahead.trans⟩

theorem llround_intCast (k : ℤ) : llround k = k := by
  have h : ∀ k : ℤ, ⌊(k : ℚ) + 1 / 2⌋ = k := by
    intro k
    rw [Int.floor_eq_iff]
    constructor <;> linarith
  unfold llround
  split
  · exact h k
  · have hneg := h (-k)
    push_cast at hneg
    rw [hneg, neg_neg]

theorem OnTick.sub {tick p q : ℚ} (hp : OnTick tick p) (hq : OnTick tick q) :
    OnTick tick (p - q) := by
  obtain ⟨k, rfl⟩ := hp
  obtain ⟨l, rfl⟩ := hq
  exact ⟨k - l, by push_cast; ring⟩

theorem OnTick.add {tick p q : ℚ} (hp : OnTick tick p) (hq : OnTick tick q) :
    OnTick tick (p + q) := by
  obtain ⟨k, rfl⟩ := hp
  obtain ⟨l, rfl⟩ := hq
  exact ⟨k + l, by push_cast; ring⟩

theorem onTick_sum {tick : ℚ} {l : List ℚ} (h : ∀ q ∈ l, OnTick tick q) : OnTick tick l.sum := by
  induction l with
  | nil => exact ⟨0, by simp⟩
  | cons q l ih =>
    rw [List.sum_cons]
    exact (h q (by simp)).add (ih fun r hr => h r (by simp [hr]))

theorem OnTick.natCast_mul (tick : ℚ) (n : ℕ) : OnTick tick (n * tick) := ⟨n, by simp⟩

/-- The rounded number of ticks in a multiple of the tick is exact. -/
theorem OnTick.llround_div {tick p : ℚ} (ht : 0 < tick) (hp : OnTick tick p) :
    (llround (p / tick) : ℚ) * tick = p := by
  obtain ⟨k, rfl⟩ := hp
  rw [mul_div_cancel_right₀ _ ht.ne', llround_intCast]

/-! ## The arrays of a side -/

namespace SideGrid

/-- Both arrays have `n` slots. -/
structure HasSlots (g : SideGrid) (n : ℕ) : Prop where
  sizes : g.sizes.length = n
  orderCounts : g.orderCounts.length = n

/-- The size and the order count of a slot. -/
def cell (g : SideGrid) (i : ℕ) : ℚ × ℕ := (g.size i, g.orderCount i)

theorem hasSlots_zero (n : ℕ) : (zero n).HasSlots n := ⟨by simp [zero], by simp [zero]⟩

variable {g scratch : SideGrid} {n : ℕ}

theorem HasSlots.clear (h : g.HasSlots n) : g.clear.HasSlots n :=
  ⟨by simp [SideGrid.clear, h.sizes], by simp [SideGrid.clear, h.orderCounts]⟩

theorem HasSlots.set (h : g.HasSlots n) (i : ℕ) (size : ℚ) (count : ℕ) :
    (g.set i size count).HasSlots n :=
  ⟨by simp [SideGrid.set, h.sizes], by simp [SideGrid.set, h.orderCounts]⟩

theorem HasSlots.shiftInto (h : scratch.HasSlots n) (levels : ℕ) (shift : ℤ) :
    (shiftInto levels shift g scratch).HasSlots n :=
  ⟨by simp [SideGrid.shiftInto, h.clear.sizes], by simp [SideGrid.shiftInto, h.clear.orderCounts]⟩

@[simp] theorem cell_clear (g : SideGrid) (i : ℕ) : g.clear.cell i = (0, 0) := by
  simp [cell, size, orderCount, clear]

theorem cell_set (h : g.HasSlots n) {i : ℕ} (hi : i < n) (size : ℚ) (count j : ℕ) :
    (g.set i size count).cell j = if j = i then (size, count) else g.cell j := by
  have hs : i < g.sizes.length := h.sizes ▸ hi
  have hc : i < g.orderCounts.length := h.orderCounts ▸ hi
  split
  · next hj =>
    subst hj
    simp [cell, SideGrid.size, orderCount, set, List.getD_eq_getElem?_getD, hs, hc]
  · next hj =>
    simp [cell, SideGrid.size, orderCount, set, List.getD_eq_getElem?_getD, Ne.symm hj]

/-- **The copy loop**: a slot holds what the window had there before, or nothing. -/
theorem cell_shiftInto (h : scratch.HasSlots n) {levels j : ℕ} (hl : levels ≤ n) (hj : j < levels)
    (shift : ℤ) : (shiftInto levels shift g scratch).cell j =
      if 0 ≤ (j : ℤ) - shift ∧ (j : ℤ) - shift < levels then g.cell ((j : ℤ) - shift).toNat
      else (0, 0) := by
  have hs : j < scratch.clear.sizes.length := by rw [h.clear.sizes]; omega
  have hc : j < scratch.clear.orderCounts.length := by rw [h.clear.orderCounts]; omega
  have hblank : (scratch.clear.sizes.getD j 0, scratch.clear.orderCounts.getD j 0) = (0, 0) :=
    cell_clear scratch j
  simp only [cell, size, orderCount, shiftInto, getD_shiftCells levels shift _ _ hj hs,
    getD_shiftCells levels shift _ _ hj hc]
  split
  · rfl
  · exact hblank

end SideGrid

namespace OrderBook

/-- The price is that of a slot. -/
def HasSlot (b : OrderBook) (p : ℚ) : Prop := ∃ i < b.activeLevels, p = b.indexToPrice i

/-! ## Well-formed books -/

/-- The book as the constructor allocates it. -/
structure Allocated (b : OrderBook) : Prop where
  tick_pos : 0 < b.tickSize
  two_le : 2 ≤ b.maxLevels
  bids : b.bids.HasSlots b.maxLevels
  asks : b.asks.HasSlots b.maxLevels
  scratchBids : b.scratchBids.HasSlots b.maxLevels
  scratchAsks : b.scratchAsks.HasSlots b.maxLevels

/-- A book with a grid whose base is on a tick. -/
structure Gridded (b : OrderBook) : Prop extends b.Allocated where
  initialized : b.initialized = true
  base_onTick : OnTick b.tickSize b.basePrice
  active_pos : 0 < b.activeLevels
  active_le : b.activeLevels ≤ b.maxLevels

theorem allocated_new {tick : ℚ} (ht : 0 < tick) {maxLevels : ℕ} (hm : 2 ≤ maxLevels) :
    (new tick maxLevels).Allocated :=
  have h := SideGrid.hasSlots_zero maxLevels
  ⟨ht, hm, h, h, h, h⟩

variable {b : OrderBook} {side : Side} {p : ℚ} {i : ℕ}

theorem Allocated.grid (h : b.Allocated) (side : Side) : (b.grid side).HasSlots b.maxLevels := by
  cases side
  · exact h.bids
  · exact h.asks

theorem Gridded.onTick_indexToPrice (h : b.Gridded) (i : ℕ) :
    OnTick b.tickSize (b.indexToPrice i) := by
  obtain ⟨k, hk⟩ := h.base_onTick
  exact ⟨k + i, by rw [indexToPrice, hk]; push_cast; ring⟩

theorem Gridded.indexToPrice_lt (h : b.Gridded) {i j : ℕ} :
    b.indexToPrice i < b.indexToPrice j ↔ i < j := by
  rw [indexToPrice, indexToPrice, add_lt_add_iff_left, mul_lt_mul_iff_left₀ h.tick_pos]
  exact_mod_cast Iff.rfl

theorem Gridded.indexToPrice_inj (h : b.Gridded) {i j : ℕ} :
    b.indexToPrice i = b.indexToPrice j ↔ i = j := by
  constructor
  · intro he
    rcases lt_trichotomy i j with hij | hij | hij
    · exact absurd he (h.indexToPrice_lt.mpr hij).ne
    · exact hij
    · exact absurd he (h.indexToPrice_lt.mpr hij).ne'
  · rintro rfl
    rfl

/-- **The index of a price on a tick is exact**: it is found exactly at the prices of the slots. -/
theorem Gridded.priceToIndex_eq_some (h : b.Gridded) (hp : OnTick b.tickSize p) :
    b.priceToIndex p = some i ↔ i < b.activeLevels ∧ p = b.indexToPrice i := by
  have hround := (hp.sub h.base_onTick).llround_div h.tick_pos
  set k := llround ((p - b.basePrice) / b.tickSize) with hk
  have hprice : ∀ i : ℕ, p = b.indexToPrice i ↔ k = i := by
    intro i
    have hcancel : k * b.tickSize = i * b.tickSize ↔ k = i := by
      rw [mul_left_inj' h.tick_pos.ne']
      exact_mod_cast Iff.rfl
    rw [← hcancel, hround, indexToPrice]
    constructor <;> intro <;> linarith
  simp only [priceToIndex, h.initialized, if_true, ← hk, hprice]
  split
  · next hout =>
    constructor
    · intro hc
      cases hc
    · omega
  · next hin =>
    rw [Option.some.injEq]
    omega

theorem Gridded.priceToIndex_indexToPrice (h : b.Gridded) (hi : i < b.activeLevels) :
    b.priceToIndex (b.indexToPrice i) = some i :=
  (h.priceToIndex_eq_some (h.onTick_indexToPrice i)).mpr ⟨hi, rfl⟩

/-! ## The view of a side -/

/-- What the grid shows at a price: the size and the order count of its slot. -/
def shown (b : OrderBook) (side : Side) (p : ℚ) : Option (ℚ × ℕ) :=
  (b.priceToIndex p).bind fun i =>
    if b.indexToPrice i = p then some ((b.grid side).cell i) else none

/-- A size and an order count with a size are a level that the readers return. -/
def HasSize (v : ℚ × ℕ) : Prop := 0 < v.1

theorem Gridded.shown_eq_some (h : b.Gridded) {v : ℚ × ℕ} :
    b.shown side p = some v ↔
      ∃ i < b.activeLevels, p = b.indexToPrice i ∧ (b.grid side).cell i = v := by
  simp only [shown, Option.bind_eq_some_iff, Option.ite_none_right_eq_some, Option.some.injEq]
  constructor
  · rintro ⟨i, hi, rfl, hv⟩
    obtain ⟨hlt, -⟩ := (h.priceToIndex_eq_some (h.onTick_indexToPrice i)).mp hi
    exact ⟨i, hlt, rfl, hv⟩
  · rintro ⟨i, hi, rfl, hv⟩
    exact ⟨i, h.priceToIndex_indexToPrice hi, rfl, hv⟩

theorem Gridded.shown_indexToPrice (h : b.Gridded) (side : Side) (hi : i < b.activeLevels) :
    b.shown side (b.indexToPrice i) = some ((b.grid side).cell i) :=
  h.shown_eq_some.mpr ⟨i, hi, rfl, rfl⟩

/-- A price on a tick outside the grid is not shown. -/
theorem shown_of_priceToIndex_none (hp : b.priceToIndex p = none) (side : Side) :
    b.shown side p = none := by
  simp [shown, hp]

/-- The two books have their slots at the same prices. -/
structure SameWindow (b' b : OrderBook) : Prop where
  tickSize : b'.tickSize = b.tickSize
  activeLevels : b'.activeLevels = b.activeLevels
  basePrice : b'.basePrice = b.basePrice
  initialized : b'.initialized = b.initialized

theorem SameWindow.priceToIndex {b' : OrderBook} (h : SameWindow b' b) (p : ℚ) :
    b'.priceToIndex p = b.priceToIndex p := by
  obtain ⟨ht, ha, hb, hi⟩ := h
  cases b'
  cases b
  simp only at ht ha hb hi
  subst ht ha hb hi
  rfl

theorem SameWindow.indexToPrice {b' : OrderBook} (h : SameWindow b' b) (i : ℕ) :
    b'.indexToPrice i = b.indexToPrice i := by
  simp only [OrderBook.indexToPrice, h.basePrice, h.tickSize]

/-- Books with the same window and the same arrays of a side show the same on it. -/
theorem SameWindow.shown {b' : OrderBook} (h : SameWindow b' b)
    (hgrid : b'.grid side = b.grid side) : b'.shown side = b.shown side := by
  funext p
  simp only [OrderBook.shown, h.priceToIndex, h.indexToPrice, hgrid]

/-! ## Writes -/

@[simp] theorem grid_setSlot_self (b : OrderBook) (side : Side) (i : ℕ) (size : ℚ) (count : ℕ) :
    (b.setSlot side i size count).grid side = (b.grid side).set i size count := by
  cases side <;> rfl

theorem grid_setSlot_of_ne (b : OrderBook) {side side' : Side} (h : side' ≠ side) (i : ℕ)
    (size : ℚ) (count : ℕ) : (b.setSlot side i size count).grid side' = b.grid side' := by
  cases side <;> cases side' <;> first | rfl | exact absurd rfl h

theorem sameWindow_setSlot (b : OrderBook) (side : Side) (i : ℕ) (size : ℚ) (count : ℕ) :
    SameWindow (b.setSlot side i size count) b := by
  cases side <;> exact ⟨rfl, rfl, rfl, rfl⟩

theorem Gridded.setSlot (h : b.Gridded) (side : Side) (i : ℕ) (size : ℚ) (count : ℕ) :
    (b.setSlot side i size count).Gridded := by
  cases side
  · exact { h with bids := h.bids.set i size count }
  · exact { h with asks := h.asks.set i size count }

/-- **A slot write updates the view at the price of the slot.** -/
theorem Gridded.shown_setSlot (h : b.Gridded) (side : Side) (hi : i < b.activeLevels)
    (size : ℚ) (count : ℕ) :
    (b.setSlot side i size count).shown side =
      Function.update (b.shown side) (b.indexToPrice i) (some (size, count)) := by
  have hw := b.sameWindow_setSlot side i size count
  have hcell := SideGrid.cell_set (h.grid side) (hi.trans_le h.active_le) size count
  funext q
  by_cases hq : q = b.indexToPrice i
  · subst hq
    rw [Function.update_self]
    simp [shown, hw.priceToIndex, hw.indexToPrice, h.priceToIndex_indexToPrice hi, hcell]
  · rw [Function.update_of_ne hq]
    simp only [shown, hw.priceToIndex, hw.indexToPrice, grid_setSlot_self]
    refine Option.bind_congr fun j hj => ?_
    split
    · next hprice =>
      have hji : j ≠ i := by
        rintro rfl
        exact hq hprice.symm
      rw [hcell, if_neg hji]
    · rfl

theorem shown_setSlot_of_ne (b : OrderBook) {side side' : Side} (h : side' ≠ side) (i : ℕ)
    (size : ℚ) (count : ℕ) : (b.setSlot side i size count).shown side' = b.shown side' :=
  (b.sameWindow_setSlot side i size count).shown (grid_setSlot_of_ne b h i size count)

/-- The book after a delta has been stored: its window is the old one, its sequence that of the
delta. -/
theorem storeDelta_eq (b : OrderBook) (d : Delta) (i : ℕ) :
    SameWindow (b.storeDelta d i) (b.setSlot d.side i d.size d.orderCount) ∧
      (b.storeDelta d i).grid = (b.setSlot d.side i d.size d.orderCount).grid := by
  unfold storeDelta advanceSequence setSlot
  cases d.side <;> split <;> exact ⟨⟨rfl, rfl, rfl, rfl⟩, by funext s; cases s <;> rfl⟩

theorem Gridded.withStreak (h : b.Gridded) (n : ℕ) : { b with outOfRangeStreak := n }.Gridded :=
  { h with }

theorem Gridded.advanceSequence (h : b.Gridded) (d : Delta) : (b.advanceSequence d).Gridded := by
  unfold OrderBook.advanceSequence
  split <;> exact { h with }

theorem Gridded.storeDelta (h : b.Gridded) (d : Delta) (i : ℕ) : (b.storeDelta d i).Gridded :=
  ((h.withStreak 0).setSlot d.side i d.size d.orderCount).advanceSequence d

theorem Gridded.shown_storeDelta (h : b.Gridded) (d : Delta) (hi : i < b.activeLevels)
    (hp : d.price = b.indexToPrice i) :
    (b.storeDelta d i).shown d.side =
      Function.update (b.shown d.side) d.price (some (d.size, d.orderCount)) := by
  obtain ⟨hw, hg⟩ := b.storeDelta_eq d i
  rw [hw.shown (congrFun hg d.side), h.shown_setSlot d.side hi, hp]

theorem shown_storeDelta_of_ne (b : OrderBook) (d : Delta) (i : ℕ) (hs : side ≠ d.side) :
    (b.storeDelta d i).shown side = b.shown side := by
  obtain ⟨hw, hg⟩ := b.storeDelta_eq d i
  rw [hw.shown (congrFun hg side), shown_setSlot_of_ne b hs]

/-! ## Moving the grid -/

/-- The price has a slot once the grid is centered on the anchor. -/
def InWindow (b : OrderBook) (anchor p : ℚ) : Prop := (b.recenterGrid anchor).HasSlot p

theorem Gridded.recenterGrid (h : b.Gridded) {anchor : ℚ} (ha : OnTick b.tickSize anchor) :
    (b.recenterGrid anchor).Gridded where
  tick_pos := h.tick_pos
  two_le := h.two_le
  bids := h.scratchBids.shiftInto _ _
  asks := h.scratchAsks.shiftInto _ _
  scratchBids := h.bids
  scratchAsks := h.asks
  initialized := h.initialized
  base_onTick := ha.sub (.natCast_mul _ _)
  active_pos := h.active_pos
  active_le := h.active_le

/-- The anchor is in the window that is centered on it. -/
theorem Gridded.anchor_inWindow (h : b.Gridded) (anchor : ℚ) :
    anchor = (b.recenterGrid anchor).indexToPrice (b.activeLevels / 2) ∧
      b.activeLevels / 2 < b.activeLevels := by
  refine ⟨?_, Nat.div_lt_self h.active_pos (by omega)⟩
  simp [indexToPrice, OrderBook.recenterGrid]

/-- A slot of the moved grid has what the old grid showed at its price, or nothing. -/
theorem Gridded.cell_recenterGrid (h : b.Gridded) {anchor : ℚ} (ha : OnTick b.tickSize anchor)
    (side : Side) {j : ℕ} (hj : j < b.activeLevels) :
    ((b.recenterGrid anchor).grid side).cell j =
      (b.shown side ((b.recenterGrid anchor).indexToPrice j)).getD (0, 0) := by
  have hscratch : ∃ scratch : SideGrid, scratch.HasSlots b.maxLevels ∧
      (b.recenterGrid anchor).grid side = (b.grid side).shiftInto b.activeLevels
        (llround ((b.basePrice - (b.recenterGrid anchor).basePrice) / b.tickSize)) scratch := by
    cases side
    · exact ⟨b.scratchBids, h.scratchBids, rfl⟩
    · exact ⟨b.scratchAsks, h.scratchAsks, rfl⟩
  obtain ⟨scratch, hslots, hgrid⟩ := hscratch
  have hbase := (h.recenterGrid ha).base_onTick
  have hround := (h.base_onTick.sub hbase).llround_div h.tick_pos
  rw [hgrid, SideGrid.cell_shiftInto hslots h.active_le hj]
  set shift := llround ((b.basePrice - (b.recenterGrid anchor).basePrice) / b.tickSize)
  -- the price of the slot `j` is that of the slot `j - shift` of the old grid
  have hprice : ∀ i : ℕ, (i : ℤ) = j - shift →
      (b.recenterGrid anchor).indexToPrice j = b.indexToPrice i := by
    intro i hi
    have hi' : (i : ℚ) = j - shift := by exact_mod_cast hi
    have htick : (b.recenterGrid anchor).tickSize = b.tickSize := rfl
    rw [indexToPrice, indexToPrice, hi', htick, sub_mul, hround]
    ring
  split
  · next hin =>
    have hi : ((j : ℤ) - shift).toNat < b.activeLevels := by omega
    rw [hprice _ (Int.toNat_of_nonneg hin.1), h.shown_indexToPrice side hi, Option.getD_some]
  · next hout =>
    cases hs : b.shown side ((b.recenterGrid anchor).indexToPrice j) with
    | none => rfl
    | some v =>
      obtain ⟨i, hi, hpi, -⟩ := h.shown_eq_some.mp hs
      have hji : (i : ℤ) = j - shift := by
        have hmul : ((i : ℚ) - (j - shift)) * b.tickSize = 0 := by
          have htick : (b.recenterGrid anchor).tickSize = b.tickSize := rfl
          rw [indexToPrice, indexToPrice, htick] at hpi
          linarith
        have := (mul_eq_zero.mp hmul).resolve_right h.tick_pos.ne'
        have hq : (i : ℚ) = ((j - shift : ℤ) : ℚ) := by push_cast; linarith
        exact_mod_cast hq
      exact absurd ⟨by omega, by omega⟩ hout

/-- **Moving the grid keeps the levels that stay in the window**, and shows no others. -/
theorem Gridded.shown_recenterGrid (h : b.Gridded) {anchor : ℚ} (ha : OnTick b.tickSize anchor)
    {v : ℚ × ℕ} (hsize : HasSize v) : (b.recenterGrid anchor).shown side p = some v ↔
      b.shown side p = some v ∧ b.InWindow anchor p := by
  rw [(h.recenterGrid ha).shown_eq_some]
  constructor
  · rintro ⟨j, hj, rfl, hcell⟩
    refine ⟨?_, j, hj, rfl⟩
    rw [h.cell_recenterGrid ha side hj] at hcell
    cases hs : b.shown side ((b.recenterGrid anchor).indexToPrice j) with
    | none =>
      rw [hs, Option.getD_none] at hcell
      exact absurd hsize (by simp [← hcell, HasSize])
    | some w => rw [← hcell, hs, Option.getD_some]
  · rintro ⟨hv, j, hj, rfl⟩
    exact ⟨j, hj, rfl, by rw [h.cell_recenterGrid ha side hj, hv, Option.getD_some]⟩

theorem Gridded.holds_recenterGrid (h : b.Gridded) {anchor : ℚ} (ha : OnTick b.tickSize anchor) :
    PartialView.Holds HasSize ((b.recenterGrid anchor).shown side) p ↔
      PartialView.Holds HasSize (b.shown side) p ∧ b.InWindow anchor p := by
  constructor
  · rintro ⟨v, hv, hsize⟩
    obtain ⟨hs, hw⟩ := (h.shown_recenterGrid ha hsize).mp hv
    exact ⟨⟨v, hs, hsize⟩, hw⟩
  · rintro ⟨⟨v, hs, hsize⟩, hw⟩
    exact ⟨v, (h.shown_recenterGrid ha hsize).mpr ⟨hs, hw⟩, hsize⟩

/-! ## The readers -/

theorem mem_slotsFromTouch : i ∈ b.slotsFromTouch side ↔ i < b.activeLevels := by
  cases side <;> simp [slotsFromTouch]

/-- The slots are visited from the best price on. -/
theorem Gridded.slotsFromTouch_pairwise (h : b.Gridded) (side : Side) :
    (b.slotsFromTouch side).Pairwise fun i j =>
      side.Ahead (b.indexToPrice i) (b.indexToPrice j) := by
  cases side
  · rw [slotsFromTouch, List.pairwise_reverse]
    exact List.pairwise_lt_range.imp fun hij => h.indexToPrice_lt.mpr hij
  · exact List.pairwise_lt_range.imp fun hij => h.indexToPrice_lt.mpr hij

/-- The first element of an ordered list that a search accepts is before all others it accepts. -/
theorem find?_spec_of_pairwise {α : Type*} {r : α → α → Prop} {l : List α} (hl : l.Pairwise r)
    {q : α → Bool} {a : α} (ha : l.find? q = some a) :
    a ∈ l ∧ q a = true ∧ ∀ x ∈ l, q x = true → x = a ∨ r a x := by
  obtain ⟨hq, before, after, rfl, hbefore⟩ := List.find?_eq_some_iff_append.mp ha
  refine ⟨by simp, hq, fun x hx hqx => ?_⟩
  rcases List.mem_append.mp hx with hx | hx
  · exact absurd hqx (by simpa using hbefore x hx)
  · rcases List.mem_cons.mp hx with rfl | hx
    · exact Or.inl rfl
    · exact Or.inr ((List.pairwise_cons.mp (List.pairwise_append.mp hl).2.1).1 x hx)

theorem Gridded.holds_shown_iff (h : b.Gridded) : PartialView.Holds HasSize (b.shown side) p ↔
    ∃ i < b.activeLevels, p = b.indexToPrice i ∧ 0 < (b.grid side).size i := by
  constructor
  · rintro ⟨v, hv, hsize⟩
    obtain ⟨i, hi, hp, rfl⟩ := h.shown_eq_some.mp hv
    exact ⟨i, hi, hp, hsize⟩
  · rintro ⟨i, hi, hp, hsize⟩
    exact ⟨_, h.shown_eq_some.mpr ⟨i, hi, hp, rfl⟩, hsize⟩

/-- **The best price of a side** is that of its best level shown, and zero when it shows none. -/
theorem Gridded.bestPrice_spec (h : b.Gridded) (side : Side) :
    PartialView.IsBest side.Ahead (PartialView.Holds HasSize (b.shown side)) (b.bestPrice side) ∨
      (b.bestPrice side = 0 ∧ ∀ p, ¬ PartialView.Holds HasSize (b.shown side) p) := by
  unfold bestPrice
  split
  · next i hi =>
    left
    obtain ⟨hmem, hsize, hbest⟩ := find?_spec_of_pairwise (h.slotsFromTouch_pairwise side) hi
    refine ⟨h.holds_shown_iff.mpr ⟨i, mem_slotsFromTouch.mp hmem, rfl, by simpa using hsize⟩, ?_⟩
    intro p hp
    obtain ⟨j, hj, rfl, hjsize⟩ := h.holds_shown_iff.mp hp
    rcases hbest j (mem_slotsFromTouch.mpr hj) (by simpa using hjsize) with rfl | hahead
    · exact Or.inl rfl
    · exact Or.inr hahead
  · next hnone =>
    right
    refine ⟨rfl, fun p hp => ?_⟩
    obtain ⟨j, hj, -, hjsize⟩ := h.holds_shown_iff.mp hp
    have := List.find?_eq_none.mp hnone j (mem_slotsFromTouch.mpr hj)
    exact this (by simpa using hjsize)

/-- The levels returned are in order of price. -/
theorem Gridded.topLevels_pairwise (h : b.Gridded) (side : Side) (n : ℕ) :
    (b.topLevels side n).Pairwise fun l l' => side.Ahead l.price l'.price := by
  unfold topLevels
  rw [List.pairwise_map]
  exact ((h.slotsFromTouch_pairwise side).filter _).sublist (List.take_sublist _ _)

/-- Every level returned is shown, with a size. -/
theorem Gridded.shown_of_mem_topLevels (h : b.Gridded) {n : ℕ} {level : PriceLevel}
    (hl : level ∈ b.topLevels side n) :
    b.shown side level.price = some (level.size, level.orderCount) ∧
      HasSize (level.size, level.orderCount) := by
  obtain ⟨i, hi, rfl⟩ := List.mem_map.mp hl
  obtain ⟨hmem, hsize⟩ := List.mem_filter.mp (List.mem_of_mem_take hi)
  exact ⟨h.shown_indexToPrice side (mem_slotsFromTouch.mp hmem),
    by simpa [HasSize, levelAt] using hsize⟩

end OrderBook

end TradingInfrastructure
