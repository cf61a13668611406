import TradingInfrastructure.OrderBook.Steps

/-!
# Prices that are on no tick

The slot of a price is the nearest one, so a slot stands for all prices within half a tick. Moving
the grid shifts the slots by whole ticks, while the new base is the anchor's: the slots that stay
keep their arrays, and their prices move by what the anchor is off the ticks of the old grid
(`indexToPrice_recenterGrid`). Here is what a delta of any price does to a book whose active levels
have room in its arrays (`Fitted`), and what the readers return of it.
-/

namespace TradingInfrastructure

/-! ## Rounding -/

theorem llround_of_nonneg {x : ℚ} (h : 0 ≤ x) : llround x = ⌊x + 1 / 2⌋ := if_pos h

theorem llround_of_neg {x : ℚ} (h : x < 0) : llround x = -⌊-x + 1 / 2⌋ := if_neg h.not_ge

/-- **Rounding moves by half at most.** -/
theorem abs_sub_llround_le (x : ℚ) : |x - llround x| ≤ 1 / 2 := by
  rcases le_or_gt 0 x with h | h
  · rw [llround_of_nonneg h, abs_le]
    have hfloor := Int.floor_le (x + 1 / 2)
    have hlt := Int.lt_floor_add_one (x + 1 / 2)
    constructor <;> linarith
  · rw [llround_of_neg h, abs_le]
    have hfloor := Int.floor_le (-x + 1 / 2)
    have hlt := Int.lt_floor_add_one (-x + 1 / 2)
    push_cast
    constructor <;> linarith

theorem nonneg_of_llround_pos {x : ℚ} (h : 0 < llround x) : 0 ≤ x := by
  by_contra hneg
  rw [llround_of_neg (not_le.mp hneg)] at h
  have hfloor : 0 ≤ ⌊-x + 1 / 2⌋ := Int.floor_nonneg.mpr (by linarith)
  omega

theorem neg_of_llround_neg {x : ℚ} (h : llround x < 0) : x < 0 := by
  by_contra hnonneg
  rw [llround_of_nonneg (not_lt.mp hnonneg)] at h
  have hfloor : 0 ≤ ⌊x + 1 / 2⌋ := Int.floor_nonneg.mpr (by linarith)
  omega

/-- The rounded distance of an integer from a number that is rounded beyond it. -/
theorem llround_sub {x : ℚ} {m : ℕ} (h : llround x < 0 ∨ (m : ℤ) < llround x) :
    llround (m - x) = m - llround x := by
  have hm : (0 : ℚ) ≤ m := Nat.cast_nonneg m
  rcases h with h | h
  · have hx := neg_of_llround_neg h
    have hshift : (m : ℚ) - x + 1 / 2 = (-x + 1 / 2) + (m : ℤ) := by
      push_cast
      ring
    rw [llround_of_nonneg (by linarith), llround_of_neg hx, hshift, Int.floor_add_intCast]
    ring
  · have hx : 0 ≤ x := nonneg_of_llround_pos (by omega)
    rw [llround_of_nonneg hx] at h ⊢
    have hfar : (m : ℚ) < x := by
      have hceil : ((m : ℤ) + 1 : ℤ) ≤ ⌊x + 1 / 2⌋ := h
      have hle := Int.le_floor.mp hceil
      push_cast at hle
      linarith
    have hshift : -((m : ℚ) - x) + 1 / 2 = (x + 1 / 2) - (m : ℤ) := by
      push_cast
      ring
    rw [llround_of_neg (by linarith), hshift, Int.floor_sub_intCast]
    ring

namespace OrderBook

/-! ## Books with room for their levels -/

/-- The arrays have the size they were allocated with, and some level is active. -/
structure Sized (b : OrderBook) : Prop where
  tick_pos : 0 < b.tickSize
  active_pos : 0 < b.activeLevels
  bids : b.bids.HasSlots b.maxLevels
  asks : b.asks.HasSlots b.maxLevels
  scratchBids : b.scratchBids.HasSlots b.maxLevels
  scratchAsks : b.scratchAsks.HasSlots b.maxLevels

/-- The active levels have room in the arrays. -/
structure Fitted (b : OrderBook) : Prop extends b.Sized where
  active_le : b.activeLevels ≤ b.maxLevels

variable {b : OrderBook} {d : Delta} {side : Side} {p anchor : ℚ} {i j : ℕ}

theorem Sized.grid (h : b.Sized) (side : Side) : (b.grid side).HasSlots b.maxLevels := by
  cases side
  · exact h.bids
  · exact h.asks

/-- The nearest tick of the grid, in the grid or not. -/
def tickOf (b : OrderBook) (p : ℚ) : ℤ := llround ((p - b.basePrice) / b.tickSize)

/-- What a price is off the nearest tick. -/
def offset (b : OrderBook) (p : ℚ) : ℚ := p - (b.basePrice + b.tickOf p * b.tickSize)

theorem Sized.abs_offset_le (h : b.Sized) (p : ℚ) : |b.offset p| ≤ b.tickSize / 2 := by
  have hround := abs_sub_llround_le ((p - b.basePrice) / b.tickSize)
  have hscale : b.offset p = ((p - b.basePrice) / b.tickSize - b.tickOf p) * b.tickSize := by
    have htick := h.tick_pos.ne'
    unfold offset
    field_simp
    ring
  rw [hscale, abs_mul, abs_of_pos h.tick_pos]
  exact (mul_le_mul_of_nonneg_right hround h.tick_pos.le).trans_eq (by ring)

theorem priceToIndex_eq (hinit : b.initialized = true) (p : ℚ) : b.priceToIndex p =
    if b.tickOf p < 0 ∨ (b.tickOf p).toNat ≥ b.activeLevels then none
    else some (b.tickOf p).toNat :=
  if_pos hinit

theorem priceToIndex_eq_some_iff (hinit : b.initialized = true) :
    b.priceToIndex p = some i ↔ b.tickOf p = i ∧ i < b.activeLevels := by
  rw [priceToIndex_eq hinit]
  split_ifs with hout
  · refine iff_of_false (fun h => by cases h) fun h => ?_
    omega
  · rw [Option.some.injEq]
    omega

theorem priceToIndex_eq_none_iff (hinit : b.initialized = true) :
    b.priceToIndex p = none ↔ b.tickOf p < 0 ∨ (b.activeLevels : ℤ) ≤ b.tickOf p := by
  rw [priceToIndex_eq hinit]
  split_ifs with hout
  · exact iff_of_true rfl (by omega)
  · refine iff_of_false (fun h => by cases h) ?_
    omega

/-- The price of a slot is within half a tick of the prices that have it. -/
theorem Sized.abs_sub_indexToPrice_le (h : b.Sized) (hinit : b.initialized = true)
    (hi : b.priceToIndex p = some i) : |p - b.indexToPrice i| ≤ b.tickSize / 2 := by
  have htick := ((priceToIndex_eq_some_iff hinit).mp hi).1
  have hprice : p - b.indexToPrice i = b.offset p := by
    rw [offset, indexToPrice, htick]
    push_cast
    ring
  rw [hprice]
  exact h.abs_offset_le p

/-! ## Moving the grid -/

/-- Where a slot goes when the grid is centered on the anchor. -/
def moveSlot (b : OrderBook) (anchor : ℚ) (i : ℕ) : ℤ :=
  i + ((b.activeLevels / 2 : ℕ) - b.tickOf anchor)

/-- The slot stays in the grid. -/
def Stays (b : OrderBook) (anchor : ℚ) (i : ℕ) : Prop :=
  0 ≤ b.moveSlot anchor i ∧ b.moveSlot anchor i < b.activeLevels

instance (b : OrderBook) (anchor : ℚ) (i : ℕ) : Decidable (b.Stays anchor i) :=
  inferInstanceAs (Decidable (_ ∧ _))

theorem Sized.shift_eq (h : b.Sized) (hinit : b.initialized = true)
    (hout : b.priceToIndex anchor = none) :
    llround ((b.basePrice - (b.recenterGrid anchor).basePrice) / b.tickSize) =
      (b.activeLevels / 2 : ℕ) - b.tickOf anchor := by
  have hfar := (priceToIndex_eq_none_iff hinit).mp hout
  have hmid : b.activeLevels / 2 < b.activeLevels := Nat.div_lt_self h.active_pos (by omega)
  have hratio : (b.basePrice - (b.recenterGrid anchor).basePrice) / b.tickSize =
      (b.activeLevels / 2 : ℕ) - (anchor - b.basePrice) / b.tickSize := by
    have htick := h.tick_pos.ne'
    simp only [recenterGrid]
    field_simp
    ring
  rw [hratio]
  exact llround_sub (hfar.imp id fun hle => by rw [← tickOf]; omega)

/-- **Moving the grid shifts the arrays** by whole ticks. -/
theorem Fitted.cell_recenterGrid (h : b.Fitted) (hinit : b.initialized = true)
    (hout : b.priceToIndex anchor = none) (side : Side) (hj : j < b.activeLevels) :
    ((b.recenterGrid anchor).grid side).cell j =
      if 0 ≤ (j : ℤ) - ((b.activeLevels / 2 : ℕ) - b.tickOf anchor) ∧
        (j : ℤ) - ((b.activeLevels / 2 : ℕ) - b.tickOf anchor) < b.activeLevels then
        (b.grid side).cell ((j : ℤ) - ((b.activeLevels / 2 : ℕ) - b.tickOf anchor)).toNat
      else (0, 0) := by
  rw [← h.shift_eq hinit hout]
  cases side
  · exact SideGrid.cell_shiftInto h.scratchBids h.active_le hj _
  · exact SideGrid.cell_shiftInto h.scratchAsks h.active_le hj _

/-- A slot that stays takes its cell along. -/
theorem Fitted.cell_moveSlot (h : b.Fitted) (hinit : b.initialized = true)
    (hout : b.priceToIndex anchor = none) (side : Side) (hi : i < b.activeLevels)
    (hstays : b.Stays anchor i) :
    ((b.recenterGrid anchor).grid side).cell (b.moveSlot anchor i).toNat =
      (b.grid side).cell i := by
  obtain ⟨hlow, hhigh⟩ := hstays
  have hback : ((b.moveSlot anchor i).toNat : ℤ) -
      ((b.activeLevels / 2 : ℕ) - b.tickOf anchor) = i := by
    unfold moveSlot at hlow ⊢
    omega
  rw [h.cell_recenterGrid hinit hout side (by omega), hback, if_pos (by omega), Int.toNat_natCast]

/-- A slot of the moved grid that has something has it of a slot that stays. -/
theorem Fitted.exists_stays (h : b.Fitted) (hinit : b.initialized = true)
    (hout : b.priceToIndex anchor = none) (hj : j < b.activeLevels)
    (hsize : 0 < ((b.recenterGrid anchor).grid side).size j) :
    ∃ i < b.activeLevels, b.Stays anchor i ∧ b.moveSlot anchor i = j := by
  have hcell := h.cell_recenterGrid hinit hout side hj
  split_ifs at hcell with hin
  · refine ⟨((j : ℤ) - ((b.activeLevels / 2 : ℕ) - b.tickOf anchor)).toNat, by omega, ?_⟩
    unfold Stays moveSlot
    omega
  · have hzero : ((b.recenterGrid anchor).grid side).size j = 0 := congrArg Prod.fst hcell
    rw [hzero] at hsize
    exact absurd hsize (lt_irrefl 0)

/-- **The prices of the slots that stay** move by what the anchor is off the ticks. -/
theorem indexToPrice_moveSlot (b : OrderBook) (hstays : b.Stays anchor i) :
    (b.recenterGrid anchor).indexToPrice (b.moveSlot anchor i).toNat =
      b.indexToPrice i + b.offset anchor := by
  have hcast : ((b.moveSlot anchor i).toNat : ℚ) = (b.moveSlot anchor i : ℤ) := by
    exact_mod_cast Int.toNat_of_nonneg hstays.1
  rw [indexToPrice, hcast]
  simp only [recenterGrid, moveSlot, indexToPrice, offset]
  generalize b.activeLevels / 2 = middle
  push_cast
  ring

/-- No slot moves to the middle, which the anchor takes. -/
theorem moveSlot_ne_middle (hinit : b.initialized = true) (hout : b.priceToIndex anchor = none)
    (hi : i < b.activeLevels) : b.moveSlot anchor i ≠ (b.activeLevels / 2 : ℕ) := by
  have hfar := (priceToIndex_eq_none_iff hinit).mp hout
  unfold moveSlot
  omega

theorem indexToPrice_middle (b : OrderBook) (anchor : ℚ) :
    (b.recenterGrid anchor).indexToPrice (b.activeLevels / 2) = anchor := by
  simp [indexToPrice, recenterGrid]

theorem Sized.priceToIndex_recenterGrid (h : b.Sized) (hinit : b.initialized = true) :
    (b.recenterGrid anchor).priceToIndex anchor = some (b.activeLevels / 2) := by
  have hmid : b.activeLevels / 2 < b.activeLevels := Nat.div_lt_self h.active_pos (by omega)
  refine (priceToIndex_eq_some_iff (b := b.recenterGrid anchor) hinit).mpr ⟨?_, hmid⟩
  have hratio : (anchor - (b.recenterGrid anchor).basePrice) / b.tickSize =
      ((b.activeLevels / 2 : ℕ) : ℤ) := by
    have htick := h.tick_pos.ne'
    simp only [recenterGrid]
    generalize b.activeLevels / 2 = middle
    field_simp
    push_cast
    ring
  exact (congrArg llround hratio).trans (llround_intCast _)

theorem Sized.recenterGrid (h : b.Sized) (anchor : ℚ) : (b.recenterGrid anchor).Sized where
  tick_pos := h.tick_pos
  active_pos := h.active_pos
  bids := h.scratchBids.shiftInto _ _
  asks := h.scratchAsks.shiftInto _ _
  scratchBids := h.bids
  scratchAsks := h.asks

/-! ## What a delta does -/

/-- The delta is not refused for its size, and the book has not passed it. -/
structure Admits (b : OrderBook) (d : Delta) : Prop where
  size : 0 ≤ d.size
  stale : b.stale d = false

/-- The delta moves the grid. -/
structure Recenters (b : OrderBook) (d : Delta) : Prop extends b.Admits d where
  initialized : b.initialized = true
  outside : b.priceToIndex d.price = none
  recenter : (b.shouldRecenter d).1 = true

theorem applyDelta_of_not_initialized (h : b.initialized = false) : (b.applyDelta d).2 = b := by
  simp [applyDelta, h]

theorem applyDelta_of_not_admits (h : ¬ b.Admits d) : (b.applyDelta d).2 = b := by
  unfold applyDelta
  by_cases hinit : (!b.initialized) = true
  · rw [if_pos hinit]
  · rw [if_neg hinit]
    by_cases hsize : d.size < 0
    · rw [if_pos hsize]
    · rw [if_neg hsize, if_pos]
      by_contra hstale
      exact h ⟨not_lt.mp hsize, by simpa using hstale⟩

theorem Admits.applyDelta_stored (h : b.Admits d) (hinit : b.initialized = true)
    (hi : b.priceToIndex d.price = some i) : (b.applyDelta d).2 = b.storeDelta d i := by
  simp [applyDelta, hinit, not_lt.mpr h.size, h.stale, hi]

theorem Admits.applyDelta_skipped (h : b.Admits d) (hinit : b.initialized = true)
    (hout : b.priceToIndex d.price = none) (hrec : (b.shouldRecenter d).1 = false) :
    (b.applyDelta d).2 = b.skipDelta d := by
  simp [applyDelta, hinit, not_lt.mpr h.size, h.stale, hout, hrec, skipDelta]

theorem Recenters.applyDelta (h : b.Recenters d) (hb : b.Sized) :
    (b.applyDelta d).2 = b.moveAndStore d := by
  have hmoved : (b.recenterGrid d.price).priceToIndex d.price = some (b.activeLevels / 2) :=
    hb.priceToIndex_recenterGrid h.initialized
  simp only [OrderBook.applyDelta, recenterGrid_withStreak]
  simp [h.initialized, not_lt.mpr h.size, h.stale, h.outside, h.recenter, hmoved, moveAndStore]

/-- **What a delta does** to a book that is initialized: nothing, a slot write, a skip, or a move of
the grid and a slot write. -/
theorem Sized.applyDelta_cases (h : b.Sized) (hinit : b.initialized = true) (d : Delta) :
    (¬ b.Admits d ∧ (b.applyDelta d).2 = b) ∨
    (b.Admits d ∧ ∃ i, b.priceToIndex d.price = some i ∧
      (b.applyDelta d).2 = b.storeDelta d i) ∨
    (b.Admits d ∧ b.priceToIndex d.price = none ∧ ¬ b.Recenters d ∧
      (b.applyDelta d).2 = b.skipDelta d) ∨
    (b.Recenters d ∧ (b.applyDelta d).2 = b.moveAndStore d) := by
  by_cases hadmits : b.Admits d
  · right
    cases hidx : b.priceToIndex d.price with
    | some i => exact Or.inl ⟨hadmits, i, rfl, hadmits.applyDelta_stored hinit hidx⟩
    | none =>
      right
      cases hrec : (b.shouldRecenter d).1 with
      | false =>
        refine Or.inl ⟨hadmits, rfl, fun hmoves => ?_, hadmits.applyDelta_skipped hinit hidx hrec⟩
        rw [hmoves.recenter] at hrec
        cases hrec
      | true =>
        have hmoves : b.Recenters d := ⟨hadmits, hinit, hidx, hrec⟩
        exact Or.inr ⟨hmoves, hmoves.applyDelta h⟩
  · exact Or.inl ⟨hadmits, applyDelta_of_not_admits hadmits⟩

/-! ## Slots after a delta -/

theorem Sized.storeDelta (h : b.Sized) (d : Delta) (i : ℕ) : (b.storeDelta d i).Sized := by
  unfold OrderBook.storeDelta OrderBook.advanceSequence setSlot
  cases d.side
  · split_ifs <;> exact { h with bids := h.bids.set i d.size d.orderCount }
  · split_ifs <;> exact { h with asks := h.asks.set i d.size d.orderCount }

theorem Fitted.cell_storeDelta (h : b.Fitted) (d : Delta) (hi : i < b.activeLevels) (side : Side)
    (j : ℕ) : ((b.storeDelta d i).grid side).cell j =
      if side = d.side ∧ j = i then (d.size, d.orderCount) else (b.grid side).cell j := by
  rw [congrFun (b.storeDelta_eq d i).2 side]
  by_cases hside : side = d.side
  · subst hside
    rw [grid_setSlot_self, SideGrid.cell_set (h.grid d.side) (hi.trans_le h.active_le)]
    simp only [true_and]
  · rw [grid_setSlot_of_ne b hside, if_neg fun hboth => hside hboth.1]

theorem sameWindow_storeDelta (b : OrderBook) (d : Delta) (i : ℕ) :
    SameWindow (b.storeDelta d i) b :=
  have h := (b.storeDelta_eq d i).1
  have h' := b.sameWindow_setSlot d.side i d.size d.orderCount
  ⟨h.tickSize.trans h'.tickSize, h.activeLevels.trans h'.activeLevels,
    h.basePrice.trans h'.basePrice, h.initialized.trans h'.initialized⟩

theorem Sized.skipDelta (h : b.Sized) (d : Delta) : (b.skipDelta d).Sized := by
  unfold OrderBook.skipDelta OrderBook.advanceSequence
  split_ifs <;> exact { h with }

/-- The two books have arrays of the same size, as many active levels, and the same tick. -/
structure SameSize (b' b : OrderBook) : Prop where
  tickSize : b'.tickSize = b.tickSize
  maxLevels : b'.maxLevels = b.maxLevels
  activeLevels : b'.activeLevels = b.activeLevels

theorem sameSize_storeDelta (b : OrderBook) (d : Delta) (i : ℕ) :
    SameSize (b.storeDelta d i) b := by
  unfold OrderBook.storeDelta OrderBook.advanceSequence setSlot
  cases d.side <;> dsimp only <;> split_ifs <;> exact ⟨rfl, rfl, rfl⟩

theorem sameSize_skipDelta (b : OrderBook) (d : Delta) : SameSize (b.skipDelta d) b := by
  unfold OrderBook.skipDelta OrderBook.advanceSequence
  split_ifs <;> exact ⟨rfl, rfl, rfl⟩

/-- **A delta keeps the sizes** of an initialized book. -/
theorem Sized.applyDelta (h : b.Sized) (hinit : b.initialized = true) (d : Delta) :
    (b.applyDelta d).2.Sized ∧ (b.applyDelta d).2.initialized = true ∧
      SameSize (b.applyDelta d).2 b := by
  rcases h.applyDelta_cases hinit d with ⟨-, he⟩ | ⟨-, i, -, he⟩ | ⟨-, -, -, he⟩ | ⟨-, he⟩ <;>
    rw [he]
  · exact ⟨h, hinit, rfl, rfl, rfl⟩
  · exact ⟨h.storeDelta d i, (b.sameWindow_storeDelta d i).initialized.trans hinit,
      b.sameSize_storeDelta d i⟩
  · exact ⟨h.skipDelta d, (b.sameWindow_skipDelta d).1.initialized.trans hinit,
      b.sameSize_skipDelta d⟩
  · have hsize := (b.recenterGrid d.price).sameSize_storeDelta d (b.activeLevels / 2)
    exact ⟨(h.recenterGrid d.price).storeDelta d _,
      ((b.recenterGrid d.price).sameWindow_storeDelta d _).initialized.trans hinit,
      hsize.tickSize, hsize.maxLevels, hsize.activeLevels⟩

/-! ## The levels -/

/-- The slots of a side that have something, best price first. -/
def filled (b : OrderBook) (side : Side) : List ℕ :=
  (b.slotsFromTouch side).filter fun i => 0 < (b.grid side).size i

/-- All levels of a side, best price first. -/
def levels (b : OrderBook) (side : Side) : List PriceLevel := (b.filled side).map (b.levelAt side)

theorem topLevels_eq (b : OrderBook) (side : Side) (n : ℕ) :
    b.topLevels side n = (b.levels side).take n := List.map_take

theorem mem_filled : i ∈ b.filled side ↔ i < b.activeLevels ∧ 0 < (b.grid side).size i := by
  rw [filled, List.mem_filter, mem_slotsFromTouch, decide_eq_true_eq]

/-- **The slots of the moved grid** that have something are those that stay. -/
theorem Fitted.mem_filled_recenterGrid (h : b.Fitted) (hinit : b.initialized = true)
    (hout : b.priceToIndex anchor = none) (side : Side) :
    j ∈ (b.recenterGrid anchor).filled side ↔
      ∃ i ∈ b.filled side, b.Stays anchor i ∧ (b.moveSlot anchor i).toNat = j := by
  rw [mem_filled]
  constructor
  · rintro ⟨hj, hsize⟩
    obtain ⟨i, hi, hstays, hmove⟩ := h.exists_stays hinit hout hj hsize
    have hj' : (b.moveSlot anchor i).toNat = j := by omega
    have hcell := congrArg Prod.fst (h.cell_moveSlot hinit hout side hi hstays)
    rw [hj'] at hcell
    exact ⟨i, mem_filled.mpr ⟨hi, hsize.trans_eq hcell⟩, hstays, hj'⟩
  · rintro ⟨i, hi, hstays, rfl⟩
    obtain ⟨hi', hsize⟩ := mem_filled.mp hi
    have hcell := congrArg Prod.fst (h.cell_moveSlot hinit hout side hi' hstays)
    refine ⟨?_, hsize.trans_eq hcell.symm⟩
    have hhigh := hstays.2
    change (b.moveSlot anchor i).toNat < b.activeLevels
    omega

/-- The slots with something after a write. -/
theorem Fitted.mem_filled_storeDelta (h : b.Fitted) (hi : i < b.activeLevels) :
    j ∈ (b.storeDelta d i).filled side ↔
      if side = d.side ∧ j = i then 0 < d.size else j ∈ b.filled side := by
  have hcell := congrArg Prod.fst (h.cell_storeDelta d hi side j)
  rw [mem_filled, (b.sameSize_storeDelta d i).activeLevels]
  have hsize : ((b.storeDelta d i).grid side).size j =
      if side = d.side ∧ j = i then d.size else (b.grid side).size j := by
    refine hcell.trans ?_
    split_ifs <;> rfl
  rw [hsize]
  split_ifs with hwritten
  · rw [hwritten.2, and_iff_right hi]
  · rw [mem_filled]

end OrderBook

end TradingInfrastructure
