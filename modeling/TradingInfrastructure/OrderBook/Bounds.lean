import TradingInfrastructure.OrderBook.AnyPrice
import TradingInfrastructure.OrderBook.Acceptance
import TradingInfrastructure.OrderBook.Soundness

/-!
# The indices of the grid

A book gets snapshots and deltas in any order. Its indices are below the number of active levels,
so they are in its arrays exactly when that number is (`IndicesInBounds`); and the readers return
positive prices exactly when all slots with something have one. A snapshot chooses the number of
active levels, two at least, whatever the arrays have; a write, and a move of the grid, may leave
something at a price that is not positive. `indicesSafe_run_iff` has both.
-/

namespace TradingInfrastructure

/-- What a feed hands to a book. -/
inductive BookCall
  | snapshot (s : Snapshot)
  | delta (d : Delta)

/-- All prices are positive. -/
def BookCall.PositivePrices : BookCall → Prop
  | snapshot s => ∀ side, ∀ level ∈ s.levels side, 0 < level.price
  | delta d => 0 < d.price

namespace OrderBook

variable {bytesOf : ℚ → List UInt8} {b b' : OrderBook} {s : Snapshot} {d : Delta} {side : Side}
  {i n : ℕ}

/-- The book after a call. -/
def call (bytesOf : ℚ → List UInt8) (b : OrderBook) : BookCall → OrderBook
  | .snapshot s => (b.applySnapshot bytesOf s).2
  | .delta d => (b.applyDelta d).2

/-! ## Indices -/

/-- The arrays of the book. -/
def arrays (b : OrderBook) : List SideGrid := [b.bids, b.asks, b.scratchBids, b.scratchAsks]

/-- The index is one of all arrays. -/
def InArrays (b : OrderBook) (i : ℕ) : Prop :=
  ∀ g ∈ b.arrays, i < g.sizes.length ∧ i < g.orderCounts.length

/-- The indices that the copy loop of `recenter_grid` reads and writes. -/
def recenterIndices (b : OrderBook) (anchor : ℚ) : List ℕ :=
  let newBase := anchor - (b.activeLevels / 2 : ℕ) * b.tickSize
  let shiftTicks := llround ((b.basePrice - newBase) / b.tickSize)
  let kept : List ℕ := (List.range b.activeLevels).filter fun i : ℕ =>
    ¬ ((i : ℤ) + shiftTicks < 0 ∨ ((i : ℤ) + shiftTicks).toNat ≥ b.activeLevels)
  kept ++ kept.map fun i : ℕ => ((i : ℤ) + shiftTicks).toNat

/-- The active levels are no more than the arrays have, and all indices computed are in them. -/
structure IndicesInBounds (b : OrderBook) : Prop where
  activeLevels : ∀ g ∈ b.arrays,
    b.activeLevels ≤ g.sizes.length ∧ b.activeLevels ≤ g.orderCounts.length
  priceToIndex : ∀ p i, b.priceToIndex p = some i → b.InArrays i
  recenterGrid : ∀ anchor, ∀ i ∈ b.recenterIndices anchor, b.InArrays i
  readers : ∀ side, ∀ i ∈ b.slotsFromTouch side, b.InArrays i

/-- The readers return a positive price for every slot that has something. -/
structure ReportsPositive (b : OrderBook) : Prop where
  best : ∀ side, (∃ i < b.activeLevels, 0 < (b.grid side).size i) → 0 < b.bestPrice side
  top : ∀ side n, ∀ level ∈ b.topLevels side n, 0 < level.price

/-- Indices in bounds and positive prices. -/
structure Safe (b : OrderBook) : Prop where
  indices : b.IndicesInBounds
  prices : b.ReportsPositive

theorem Sized.length_eq (h : b.Sized) {g : SideGrid} (hg : g ∈ b.arrays) :
    g.HasSlots b.maxLevels := by
  simp only [arrays, List.mem_cons, List.not_mem_nil, or_false] at hg
  rcases hg with rfl | rfl | rfl | rfl
  · exact h.bids
  · exact h.asks
  · exact h.scratchBids
  · exact h.scratchAsks

theorem lt_of_mem_recenterIndices {anchor : ℚ} (hi : i ∈ b.recenterIndices anchor) :
    i < b.activeLevels := by
  simp only [recenterIndices, List.mem_append, List.mem_map, List.mem_filter, List.mem_range,
    decide_eq_true_eq] at hi
  rcases hi with ⟨hi, -⟩ | ⟨k, ⟨-, hk⟩, rfl⟩
  · exact hi
  · omega

theorem lt_of_priceToIndex {p : ℚ} (hi : b.priceToIndex p = some i) : i < b.activeLevels := by
  unfold OrderBook.priceToIndex at hi
  dsimp only at hi
  split_ifs at hi with hinit hout
  have hval := Option.some.inj hi
  omega

/-- All indices are below the number of active levels. -/
theorem Sized.indicesInBounds_iff (h : b.Sized) :
    b.IndicesInBounds ↔ b.activeLevels ≤ b.maxLevels := by
  have hin : b.activeLevels ≤ b.maxLevels → ∀ i < b.activeLevels, b.InArrays i := by
    intro hle i hi g hg
    have hg' := h.length_eq hg
    rw [hg'.sizes, hg'.orderCounts]
    omega
  constructor
  · intro hb
    have hbids := (hb.activeLevels b.bids List.mem_cons_self).1
    rwa [h.bids.sizes] at hbids
  · intro hle
    refine ⟨fun g hg => ?_, fun p i hi => hin hle i (lt_of_priceToIndex hi),
      fun anchor i hi => hin hle i (lt_of_mem_recenterIndices hi),
      fun side i hi => hin hle i (mem_slotsFromTouch.mp hi)⟩
    have hg' := h.length_eq hg
    rw [hg'.sizes, hg'.orderCounts]
    exact ⟨hle, hle⟩

/-- All slots with something have a positive price. -/
def PositiveSlots (b : OrderBook) : Prop := ∀ side, ∀ i ∈ b.filled side, 0 < b.indexToPrice i

theorem reportsPositive_iff : b.ReportsPositive ↔ b.PositiveSlots := by
  constructor
  · intro h side i hi
    refine h.top side (b.levels side).length (b.levelAt side i) ?_
    rw [topLevels_eq, List.take_length]
    exact List.mem_map_of_mem hi
  · refine fun h => ⟨fun side hsome => ?_, fun side n level hlevel => ?_⟩
    · obtain ⟨i, hi, hsize⟩ := hsome
      unfold bestPrice
      split
      · next j hj =>
        have hj' := List.find?_some hj
        exact h side j (mem_filled.mpr
          ⟨mem_slotsFromTouch.mp (List.mem_of_find?_eq_some hj), of_decide_eq_true hj'⟩)
      · next hnone =>
        have hempty := List.find?_eq_none.mp hnone i (mem_slotsFromTouch.mpr hi)
        exact absurd (decide_eq_true hsize) hempty
    · rw [topLevels_eq] at hlevel
      obtain ⟨i, hi, rfl⟩ := List.mem_map.mp (List.mem_of_mem_take hlevel)
      exact h side i hi

theorem Sized.safe_iff (h : b.Sized) : b.Safe ↔ b.Fitted ∧ b.PositiveSlots := by
  constructor
  · rintro ⟨hindices, hprices⟩
    exact ⟨⟨h, h.indicesInBounds_iff.mp hindices⟩, reportsPositive_iff.mp hprices⟩
  · rintro ⟨hfit, hslots⟩
    exact ⟨h.indicesInBounds_iff.mpr hfit.active_le, reportsPositive_iff.mpr hslots⟩

/-! ## Snapshots -/

theorem Sized.setSlot (h : b.Sized) (side : Side) (i : ℕ) (size : ℚ) (count : ℕ) :
    (b.setSlot side i size count).Sized := by
  cases side
  · exact { h with bids := h.bids.set i size count }
  · exact { h with asks := h.asks.set i size count }

theorem sameSize_writeLevels (levels : List PriceLevel) :
    SameSize (levels.foldl (writeLevel side) b) b ∧
      (levels.foldl (writeLevel side) b).basePrice = b.basePrice := by
  induction levels generalizing b with
  | nil => exact ⟨⟨rfl, rfl, rfl⟩, rfl⟩
  | cons level rest ih =>
    have hstep : SameSize (writeLevel side b level) b ∧
        (writeLevel side b level).basePrice = b.basePrice := by
      rw [writeLevel]
      split
      · cases side <;> exact ⟨⟨rfl, rfl, rfl⟩, rfl⟩
      · exact ⟨⟨rfl, rfl, rfl⟩, rfl⟩
    obtain ⟨hsize, hbase⟩ := ih (b := writeLevel side b level)
    exact ⟨⟨hsize.tickSize.trans hstep.1.tickSize, hsize.maxLevels.trans hstep.1.maxLevels,
      hsize.activeLevels.trans hstep.1.activeLevels⟩, hbase.trans hstep.2⟩

theorem Sized.writeLevels (h : b.Sized) (levels : List PriceLevel) :
    (levels.foldl (writeLevel side) b).Sized := by
  induction levels generalizing b with
  | nil => exact h
  | cons level rest ih =>
    refine ih ?_
    rw [writeLevel]
    split
    · exact h.setSlot _ _ _ _
    · exact h

theorem computeSnapshotActiveLevels_pos (hmax : 1 ≤ b.maxLevels) (bestBid : ℚ) :
    0 < b.computeSnapshotActiveLevels bestBid := by
  simp only [computeSnapshotActiveLevels, minActiveLevels]
  split <;> omega

/-- There is room for the levels of a snapshot: the arrays have two levels, or the best bid is two
ticks at most. -/
def HasRoom (b : OrderBook) (s : Snapshot) : Prop :=
  2 ≤ b.maxLevels ∨ (s.bids.headD default).price / b.tickSize ≤ 2

instance (b : OrderBook) (s : Snapshot) : Decidable (b.HasRoom s) :=
  inferInstanceAs (Decidable (_ ∨ _))

theorem hasRoom_iff (hmax : 1 ≤ b.maxLevels) : b.HasRoom s ↔
    b.computeSnapshotActiveLevels (s.bids.headD default).price ≤ b.maxLevels := by
  simp only [HasRoom, computeSnapshotActiveLevels, minActiveLevels]
  split_ifs with hticks
  · exact iff_of_true (Or.inr hticks) (by omega)
  · rw [or_iff_left hticks]
    omega

theorem computeSnapshotBasePrice_pos (htick : 0 < b.tickSize) (bestBid : ℚ) (n : ℕ) :
    0 < b.computeSnapshotBasePrice bestBid n := by
  simp only [computeSnapshotBasePrice]
  split_ifs with hcentered
  · exact hcentered
  · exact htick

/-- **What a snapshot that is taken leaves**: as many active levels as it chooses, above a positive
base. -/
theorem Sized.applySnapshot (h : b.Sized) (hmax : 1 ≤ b.maxLevels) (ht : b.Takes bytesOf s) :
    (b.applySnapshot bytesOf s).2.Sized ∧
      (b.applySnapshot bytesOf s).2.tickSize = b.tickSize ∧
      (b.applySnapshot bytesOf s).2.maxLevels = b.maxLevels ∧
      (b.applySnapshot bytesOf s).2.activeLevels =
        b.computeSnapshotActiveLevels (s.bids.headD default).price ∧
      0 < (b.applySnapshot bytesOf s).2.basePrice := by
  have hstart : (b.snapshotStart s).Sized := {
    tick_pos := h.tick_pos
    active_pos := computeSnapshotActiveLevels_pos hmax _
    bids := h.bids.clear
    asks := h.asks.clear
    scratchBids := h.scratchBids
    scratchAsks := h.scratchAsks }
  have hwritten : (b.written s).Sized := (hstart.writeLevels s.bids).writeLevels s.asks
  obtain ⟨hbids, hbase⟩ := @sameSize_writeLevels (b.snapshotStart s) .bid s.bids
  obtain ⟨hasks, hbase'⟩ :=
    @sameSize_writeLevels (s.bids.foldl (writeLevel .bid) (b.snapshotStart s)) .ask s.asks
  rw [applySnapshot_of_takes ht]
  refine ⟨{ hwritten with }, hasks.tickSize.trans hbids.tickSize,
    hasks.maxLevels.trans hbids.maxLevels, hasks.activeLevels.trans hbids.activeLevels, ?_⟩
  have hpos := computeSnapshotBasePrice_pos h.tick_pos (s.bids.headD default).price
    (b.computeSnapshotActiveLevels (s.bids.headD default).price)
  exact hpos.trans_eq (hbase'.trans hbase).symm

theorem Sized.positiveSlots_of_base_pos (h : b.Sized) (hbase : 0 < b.basePrice) :
    b.PositiveSlots := by
  intro side i _
  have hup : 0 ≤ (i : ℚ) * b.tickSize := mul_nonneg (Nat.cast_nonneg i) h.tick_pos.le
  rw [indexToPrice]
  linarith

/-! ## Runs -/

/-- The arrays of the book were allocated with `n` levels, one at least. -/
structure Allots (b : OrderBook) (n : ℕ) : Prop extends b.Sized where
  one_le : 1 ≤ b.maxLevels
  maxLevels_eq : b.maxLevels = n

theorem Allots.call (h : b.Allots n) (c : BookCall) : (b.call bytesOf c).Allots n := by
  cases c with
  | snapshot s =>
    by_cases ht : b.Takes bytesOf s
    · obtain ⟨hsized, -, hmax, -, -⟩ := h.applySnapshot h.one_le ht
      exact ⟨hsized, h.one_le.trans_eq hmax.symm, hmax.trans h.maxLevels_eq⟩
    · rw [OrderBook.call, applySnapshot_of_not_takes ht]
      exact h
  | delta d =>
    rw [OrderBook.call]
    cases hinit : b.initialized with
    | false =>
      rw [applyDelta_of_not_initialized hinit]
      exact h
    | true =>
      obtain ⟨hsized, -, hsame⟩ := h.applyDelta hinit d
      exact ⟨hsized, h.one_le.trans_eq hsame.maxLevels.symm,
        hsame.maxLevels.trans h.maxLevels_eq⟩

theorem allots_new {tick : ℚ} {maxLevels : ℕ} (ht : 0 < tick) (hmax : 1 ≤ maxLevels) :
    (new tick maxLevels).Allots maxLevels :=
  have h := SideGrid.hasSlots_zero maxLevels
  ⟨⟨ht, hmax, h, h, h, h⟩, hmax, rfl⟩

/-- There is room for the levels of the snapshot, if it is one that is taken. -/
def RoomFor (bytesOf : ℚ → List UInt8) (b : OrderBook) : BookCall → Prop
  | .snapshot s => b.Takes bytesOf s → b.HasRoom s
  | .delta _ => True

/-- A call for which there is room keeps the active levels in the arrays. -/
theorem Allots.fitted_call (h : b.Allots n) (hfit : b.Fitted) {c : BookCall}
    (hroom : b.RoomFor bytesOf c) : (b.call bytesOf c).Fitted := by
  refine ⟨(h.call c).toSized, ?_⟩
  cases c with
  | snapshot s =>
    rw [OrderBook.call]
    by_cases ht : b.Takes bytesOf s
    · obtain ⟨-, -, hmax, hactive, -⟩ := h.applySnapshot h.one_le ht
      rw [hactive, hmax]
      exact (hasRoom_iff h.one_le).mp (hroom ht)
    · rw [applySnapshot_of_not_takes ht]
      exact hfit.active_le
  | delta d =>
    rw [OrderBook.call]
    cases hinit : b.initialized with
    | false =>
      rw [applyDelta_of_not_initialized hinit]
      exact hfit.active_le
    | true =>
      obtain ⟨-, -, hsame⟩ := h.applyDelta hinit d
      rw [hsame.activeLevels, hsame.maxLevels]
      exact hfit.active_le

/-- **The active levels stay in the arrays** along a run whose snapshots have room. -/
theorem fitted_run {tick : ℚ} {maxLevels : ℕ} (ht : 0 < tick) (hmax : 1 ≤ maxLevels)
    {calls : List BookCall}
    (hroom : AllSteps (call bytesOf) (RoomFor bytesOf) (new tick maxLevels) calls) :
    (calls.foldl (call bytesOf) (new tick maxLevels)).Fitted := by
  have hnew := allots_new ht hmax
  exact (hroom.foldl (P := fun b => b.Allots maxLevels ∧ b.Fitted)
    (fun b c h hc => ⟨h.1.call c, h.1.fitted_call h.2 hc⟩) ⟨hnew, hnew.toSized, le_rfl⟩).2

/-- There is always room in arrays of two levels. -/
theorem fitted_reachable (bytesOf : ℚ → List UInt8) {tick : ℚ} {maxLevels : ℕ} (ht : 0 < tick)
    (hmax : 2 ≤ maxLevels) (calls : List BookCall) :
    (calls.foldl (call bytesOf) (new tick maxLevels)).Allots maxLevels ∧
      (calls.foldl (call bytesOf) (new tick maxLevels)).Fitted := by
  have hnew : (new tick maxLevels).Allots maxLevels := allots_new ht (by omega)
  refine foldl_induction (P := fun b : OrderBook => b.Allots maxLevels ∧ b.Fitted)
    (fun b c h (_ : True) => ⟨h.1.call c, h.1.fitted_call h.2 ?_⟩) ⟨hnew, hnew.toSized, le_rfl⟩
    fun _ _ => trivial
  cases c with
  | snapshot s => exact fun _ => Or.inl (hmax.trans_eq h.1.maxLevels_eq.symm)
  | delta d => trivial

/-- What keeps the indices in bounds and the prices positive: a snapshot that is taken has room; a
size is written at a slot with a positive price; and what stays when the grid moves stays at a
positive price. -/
def KeepsSafe (bytesOf : ℚ → List UInt8) (b : OrderBook) : BookCall → Prop
  | .snapshot s => b.Takes bytesOf s → b.HasRoom s
  | .delta d =>
    (b.Admits d → 0 < d.size → ∀ i, b.priceToIndex d.price = some i → 0 < b.indexToPrice i) ∧
      (b.Recenters d → ∀ side, ∀ i ∈ b.filled side, b.Stays d.price i →
        0 < b.indexToPrice i + b.offset d.price)

/-- **A snapshot** leaves a safe book exactly when, taken, it has room. -/
theorem Allots.safe_snapshot_iff (h : b.Allots n) (hsafe : b.Safe) :
    (b.call bytesOf (.snapshot s)).Safe ↔ (b.Takes bytesOf s → b.HasRoom s) := by
  by_cases ht : b.Takes bytesOf s
  · obtain ⟨hsized, htick, hmax, hactive, hbase⟩ := h.applySnapshot h.one_le ht
    rw [OrderBook.call, hsized.safe_iff, imp_iff_right ht, hasRoom_iff h.one_le, ← hactive, ← hmax]
    exact ⟨fun hb => hb.1.active_le,
      fun hle => ⟨⟨hsized, hle⟩, hsized.positiveSlots_of_base_pos hbase⟩⟩
  · rw [OrderBook.call, applySnapshot_of_not_takes ht]
    exact iff_of_true hsafe fun ht' => absurd ht' ht

/-- A write into a slot leaves positive prices exactly when it writes nothing, or the slot has a
positive price. -/
theorem Fitted.positiveSlots_storeDelta_iff (h : b.Fitted) (hi : i < b.activeLevels)
    (hslots : ∀ side, ∀ j ∈ b.filled side, ¬ (side = d.side ∧ j = i) → 0 < b.indexToPrice j) :
    (b.storeDelta d i).PositiveSlots ↔ (0 < d.size → 0 < b.indexToPrice i) := by
  have hprice := (b.sameWindow_storeDelta d i).indexToPrice
  constructor
  · intro hpos hsize
    rw [← hprice]
    exact hpos d.side i ((h.mem_filled_storeDelta hi).mpr (by rwa [if_pos ⟨rfl, rfl⟩]))
  · intro himp side j hj
    rw [h.mem_filled_storeDelta hi] at hj
    rw [hprice]
    split_ifs at hj with hwritten
    · rw [hwritten.2]
      exact himp hj
    · exact hslots side j hj hwritten

/-- Moving the grid leaves positive prices exactly when what stays in it has them. -/
theorem Fitted.positiveSlots_moveAndStore_iff (h : b.Fitted) (hmoves : b.Recenters d)
    (hd : 0 < d.price) : (b.moveAndStore d).PositiveSlots ↔ ∀ side, ∀ i ∈ b.filled side,
      b.Stays d.price i → 0 < b.indexToPrice i + b.offset d.price := by
  have hinit := hmoves.initialized
  have hmid : b.activeLevels / 2 < b.activeLevels := Nat.div_lt_self h.active_pos (by omega)
  have hmoved : (b.recenterGrid d.price).Fitted := ⟨h.recenterGrid d.price, h.active_le⟩
  rw [moveAndStore]
  constructor
  · intro hpos side i hi hstays
    have hne : (b.moveSlot d.price i).toNat ≠ b.activeLevels / 2 := by
      intro heq
      have hlow := hstays.1
      exact moveSlot_ne_middle hinit hmoves.outside (mem_filled.mp hi).1 (by omega)
    have hfilled := (h.mem_filled_recenterGrid hinit hmoves.outside side).mpr ⟨i, hi, hstays, rfl⟩
    have hprice := hpos side _ ((hmoved.mem_filled_storeDelta hmid).mpr (by
      rwa [if_neg fun hboth => hne hboth.2]))
    rwa [((b.recenterGrid d.price).sameWindow_storeDelta d _).indexToPrice,
      indexToPrice_moveSlot b hstays] at hprice
  · intro hstay
    refine (hmoved.positiveSlots_storeDelta_iff hmid fun side j hj _ => ?_).mpr fun _ => ?_
    · obtain ⟨i, hi, hstays, rfl⟩ := (h.mem_filled_recenterGrid hinit hmoves.outside side).mp hj
      rw [indexToPrice_moveSlot b hstays]
      exact hstay side i hi hstays
    · rwa [indexToPrice_middle]

/-- **A delta** leaves a safe book exactly when it writes at positive prices and what stays in the
grid stays at positive prices. -/
theorem Allots.safe_delta_iff (h : b.Allots n) (hd : 0 < d.price) (hsafe : b.Safe) :
    (b.call bytesOf (.delta d)).Safe ↔ KeepsSafe bytesOf b (.delta d) := by
  obtain ⟨hfit, hslots⟩ := h.safe_iff.mp hsafe
  rw [OrderBook.call, KeepsSafe]
  cases hinit : b.initialized with
  | false =>
    rw [applyDelta_of_not_initialized hinit]
    refine iff_of_true hsafe ⟨fun _ _ i hi => ?_, fun hmoves => ?_⟩
    · rw [OrderBook.priceToIndex, hinit, if_neg Bool.false_ne_true] at hi
      cases hi
    · rw [hmoves.initialized] at hinit
      cases hinit
  | true =>
    obtain ⟨hsized, -, hsame⟩ := h.applyDelta hinit d
    rw [hsized.safe_iff, and_iff_right ⟨hsized, by
      rw [hsame.activeLevels, hsame.maxLevels]
      exact hfit.active_le⟩]
    rcases h.applyDelta_cases hinit d with ⟨hskip, he⟩ | ⟨hadmits, i, hi, he⟩ |
      ⟨hadmits, hout, hstays, he⟩ | ⟨hmoves, he⟩ <;> rw [he]
    · exact iff_of_true hslots ⟨fun hadmits => absurd hadmits hskip,
        fun hmoves => absurd hmoves.toAdmits hskip⟩
    · have hi' := ((priceToIndex_eq_some_iff hinit).mp hi).2
      rw [hfit.positiveSlots_storeDelta_iff hi' fun side j hj _ => hslots side j hj]
      refine ⟨fun himp => ⟨fun _ hsize j hj => ?_, fun hmoves => ?_⟩,
        fun hboth hsize => hboth.1 hadmits hsize i hi⟩
      · rw [hi] at hj
        exact Option.some.inj hj ▸ himp hsize
      · rw [hmoves.outside] at hi
        cases hi
    · refine iff_of_true (fun side i hi => ?_)
        ⟨fun _ _ i hi => ?_, fun hmoves => absurd hmoves hstays⟩
      · obtain ⟨hw, hg⟩ := b.sameWindow_skipDelta d
        rw [hw.indexToPrice]
        refine hslots side i (mem_filled.mpr ?_)
        rw [mem_filled, hg, hw.activeLevels] at hi
        exact hi
      · rw [hout] at hi
        cases hi
    · rw [hfit.positiveSlots_moveAndStore_iff hmoves hd]
      refine (and_iff_right fun _ _ i hi => ?_).symm.trans
        (and_congr_right' (imp_iff_right hmoves).symm)
      rw [hmoves.outside] at hi
      cases hi

/-- The book starts safe, with nothing in it. -/
theorem safe_new {tick : ℚ} {maxLevels : ℕ} (ht : 0 < tick) (hmax : 1 ≤ maxLevels) :
    (new tick maxLevels).Safe := by
  have h := allots_new ht hmax
  refine h.safe_iff.mpr ⟨⟨h.toSized, le_rfl⟩, fun side i hi => ?_⟩
  have hzero : ((new tick maxLevels).grid side).size i = 0 := by
    cases side <;> simp [OrderBook.grid, new, SideGrid.zero, SideGrid.size]
  exact absurd (mem_filled.mp hi).2 (by rw [hzero]; exact lt_irrefl 0)

/-- **The indices stay in bounds and the prices positive** along a run exactly when every step keeps
them so. -/
theorem indicesSafe_run_iff (bytesOf : ℚ → List UInt8) {tick : ℚ} {maxLevels : ℕ} (ht : 0 < tick)
    (hmax : 1 ≤ maxLevels) {calls : List BookCall} (hpos : ∀ c ∈ calls, c.PositivePrices) :
    (∀ pre, pre <+: calls → (pre.foldl (call bytesOf) (new tick maxLevels)).Safe) ↔
      AllSteps (call bytesOf) (KeepsSafe bytesOf) (new tick maxLevels) calls := by
  have hinv : ∀ (b : OrderBook) (c : BookCall), b.Allots maxLevels → c.PositivePrices →
      (b.call bytesOf c).Allots maxLevels := fun b c h _ => h.call c
  have hstep : ∀ (b : OrderBook) (c : BookCall), b.Allots maxLevels →
      c.PositivePrices → b.Safe →
      ((b.call bytesOf c).Safe ↔ b.KeepsSafe bytesOf c) := by
    intro b c h hc hsafe
    cases c with
    | snapshot s => exact h.safe_snapshot_iff hsafe
    | delta d => exact h.safe_delta_iff hc hsafe
  exact (forall_prefix_iff_allSteps hinv hstep (allots_new ht hmax) hpos).trans
    (and_iff_right (safe_new ht hmax))

/-! ## Two runs -/

/-- A snapshot with one level on each side. -/
def oneLevelEach (bid ask : ℚ) : Snapshot :=
  { touchSnapshot with bids := [⟨bid, 1, 1⟩], asks := [⟨ask, 1, 1⟩] }

/-- A delta at a price. -/
def deltaAt (side : Side) (price : ℚ) : Delta := { farDelta with side := side, price := price }

/-- A bid at 100 and an ask at 101, and then a bid at 99. -/
def onTicks : List BookCall := [.snapshot (oneLevelEach 100 101), .delta (deltaAt .bid 99)]

/-- They are safe in a grid of four levels. -/
theorem safe_onTicks : (onTicks.foldl (call fun _ => []) (new 1 4)).Safe := by
  have hpos : ∀ c ∈ onTicks, c.PositivePrices := by
    intro c hc
    simp only [onTicks, List.mem_cons, List.not_mem_nil, or_false] at hc
    rcases hc with rfl | rfl
    · intro side level hlevel
      cases side <;> rw [List.mem_singleton.mp hlevel] <;> norm_num
    · change (0 : ℚ) < 99
      norm_num
  have hslot : ((new 1 4).call (fun _ => []) (.snapshot (oneLevelEach 100 101))).priceToIndex
      (deltaAt .bid 99).price = some 1 ∧
      0 < ((new 1 4).call (fun _ => []) (.snapshot (oneLevelEach 100 101))).indexToPrice 1 := by
    decide +kernel
  have hdelta : ((new 1 4).call (fun _ => []) (.snapshot (oneLevelEach 100 101))).KeepsSafe
      (fun _ => []) (.delta (deltaAt .bid 99)) := by
    refine ⟨fun _ _ i hi => ?_, fun hmoves => ?_⟩
    · rw [← Option.some.inj (hslot.1.symm.trans hi)]
      exact hslot.2
    · cases hslot.1.symm.trans hmoves.outside
  refine (indicesSafe_run_iff _ (by norm_num) (by decide) hpos).mpr ?_ _ (List.prefix_refl _)
  have hroom : ((new 1 4).KeepsSafe (fun _ => []) (.snapshot (oneLevelEach 100 101))) :=
    fun _ => Or.inl (by decide : 2 ≤ 4)
  exact And.intro hroom (And.intro hdelta trivial)

/-- A bid at 10 and an ask at 11; then an ask at 1, to which the grid moves; then a bid at 0.3. -/
def nearZero : List BookCall :=
  [.snapshot (oneLevelEach 10 11), .delta (deltaAt .ask 1),
    .delta (deltaAt .bid (3 / 10))]

/-- **Too many active levels, and a level at price zero.** A book of one level has two active levels
after a snapshot; and a book of four levels has a bid, but its best bid is zero. -/
theorem oneLevel_outOfBounds :
    (((new 1 1).call (fun _ => []) (.snapshot (oneLevelEach 100 101))).activeLevels = 2 ∧
      ¬ ((new 1 1).call (fun _ => []) (.snapshot (oneLevelEach 100 101))).Safe) ∧
    ((nearZero.foldl (call fun _ => []) (new 1 4)).getBestBid = 0 ∧
      (nearZero.foldl (call fun _ => []) (new 1 4)).getTopLevels 5 =
        ([⟨0, 3, 2⟩], [⟨1, 3, 2⟩]) ∧
      ¬ (nearZero.foldl (call fun _ => []) (new 1 4)).Safe) := by
  have hactive : ((new 1 1).call (fun _ => [])
      (.snapshot (oneLevelEach 100 101))).activeLevels = 2 ∧
      ((new 1 1).call (fun _ => [])
        (.snapshot (oneLevelEach 100 101))).bids.sizes.length = 1 := by decide +kernel
  have hzero : (nearZero.foldl (call fun _ => []) (new 1 4)).getBestBid = 0 ∧
      (nearZero.foldl (call fun _ => []) (new 1 4)).getTopLevels 5 =
        ([⟨0, 3, 2⟩], [⟨1, 3, 2⟩]) := by decide +kernel
  refine ⟨⟨hactive.1, fun h => ?_⟩, hzero.1, hzero.2, fun h => ?_⟩
  · have hbids := (h.indices.activeLevels _ List.mem_cons_self).1
    rw [hactive.1, hactive.2] at hbids
    omega
  · have hbids : (nearZero.foldl (call fun _ => []) (new 1 4)).topLevels .bid 5 = [⟨0, 3, 2⟩] :=
      congrArg Prod.fst hzero.2
    have hlevel := h.prices.top .bid 5 ⟨0, 3, 2⟩ (by
      rw [hbids]
      exact List.mem_cons_self)
    exact lt_irrefl 0 hlevel

end OrderBook

end TradingInfrastructure
