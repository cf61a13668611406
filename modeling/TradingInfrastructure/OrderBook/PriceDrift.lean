import TradingInfrastructure.OrderBook.Bounds

/-!
# The prices of the slots that stay

A `Traced` book carries, for each slot, the price in the level or delta that last wrote it. A write
goes to the nearest slot, within half a tick. Moving the grid takes the writers along with the
slots, but the prices of the slots move by what the anchor is off the ticks of the old grid, and
this adds up: the prices stay within half a tick of their writers exactly as long as each move
leaves them there (`near_run_iff`), for instance when all anchors are on ticks.
-/

namespace TradingInfrastructure

open OrderBook

/-- A book with the price that last wrote each slot. -/
structure Traced where
  book : OrderBook
  writer : Side → ℕ → ℚ

namespace Traced

variable {t : Traced} {d : Delta} {side : Side} {i j : ℕ}

/-- The writers of a side after a level of a snapshot. -/
def writeAt (b : OrderBook) (writer : ℕ → ℚ) (level : PriceLevel) : ℕ → ℚ :=
  match b.priceToIndex level.price with
  | some i => Function.update writer i level.price
  | none => writer

/-- A book after a snapshot. -/
def ofSnapshot (bytesOf : ℚ → List UInt8) (b : OrderBook) (s : Snapshot) : Traced where
  book := (b.applySnapshot bytesOf s).2
  writer side := (s.levels side).foldl (writeAt (b.snapshotStart s)) fun _ => 0

/-- The price is the last one written to a slot of a side. -/
def put (writer : Side → ℕ → ℚ) (side : Side) (i : ℕ) (price : ℚ) : Side → ℕ → ℚ :=
  fun side' j => if side' = side ∧ j = i then price else writer side' j

theorem put_apply (writer : Side → ℕ → ℚ) (side : Side) (i : ℕ) (price : ℚ) (side' : Side) (j : ℕ) :
    put writer side i price side' j = if side' = side ∧ j = i then price else writer side' j :=
  rfl

/-- The writers after the grid has moved, as far as the slots stay. -/
def movedWriter (t : Traced) (anchor : ℚ) : Side → ℕ → ℚ := fun side j =>
  let shiftTicks := llround ((t.book.basePrice - (t.book.recenterGrid anchor).basePrice) /
    t.book.tickSize)
  t.writer side ((j : ℤ) - shiftTicks).toNat

/-- A book after a delta: what is stored is written by the delta. -/
def delta (t : Traced) (d : Delta) : Traced where
  book := (t.book.applyDelta d).2
  writer :=
    if t.book.initialized = true ∧ 0 ≤ d.size ∧ t.book.stale d = false then
      match t.book.priceToIndex d.price with
      | some i => put t.writer d.side i d.price
      | none =>
        if (t.book.shouldRecenter d).1 = true then
          put (t.movedWriter d.price) d.side (t.book.activeLevels / 2) d.price
        else t.writer
    else t.writer

/-- Every level that the readers return is of a slot whose price is within half a tick of the price
that last wrote it. -/
def Near (t : Traced) : Prop :=
  ∀ side n, ∀ level ∈ t.book.topLevels side n, ∃ i ∈ t.book.filled side,
    level = t.book.levelAt side i ∧ |level.price - t.writer side i| ≤ t.book.tickSize / 2

/-- The same, of the slots. -/
def NearSlots (t : Traced) : Prop :=
  ∀ side, ∀ i ∈ t.book.filled side,
    |t.book.indexToPrice i - t.writer side i| ≤ t.book.tickSize / 2

/-- When the delta moves the grid, the price of each slot that stays, moved by what the price of the
delta is off the ticks, is within half a tick of the price that last wrote the slot. -/
def KeepsNear (t : Traced) (d : Delta) : Prop :=
  t.book.Recenters d → ∀ side, ∀ i ∈ t.book.filled side, t.book.Stays d.price i →
    |t.book.indexToPrice i + t.book.offset d.price - t.writer side i| ≤ t.book.tickSize / 2

theorem near_iff (h : t.book.Sized) : t.Near ↔ t.NearSlots := by
  constructor
  · intro hnear side i hi
    obtain ⟨j, -, hlevel, hj⟩ := hnear side (t.book.levels side).length (t.book.levelAt side i) (by
      rw [topLevels_eq, List.take_length]
      exact List.mem_map_of_mem hi)
    have hprice : t.book.indexToPrice i = t.book.indexToPrice j := congrArg PriceLevel.price hlevel
    rw [indexToPrice, indexToPrice, add_right_inj, mul_left_inj' h.tick_pos.ne', Nat.cast_inj]
      at hprice
    subst hprice
    exact hj
  · intro hslots side n level hlevel
    rw [topLevels_eq] at hlevel
    obtain ⟨i, hi, rfl⟩ := List.mem_map.mp (List.mem_of_mem_take hlevel)
    exact ⟨i, hi, rfl, hslots side i hi⟩

/-! ## What a delta does to the writers -/

theorem writer_of_not_admits (h : ¬ t.book.Admits d) : (t.delta d).writer = t.writer :=
  if_neg fun hall => h ⟨hall.2.1, hall.2.2⟩

theorem writer_of_stored (hinit : t.book.initialized = true) (h : t.book.Admits d)
    (hi : t.book.priceToIndex d.price = some i) :
    (t.delta d).writer = put t.writer d.side i d.price := by
  simp only [delta, hi]
  exact if_pos ⟨hinit, h.size, h.stale⟩

theorem writer_of_skipped (hout : t.book.priceToIndex d.price = none)
    (hstays : ¬ t.book.Recenters d) : (t.delta d).writer = t.writer := by
  simp only [delta, hout]
  split_ifs with hall hrec
  · exact absurd ⟨⟨hall.2.1, hall.2.2⟩, hall.1, hout, hrec⟩ hstays
  · rfl
  · rfl

theorem writer_of_recenters (h : t.book.Recenters d) :
    (t.delta d).writer = put (t.movedWriter d.price) d.side (t.book.activeLevels / 2) d.price := by
  simp only [delta, h.outside]
  rw [if_pos ⟨h.initialized, h.size, h.stale⟩, if_pos h.recenter]

/-- A slot that stays takes its writer along. -/
theorem movedWriter_moveSlot (h : t.book.Sized) (hmoves : t.book.Recenters d)
    (hstays : t.book.Stays d.price i) :
    t.movedWriter d.price side (t.book.moveSlot d.price i).toNat = t.writer side i := by
  rw [movedWriter, h.shift_eq hmoves.initialized hmoves.outside]
  obtain ⟨hlow, -⟩ := hstays
  unfold moveSlot at hlow ⊢
  congr 1
  omega

/-- **A write into a slot** near its price keeps the others as near as they are. -/
theorem nearSlots_store {b : OrderBook} {writer : Side → ℕ → ℚ} (h : b.Fitted)
    (hi : i < b.activeLevels) (hnear : |b.indexToPrice i - d.price| ≤ b.tickSize / 2) :
    (⟨b.storeDelta d i, put writer d.side i d.price⟩ : Traced).NearSlots ↔
      ∀ side, ∀ j ∈ b.filled side, ¬ (side = d.side ∧ j = i) →
        |b.indexToPrice j - writer side j| ≤ b.tickSize / 2 := by
  have hprice := (b.sameWindow_storeDelta d i).indexToPrice
  have htick := (b.sameSize_storeDelta d i).tickSize
  constructor
  · intro hslots side j hj hother
    have hj' := hslots side j ((h.mem_filled_storeDelta hi).mpr (by rwa [if_neg hother]))
    dsimp only at hj'
    rwa [hprice, htick, put_apply, if_neg hother] at hj'
  · intro hslots side j hj
    rw [h.mem_filled_storeDelta hi] at hj
    dsimp only
    rw [hprice, htick, put_apply]
    split_ifs at hj ⊢ with hwritten
    · rw [hwritten.2]
      exact hnear
    · exact hslots side j hj hwritten

/-- **A delta** keeps the slots near their writers exactly when the move of the grid, if it moves
it, does. -/
theorem nearSlots_delta_iff (h : t.book.Fitted) (hinit : t.book.initialized = true)
    (hnear : t.NearSlots) : (t.delta d).NearSlots ↔ t.KeepsNear d := by
  rcases h.applyDelta_cases hinit d with ⟨hskip, he⟩ | ⟨hadmits, i, hi, he⟩ |
    ⟨hadmits, hout, hstays, he⟩ | ⟨hmoves, he⟩
  · have hsame : t.delta d = t := congrArg₂ Traced.mk he (writer_of_not_admits hskip)
    rw [hsame]
    exact iff_of_true hnear fun hmoves => absurd hmoves.toAdmits hskip
  · have hsame : t.delta d = ⟨t.book.storeDelta d i, put t.writer d.side i d.price⟩ :=
      congrArg₂ Traced.mk he (writer_of_stored hinit hadmits hi)
    have hclose := h.abs_sub_indexToPrice_le hinit hi
    rw [abs_sub_comm] at hclose
    rw [hsame, nearSlots_store h ((priceToIndex_eq_some_iff hinit).mp hi).2 hclose]
    refine iff_of_true (fun side j hj _ => hnear side j hj) fun hmoves => ?_
    cases hi.symm.trans hmoves.outside
  · obtain ⟨hw, hg⟩ := t.book.sameWindow_skipDelta d
    have hsame : t.delta d = ⟨t.book.skipDelta d, t.writer⟩ :=
      congrArg₂ Traced.mk he (writer_of_skipped hout hstays)
    rw [hsame]
    refine iff_of_true (fun side i hi => ?_) fun hmoves => absurd hmoves hstays
    rw [mem_filled, hg, hw.activeLevels] at hi
    rw [hw.indexToPrice, hw.tickSize]
    exact hnear side i (mem_filled.mpr hi)
  · have hmid : t.book.activeLevels / 2 < t.book.activeLevels :=
      Nat.div_lt_self h.active_pos (by omega)
    have hmoved : (t.book.recenterGrid d.price).Fitted := ⟨h.recenterGrid d.price, h.active_le⟩
    have hsame : t.delta d = ⟨(t.book.recenterGrid d.price).storeDelta d (t.book.activeLevels / 2),
        put (t.movedWriter d.price) d.side (t.book.activeLevels / 2) d.price⟩ :=
      congrArg₂ Traced.mk he (writer_of_recenters hmoves)
    have hanchor : |(t.book.recenterGrid d.price).indexToPrice (t.book.activeLevels / 2) - d.price|
        ≤ (t.book.recenterGrid d.price).tickSize / 2 := by
      rw [indexToPrice_middle, sub_self, abs_zero]
      exact (half_pos h.tick_pos).le
    rw [hsame, nearSlots_store hmoved hmid hanchor, KeepsNear, imp_iff_right hmoves]
    constructor
    · intro hslots side i hi hstays
      have hne : (t.book.moveSlot d.price i).toNat ≠ t.book.activeLevels / 2 := by
        intro heq
        have hlow := hstays.1
        exact moveSlot_ne_middle hinit hmoves.outside (mem_filled.mp hi).1 (by omega)
      have hi' := hslots side _ ((h.mem_filled_recenterGrid hinit hmoves.outside side).mpr
        ⟨i, hi, hstays, rfl⟩) fun hboth => hne hboth.2
      rwa [indexToPrice_moveSlot _ hstays, movedWriter_moveSlot h.toSized hmoves hstays] at hi'
    · intro hslots side j hj _
      obtain ⟨i, hi, hstays, rfl⟩ := (h.mem_filled_recenterGrid hinit hmoves.outside side).mp hj
      rw [indexToPrice_moveSlot _ hstays, movedWriter_moveSlot h.toSized hmoves hstays]
      exact hslots side i hi hstays

/-! ## What a snapshot writes -/

/-- The slots of one side are near the prices. -/
def NearOn (b : OrderBook) (side : Side) (writer : ℕ → ℚ) : Prop :=
  ∀ i ∈ b.filled side, |b.indexToPrice i - writer i| ≤ b.tickSize / 2

theorem nearOn_writeLevel {b start : OrderBook} {writer : ℕ → ℚ} (hw : SameWindow b start)
    (h : b.Fitted) (hinit : b.initialized = true) (hnear : NearOn b side writer)
    (level : PriceLevel) :
    NearOn (writeLevel side b level) side (writeAt start writer level) := by
  rw [writeLevel, writeAt, ← hw.priceToIndex]
  cases hi : b.priceToIndex level.price with
  | none => exact hnear
  | some i =>
    have hwindow := b.sameWindow_setSlot side i level.size level.orderCount
    have hclose := h.abs_sub_indexToPrice_le hinit hi
    have hi' := ((priceToIndex_eq_some_iff hinit).mp hi).2
    intro j hj
    dsimp only at hj ⊢
    rw [hwindow.indexToPrice, hwindow.tickSize]
    rcases eq_or_ne j i with rfl | hne
    · rw [Function.update_self, abs_sub_comm]
      exact hclose
    · rw [Function.update_of_ne hne]
      rw [mem_filled, grid_setSlot_self, hwindow.activeLevels] at hj
      have hcell := congrArg Prod.fst
        (SideGrid.cell_set (h.grid side) (hi'.trans_le h.active_le) level.size level.orderCount j)
      rw [if_neg hne] at hcell
      exact hnear j (mem_filled.mpr ⟨hj.1, hj.2.trans_eq hcell⟩)

/-- **The levels of a side** are written to slots within half a tick. -/
theorem nearOn_writeLevels {start : OrderBook} (levels : List PriceLevel) :
    ∀ {b : OrderBook} {writer : ℕ → ℚ}, SameWindow b start → b.Fitted → b.initialized = true →
      NearOn b side writer →
      NearOn (levels.foldl (writeLevel side) b) side (levels.foldl (writeAt start) writer) := by
  induction levels with
  | nil => exact fun _ _ _ hnear => hnear
  | cons level levels ih =>
    intro b writer hw h hinit hnear
    have hnext := nearOn_writeLevel hw h hinit hnear level
    have hsame : SameWindow (writeLevel side b level) b ∧ (writeLevel side b level).Fitted := by
      rw [writeLevel]
      split
      · next i _ =>
        have hwindow := b.sameWindow_setSlot side i level.size level.orderCount
        refine ⟨hwindow, h.setSlot _ _ _ _, ?_⟩
        rw [hwindow.activeLevels]
        cases side <;> exact h.active_le
      · exact ⟨⟨rfl, rfl, rfl, rfl⟩, h⟩
    obtain ⟨hwindow, hfit⟩ := hsame
    exact ih ⟨hwindow.1.trans hw.1, hwindow.2.trans hw.2, hwindow.3.trans hw.3,
      hwindow.4.trans hw.4⟩ hfit (hwindow.initialized.trans hinit) hnext

theorem NearOn.congr {b b' : OrderBook} {writer : ℕ → ℚ} (hnear : NearOn b side writer)
    (hw : SameWindow b' b) (hg : b'.grid side = b.grid side) : NearOn b' side writer := by
  intro i hi
  rw [mem_filled, hg, hw.activeLevels] at hi
  rw [hw.indexToPrice, hw.tickSize]
  exact hnear i (mem_filled.mpr hi)

/-- The levels of a side leave the window and the other side alone. -/
theorem writeLevels_frame {b : OrderBook} (levels : List PriceLevel) :
    SameWindow (levels.foldl (writeLevel side) b) b ∧
      ∀ side', side' ≠ side → (levels.foldl (writeLevel side) b).grid side' = b.grid side' := by
  induction levels generalizing b with
  | nil => exact ⟨⟨rfl, rfl, rfl, rfl⟩, fun _ _ => rfl⟩
  | cons level levels ih =>
    have hstep : SameWindow (writeLevel side b level) b ∧
        ∀ side', side' ≠ side → (writeLevel side b level).grid side' = b.grid side' := by
      rw [writeLevel]
      split
      · exact ⟨b.sameWindow_setSlot _ _ _ _, fun _ hne => grid_setSlot_of_ne b hne _ _ _⟩
      · exact ⟨⟨rfl, rfl, rfl, rfl⟩, fun _ _ => rfl⟩
    obtain ⟨hw, hg⟩ := hstep
    obtain ⟨hw', hg'⟩ := ih (b := writeLevel side b level)
    exact ⟨⟨hw'.1.trans hw.1, hw'.2.trans hw.2, hw'.3.trans hw.3, hw'.4.trans hw.4⟩,
      fun side' hne => (hg' side' hne).trans (hg side' hne)⟩

/-- **A snapshot** writes to slots within half a tick. -/
theorem nearSlots_ofSnapshot {bytesOf : ℚ → List UInt8} {b : OrderBook} {s : Snapshot}
    (h : b.Fitted) (hmax : 2 ≤ b.maxLevels)
    (hs : (b.applySnapshot bytesOf s).1 = .success) :
    (ofSnapshot bytesOf b s).NearSlots ∧ (b.applySnapshot bytesOf s).2.initialized = true := by
  have hbook : (b.applySnapshot bytesOf s).2 = b.written s := (applySnapshot_success hs).2
  have hstart : (b.snapshotStart s).Fitted := {
    tick_pos := h.tick_pos
    active_pos := computeSnapshotActiveLevels_pos (by omega) _
    bids := h.bids.clear
    asks := h.asks.clear
    scratchBids := h.scratchBids
    scratchAsks := h.scratchAsks
    active_le := (computeSnapshotActiveLevels_bounds hmax _).2 }
  have hempty : ∀ side, NearOn (b.snapshotStart s) side fun _ => 0 := by
    intro side i hi
    have hcell : ((b.snapshotStart s).grid side).cell i = (0, 0) := by
      cases side <;> exact SideGrid.cell_clear _ i
    have hzero : ((b.snapshotStart s).grid side).size i = 0 := congrArg Prod.fst hcell
    exact absurd (mem_filled.mp hi).2 (by rw [hzero]; exact lt_irrefl 0)
  obtain ⟨hw, hg⟩ := @writeLevels_frame .bid (b.snapshotStart s) s.bids
  obtain ⟨hw', hg'⟩ :=
    @writeLevels_frame .ask (s.bids.foldl (writeLevel .bid) (b.snapshotStart s)) s.asks
  obtain ⟨hsize, -⟩ := @sameSize_writeLevels (b.snapshotStart s) .bid s.bids
  have hbids := nearOn_writeLevels s.bids ⟨rfl, rfl, rfl, rfl⟩ hstart rfl (hempty .bid)
  have hfit : (s.bids.foldl (writeLevel .bid) (b.snapshotStart s)).Fitted :=
    ⟨hstart.writeLevels s.bids, by
      rw [hsize.activeLevels, hsize.maxLevels]
      exact hstart.active_le⟩
  have hasks := nearOn_writeLevels s.asks hw hfit hw.initialized
    ((hempty .ask).congr hw (hg .ask (by decide)))
  refine ⟨fun side => ?_, ?_⟩
  · rw [ofSnapshot, hbook]
    cases side
    · exact hbids.congr hw' (hg' .bid (by decide))
    · exact hasks
  · rw [hbook]
    exact written_initialized

/-! ## Runs -/

/-- A delta never lowers the sequence. -/
theorem sequence_le_delta (h : t.book.Sized) (hinit : t.book.initialized = true) (d : Delta) :
    t.book.sequence ≤ (t.delta d).book.sequence := by
  have hadvance : t.book.Admits d → ∀ b : OrderBook, b.sequence = t.book.sequence →
      t.book.sequence ≤ (b.advanceSequence d).sequence := by
    intro hadmits b hb
    have hstale := hadmits.stale
    simp only [stale, Bool.and_eq_false_iff, decide_eq_false_iff_not, not_lt] at hstale
    rw [advanceSequence]
    split_ifs with hpos
    · exact hstale.resolve_left (by omega)
    · exact hb.ge
  have hstore : t.book.Admits d → ∀ (b : OrderBook) (i : ℕ), b.sequence = t.book.sequence →
      t.book.sequence ≤ (b.storeDelta d i).sequence := by
    intro hadmits b i hb
    refine hadvance hadmits _ ?_
    cases d.side <;> exact hb
  change t.book.sequence ≤ (t.book.applyDelta d).2.sequence
  rcases h.applyDelta_cases hinit d with ⟨-, he⟩ | ⟨hadmits, i, -, he⟩ | ⟨hadmits, -, -, he⟩ |
    ⟨hmoves, he⟩ <;> rw [he]
  · exact hstore hadmits _ _ rfl
  · exact hadvance hadmits _ rfl
  · exact hstore hmoves.toAdmits _ _ rfl

/-- A book that has taken its snapshot, with room for its levels. -/
structure Ready (t : Traced) : Prop where
  fitted : t.book.Fitted
  initialized : t.book.initialized = true

theorem Ready.delta (h : t.Ready) (d : Delta) : (t.delta d).Ready := by
  obtain ⟨hsized, hinit, hsame⟩ := h.fitted.applyDelta h.initialized d
  refine ⟨⟨hsized, ?_⟩, hinit⟩
  change (t.book.applyDelta d).2.activeLevels ≤ (t.book.applyDelta d).2.maxLevels
  rw [hsame.activeLevels, hsame.maxLevels]
  exact h.fitted.active_le

/-- The sequence does not decrease along a run. -/
theorem Ready.sequence_le_foldl (h : t.Ready) (ds : List Delta) :
    t.book.sequence ≤ (ds.foldl Traced.delta t).book.sequence := by
  refine (foldl_induction (P := fun t' : Traced => t'.Ready ∧ t.book.sequence ≤ t'.book.sequence)
    (fun t' d h' (_ : True) => ⟨h'.1.delta d, h'.2.trans ?_⟩) ⟨h, le_rfl⟩ fun _ _ => trivial).2
  exact sequence_le_delta h'.1.fitted.toSized h'.1.initialized d

/-- A book that gets a snapshot after any calls. -/
def reached (bytesOf : ℚ → List UInt8) (tick : ℚ) (maxLevels : ℕ) (calls : List BookCall)
    (s : Snapshot) : Traced :=
  ofSnapshot bytesOf (calls.foldl (call bytesOf) (new tick maxLevels)) s

/-- **The prices do not drift** along a run exactly when each move of the grid leaves what stays
within half a tick of the price that wrote it; and the sequence never decreases. -/
theorem near_run_iff (bytesOf : ℚ → List UInt8) {tick : ℚ} {maxLevels : ℕ} (ht : 0 < tick)
    (hmax : 2 ≤ maxLevels) {calls : List BookCall} {s : Snapshot}
    (hs : ((calls.foldl (call bytesOf) (new tick maxLevels)).applySnapshot bytesOf s).1 = .success)
    (ds : List Delta) :
    ((∀ pre, pre <+: ds →
        (pre.foldl Traced.delta (reached bytesOf tick maxLevels calls s)).Near) ∧
      ∀ pre later, pre ++ later <+: ds →
        (pre.foldl Traced.delta (reached bytesOf tick maxLevels calls s)).book.sequence ≤
        ((pre ++ later).foldl Traced.delta
          (reached bytesOf tick maxLevels calls s)).book.sequence) ↔
      AllSteps Traced.delta KeepsNear (reached bytesOf tick maxLevels calls s) ds := by
  obtain ⟨hallots, hfit⟩ := fitted_reachable bytesOf ht hmax calls
  have hmax' := hmax.trans_eq hallots.maxLevels_eq.symm
  obtain ⟨hnear, hinit⟩ := nearSlots_ofSnapshot hfit hmax' hs
  have hready : (reached bytesOf tick maxLevels calls s).Ready :=
    ⟨hallots.fitted_call (c := .snapshot s) hfit fun _ => Or.inl hmax', hinit⟩
  have hinv : ∀ (t : Traced) (d : Delta), t.Ready → True → (t.delta d).Ready :=
    fun t d h _ => h.delta d
  have hstep : ∀ (t : Traced) (d : Delta), t.Ready → True → t.Near →
      ((t.delta d).Near ↔ t.KeepsNear d) := by
    intro t d h _ hn
    rw [near_iff (h.delta d).fitted.toSized]
    exact nearSlots_delta_iff h.fitted h.initialized ((near_iff h.fitted.toSized).mp hn)
  have hprices := (forall_prefix_iff_allSteps hinv hstep hready fun _ (_ : _ ∈ ds) => trivial).trans
    (and_iff_right ((near_iff hready.fitted.toSized).mpr hnear))
  refine (and_iff_left fun pre later _ => ?_).trans hprices
  have hpre := foldl_induction (P := Ready) hinv hready fun _ (_ : _ ∈ pre) => trivial
  rw [List.foldl_append]
  exact hpre.sequence_le_foldl later

/-! ## Two runs -/

/-- A far bid moves the grid away from the other levels. -/
theorem near_farDelta :
    ([farDelta].foldl Traced.delta (reached (fun _ => []) 1 4 [] touchSnapshot)).Near := by
  have hsteps : AllSteps Traced.delta KeepsNear (reached (fun _ => []) 1 4 [] touchSnapshot)
      [farDelta] := by
    refine And.intro (fun _ side => ?_) trivial
    cases side <;> decide +kernel
  exact ((@near_run_iff (fun _ => []) 1 4 (by norm_num) (by decide) [] touchSnapshot
    touchSnapshot_success [farDelta]).mpr hsteps).1 _ (List.prefix_refl _)

/-- Four bids above a grid of eight levels, and then four asks below it. -/
def upAndDown : List Delta :=
  List.replicate 4 (deltaAt .bid (518 / 5)) ++ List.replicate 4 (deltaAt .ask (491 / 5))

/-- **The ask at 101 has drifted** to 100.2 after the grid has moved up and down. -/
theorem upAndDown_drifts :
    ⟨501 / 5, 2, 1⟩ ∈ (upAndDown.foldl Traced.delta
      (reached (fun _ => []) 1 8 [] touchSnapshot)).book.topLevels .ask 5 ∧
    (upAndDown.foldl Traced.delta
      (reached (fun _ => []) 1 8 [] touchSnapshot)).writer .ask 6 = 101 ∧
    ¬ (upAndDown.foldl Traced.delta (reached (fun _ => []) 1 8 [] touchSnapshot)).Near := by
  have hlevel : ⟨501 / 5, 2, 1⟩ ∈ (upAndDown.foldl Traced.delta
      (reached (fun _ => []) 1 8 [] touchSnapshot)).book.topLevels .ask 5 := by decide +kernel
  refine ⟨hlevel, by decide +kernel, fun hnear => ?_⟩
  obtain ⟨i, hi, hboth⟩ := hnear .ask 5 _ hlevel
  revert i
  decide +kernel

end Traced

end TradingInfrastructure
