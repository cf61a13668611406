import TradingInfrastructure.Feeds.UsableBook
import TradingInfrastructure.OrderBook.Touch

/-!
# The books that main constructs

`trading_engine_main.cpp` constructs the book of each venue on a tick of 1.0, whatever the price
increment of the venue is; `refresh_tick_size_for_book_init`, which would fetch it, is not called.

Where the increment is a whole number of ticks, every price has a slot of its own: a delta at one
price changes the size at no other, and the touch of the book is that of levels of the venue, so
that it is not crossed when the venue's book is not (`engine_book_apart`). On a finer increment the
prices between two ticks share a slot, and the touch locks (`tenths_share_a_slot`).
-/

namespace TradingInfrastructure

/-! ## Construction -/

/-- `k_default_fallback_tick_size`. -/
def defaultFallbackTickSize : ℚ := 1

/-- The fields of the risk configuration that size the books. -/
structure BookConfig where
  targetRangeUsd : ℚ := 50
  maxBookLevels : ℕ := 10000

/-- `levels_for_tick`. -/
def levelsForTick (cfg : BookConfig) (tick : ℚ) : ℕ :=
  let targetRangeUsd := if cfg.targetRangeUsd > 0 then cfg.targetRangeUsd else 50
  let maxBookLevels := if cfg.maxBookLevels > 0 then cfg.maxBookLevels else 10000
  if tick ≤ 0 then 1
  else
    let levels := ⌊targetRangeUsd / tick⌋.toNat
    let capped := if levels > 0 then levels else 1
    if capped < maxBookLevels then capped else maxBookLevels

/-- The depth that the feed of a venue subscribes to, if it limits the levels of the book:
`k_snapshot_depth`, `k_subscribed_depth` and `k_book_depth`. -/
def feedDepth : Exchange → Option ℕ
  | .binance => some 5000
  | .kraken => some 100
  | .okx => some 400
  | _ => none

/-- `binance_levels`, `kraken_levels`, `okx_levels` and `coinbase_levels`. -/
def bookLevels (cfg : BookConfig) (venue : Exchange) : ℕ :=
  match feedDepth venue with
  | some depth => min (levelsForTick cfg defaultFallbackTickSize) (depth * 2)
  | none => levelsForTick cfg defaultFallbackTickSize

/-- The book of a venue as main constructs it. -/
def engineBook (cfg : BookConfig) (venue : Exchange) : OrderBook :=
  .new defaultFallbackTickSize (bookLevels cfg venue)

/-! ## The property -/

namespace OrderBook

/-- The size that the book has at a price of the grid: that of the slot of the price. -/
def sizeAt (b : OrderBook) (side : Side) (p : ℚ) : Option ℚ :=
  (b.priceToIndex p).map (b.grid side).size

/-- A delta at one price changes the size at no other multiple of the increment, as long as that is
in the grid. -/
def Apart (increment : ℚ) (b : OrderBook) : Prop :=
  ∀ d : Delta, d.Regular increment → ∀ side p size size', OnTick increment p → p ≠ d.price →
    b.sizeAt side p = some size → (b.applyDelta d).2.sizeAt side p = some size' → size' = size

end OrderBook

namespace Tracked

/-- A call, on the book and on the history of the venue's own book, which begins anew with every
snapshot. -/
def receive (bytesOf : ℚ → List UInt8) (t : Tracked) : Publication → Tracked
  | .snapshot s => ofSnapshot bytesOf t.book s
  | .delta d => t.delta d
  | .trade _ => t

/-- The book and the venue's own book after a list of calls. -/
def receiveAll (bytesOf : ℚ → List UInt8) (b₀ : OrderBook) (calls : List Publication) : Tracked :=
  calls.foldl (receive bytesOf) ⟨b₀, fun _ => []⟩

/-- The venue's own book is not crossed within the grid. -/
def NotCrossed (t : Tracked) : Prop :=
  ∀ p q, t.Live .bid p → t.Live .ask q → t.book.priceToIndex p ≠ none →
    t.book.priceToIndex q ≠ none → p < q

/-- The best bid shown is below the best ask shown. The readers return zero for an empty side. -/
def TouchApart (t : Tracked) : Prop :=
  t.book.getBestBid ≠ 0 → t.book.getBestAsk ≠ 0 → t.book.getBestBid < t.book.getBestAsk

end Tracked

/-- The prices of a call are positive multiples of the increment, and its sizes not negative. -/
def Publication.Regular (increment : ℚ) : Publication → Prop
  | .snapshot s => s.Regular increment
  | .delta d => d.Regular increment
  | .trade _ => True

/-! ## Increments that are whole ticks -/

variable {tick increment p : ℚ} {bytesOf : ℚ → List UInt8}

theorem OnTick.of_increment (hincrement : OnTick tick increment) (hp : OnTick increment p) :
    OnTick tick p := by
  obtain ⟨k, rfl⟩ := hincrement
  obtain ⟨l, rfl⟩ := hp
  exact ⟨l * k, by push_cast; ring⟩

theorem Delta.Regular.of_increment {d : Delta} (hincrement : OnTick tick increment)
    (hd : d.Regular increment) : d.Regular tick :=
  ⟨hd.price_pos, hincrement.of_increment hd.onTick, hd.size_nonneg⟩

theorem Snapshot.Regular.of_increment {s : Snapshot} (hincrement : OnTick tick increment)
    (hs : s.Regular increment) : s.Regular tick := fun side level hlevel =>
  have ⟨hpos, htick, hsize⟩ := hs side level hlevel
  ⟨hpos, hincrement.of_increment htick, hsize⟩

namespace OrderBook

variable {b : OrderBook} {side : Side} {d : Delta}

/-- On a tick, the size at a price is the one that the grid shows there. -/
theorem Gridded.sizeAt_eq (h : b.Gridded) (hp : OnTick b.tickSize p) :
    b.sizeAt side p = (b.shown side p).map Prod.fst := by
  rw [sizeAt, shown]
  cases hidx : b.priceToIndex p with
  | none => rfl
  | some i =>
    have hprice := ((h.priceToIndex_eq_some hp).mp hidx).2
    rw [Option.bind_some, if_pos hprice.symm]
    rfl

/-- Moving the grid keeps the size at a price that has a slot before and after. -/
theorem Gridded.sizeAt_recenterGrid (h : b.Gridded) {anchor size size' : ℚ}
    (ha : OnTick b.tickSize anchor) (hp : OnTick b.tickSize p) (hsize : b.sizeAt side p = some size)
    (hsize' : (b.recenterGrid anchor).sizeAt side p = some size') : size' = size := by
  have hmoved := h.recenterGrid ha
  rw [h.sizeAt_eq hp] at hsize
  rw [hmoved.sizeAt_eq hp] at hsize'
  obtain ⟨v, hv, rfl⟩ := Option.map_eq_some_iff.mp hsize
  obtain ⟨v', hv', rfl⟩ := Option.map_eq_some_iff.mp hsize'
  obtain ⟨j, hj, rfl, hcell⟩ := hmoved.shown_eq_some.mp hv'
  rw [h.cell_recenterGrid ha side hj, hv, Option.getD_some] at hcell
  rw [hcell]

/-- **On whole ticks the levels are kept apart.** -/
theorem Gridded.apart (h : b.Gridded) (hincrement : OnTick b.tickSize increment) :
    b.Apart increment := by
  intro d hd side p size size' hp hne hsize hsize'
  have hd' := hd.of_increment hincrement
  have hp' := hincrement.of_increment hp
  obtain ⟨hgridded, htick⟩ := h.applyDelta hd'
  rw [hgridded.sizeAt_eq (htick ▸ hp')] at hsize'
  have hbefore : (b.shown side p).map Prod.fst = some size := h.sizeAt_eq hp' ▸ hsize
  rcases h.applyDelta_cases hd' with ⟨-, he⟩ | ⟨-, i, hi, hprice, he⟩ | ⟨-, -, -, he⟩ |
      ⟨-, -, -, he⟩ <;> rw [he] at hsize'
  · exact Option.some.inj (hsize'.symm.trans hbefore)
  · by_cases hside : side = d.side
    · subst hside
      rw [h.shown_storeDelta d hi hprice, Function.update_of_ne hne] at hsize'
      exact Option.some.inj (hsize'.symm.trans hbefore)
    · rw [shown_storeDelta_of_ne b d i hside] at hsize'
      exact Option.some.inj (hsize'.symm.trans hbefore)
  · rw [shown_skipDelta] at hsize'
    exact Option.some.inj (hsize'.symm.trans hbefore)
  · have hmoved := h.recenterGrid hd'.onTick
    have hshown : (b.moveAndStore d).shown side p = (b.recenterGrid d.price).shown side p := by
      by_cases hside : side = d.side
      · subst hside
        rw [h.shown_moveAndStore hd', Function.update_of_ne hne]
      · rw [shown_moveAndStore_of_ne b hside]
    rw [hshown, ← hmoved.sizeAt_eq hp'] at hsize'
    exact h.sizeAt_recenterGrid hd'.onTick hp' hsize hsize'

/-- Before its first snapshot a book has no sizes and no touch. -/
theorem apart_new (tick : ℚ) (maxLevels : ℕ) : (new tick maxLevels).Apart increment := by
  intro d _ side p size size' _ _ hsize _
  cases hsize

theorem bestPrice_new (tick : ℚ) (maxLevels : ℕ) (side : Side) :
    (new tick maxLevels).bestPrice side = 0 := by
  have hnone : ((new tick maxLevels).slotsFromTouch side).find?
      (fun i => 0 < ((new tick maxLevels).grid side).size i) = none := by
    rw [List.find?_eq_none]
    intro i _ hsize
    have hzero : ((new tick maxLevels).grid side).size i = 0 := by
      cases side <;> simp [grid, new, SideGrid.zero, SideGrid.size]
    rw [hzero] at hsize
    simp at hsize
  rw [bestPrice, hnone]

end OrderBook

namespace Tracked

variable {t : Tracked} {maxLevels : ℕ} {call : Publication} {calls : List Publication}

/-- The touch of a faithful book is not crossed when the venue's book is not. -/
theorem Faithful.touchApart (h : t.Faithful tick) (hvenue : t.NotCrossed) : t.TouchApart := by
  have hbest : ∀ side, t.book.bestPrice side ≠ 0 → t.Live side (t.book.bestPrice side) ∧
      t.book.priceToIndex (t.book.bestPrice side) ≠ none := by
    intro side hne
    obtain hbest | ⟨hzero, -⟩ := h.gridded.bestPrice_spec side
    · refine ⟨h.stored_live hbest.1, fun hnone => ?_⟩
      obtain ⟨v, hv, -⟩ := hbest.1
      rw [OrderBook.shown_of_priceToIndex_none hnone] at hv
      cases hv
    · exact absurd hzero hne
  intro hbid hask
  obtain ⟨hbidLive, hbidIn⟩ := hbest .bid hbid
  obtain ⟨haskLive, haskIn⟩ := hbest .ask hask
  exact hvenue _ _ hbidLive haskLive hbidIn haskIn

/-- What holds of a book that main constructs: it has had no snapshot yet, or shows no ghost
levels. -/
def Kept (tick : ℚ) (maxLevels : ℕ) (t : Tracked) : Prop :=
  t.book = .new tick maxLevels ∨ t.Faithful tick

/-- A call keeps this. -/
theorem Kept.receive (htick : 0 < tick) (hmax : 2 ≤ maxLevels) (ht : t.Kept tick maxLevels)
    (hincrement : OnTick tick increment) (hcall : call.Regular increment)
    (husable : ∀ s, call = .snapshot s → Usable bytesOf t.book s) :
    (t.receive bytesOf call).Kept tick maxLevels := by
  cases call with
  | trade _ => exact ht
  | snapshot s =>
    have hallocated : t.book.Allocated ∧ t.book.tickSize = tick := by
      obtain hnew | hfaithful := ht
      · exact hnew ▸ ⟨OrderBook.allocated_new htick hmax, rfl⟩
      · exact ⟨hfaithful.gridded.toAllocated, hfaithful.tick_eq⟩
    obtain ⟨hbook, heq⟩ := hallocated
    have hs : s.Regular t.book.tickSize := heq ▸ Snapshot.Regular.of_increment hincrement hcall
    have hsuccess := OrderBook.applySnapshot_success_iff.mpr (husable s rfl)
    exact .inr (heq ▸ faithful_ofSnapshot hbook hs hsuccess)
  | delta d =>
    obtain hnew | hfaithful := ht
    · left
      have hbook : (t.receive bytesOf (.delta d)).book = (t.book.applyDelta d).2 := rfl
      rw [hbook, hnew]
      rfl
    · exact .inr (hfaithful.delta (Delta.Regular.of_increment hincrement hcall))

theorem receiveAll_concat (b₀ : OrderBook) : receiveAll bytesOf b₀ (calls ++ [call]) =
    (receiveAll bytesOf b₀ calls).receive bytesOf call := by
  rw [receiveAll, List.foldl_append]
  rfl

/-- The book is the one that the engine wires to the handler. -/
theorem receiveAll_book (b₀ : OrderBook) :
    (receiveAll bytesOf b₀ calls).book = bookAfter bytesOf b₀ calls := by
  induction calls using List.reverseRecOn with
  | nil => rfl
  | append_singleton rest call ih =>
    rw [receiveAll_concat, bookAfter_append, ← ih]
    cases call <;> rfl

/-- Every run keeps this. -/
theorem kept_receiveAll (htick : 0 < tick) (hmax : 2 ≤ maxLevels)
    (hincrement : OnTick tick increment) (hcalls : ∀ call ∈ calls, call.Regular increment)
    (husable : AtEach (fun before call => ∀ s, call = .snapshot s →
      Usable bytesOf (bookAfter bytesOf (.new tick maxLevels) before) s) calls) :
    (receiveAll bytesOf (.new tick maxLevels) calls).Kept tick maxLevels := by
  induction calls using List.reverseRecOn with
  | nil => exact .inl rfl
  | append_singleton rest call ih =>
    obtain ⟨hrest, hcall⟩ := atEach_concat.mp husable
    have hkept := ih (fun c hc => hcalls c (List.mem_append_left _ hc)) hrest
    rw [receiveAll_concat]
    rw [← receiveAll_book] at hcall
    exact hkept.receive htick hmax hincrement (hcalls call (by simp)) hcall

end Tracked

/-- **The books of the engine keep the prices of a venue apart** when its increment is a whole
number of ticks, in every run of snapshots that the book can use and deltas: a delta at one price
changes the size at no other, and the touch shown is not crossed unless the venue's book is. -/
theorem engine_book_apart (bytesOf : ℚ → List UInt8) (cfg : BookConfig) (venue : Exchange)
    (hlevels : 2 ≤ bookLevels cfg venue) (increment : ℚ)
    (hincrement : OnTick defaultFallbackTickSize increment) (calls : List Publication)
    (hcalls : ∀ call ∈ calls, call.Regular increment)
    (husable : AtEach (fun before call => ∀ s, call = .snapshot s →
      Usable bytesOf (bookAfter bytesOf (engineBook cfg venue) before) s) calls) :
    (bookAfter bytesOf (engineBook cfg venue) calls).Apart increment ∧
      ((Tracked.receiveAll bytesOf (engineBook cfg venue) calls).NotCrossed →
        (Tracked.receiveAll bytesOf (engineBook cfg venue) calls).TouchApart) := by
  have htick : 0 < defaultFallbackTickSize := by decide
  rw [← Tracked.receiveAll_book]
  have hkept : (Tracked.receiveAll bytesOf (engineBook cfg venue) calls).Kept
      defaultFallbackTickSize (bookLevels cfg venue) :=
    Tracked.kept_receiveAll htick hlevels hincrement hcalls husable
  obtain hnew | hfaithful := hkept
  · refine ⟨hnew ▸ OrderBook.apart_new _ _, fun _ hbid => absurd ?_ hbid⟩
    rw [hnew]
    exact OrderBook.bestPrice_new _ _ .bid
  · exact ⟨hfaithful.gridded.apart (hfaithful.tick_eq ▸ hincrement), hfaithful.touchApart⟩

/-! ### An increment of one tick, and of a tenth -/

theorem engine_book_apart_ticks :
    (bookAfter (fun _ => []) (engineBook {} .kraken) [.snapshot OrderBook.touchSnapshot]).Apart 1 ∧
      (Tracked.receiveAll (fun _ => []) (engineBook {} .kraken)
        [.snapshot OrderBook.touchSnapshot]).book.getBestBid = 100 := by
  have hcalls : ∀ call ∈ [Publication.snapshot OrderBook.touchSnapshot], call.Regular 1 := by
    intro call hcall
    cases List.mem_singleton.mp hcall
    exact OrderBook.regular_touchSnapshot
  have husable : AtEach (fun before call => ∀ s, call = .snapshot s →
      Usable (fun _ => []) (bookAfter (fun _ => []) (engineBook {} .kraken) before) s)
      [.snapshot OrderBook.touchSnapshot] := by
    refine (@atEach_concat _ _ [] _).mpr ⟨atEach_nil, fun s heq => ?_⟩
    cases heq
    decide +kernel
  exact ⟨(engine_book_apart (fun _ => []) {} .kraken (by decide +kernel) 1 ⟨1, by decide +kernel⟩ _
    hcalls husable).1, by decide +kernel⟩

/-- A snapshot of a venue whose prices are tenths. -/
def tenthsSnapshot : Snapshot where
  sequence := 1
  bids := [⟨100, 1, 0⟩]
  asks := [⟨1001 / 10, 1, 0⟩, ⟨1002 / 10, 2, 0⟩]
  checksum := 0
  checksumPresent := false

/-- The level at 100.1 goes. -/
def tenthsDelta : Delta := ⟨.ask, 1001 / 10, 0, 0, 2⟩

theorem regular_tenthsSnapshot : tenthsSnapshot.Regular (1 / 10) := by
  intro side level hlevel
  cases side with
  | bid =>
    cases List.mem_singleton.mp hlevel
    exact ⟨by norm_num, ⟨1000, by norm_num⟩, by norm_num⟩
  | ask =>
    obtain rfl | hlevel := List.mem_cons.mp hlevel
    · exact ⟨by norm_num, ⟨1001, by norm_num⟩, by norm_num⟩
    · cases List.mem_singleton.mp hlevel
      exact ⟨by norm_num, ⟨1002, by norm_num⟩, by norm_num⟩

/-- The two asks share the slot of the bid: the delta at 100.1 takes the size at 100.2 away, and the
touch shown is 100 on both sides, while the venue's book is not crossed. -/
theorem tenths_share_a_slot : tenthsSnapshot.Regular (1 / 10) ∧
    Usable (fun _ => []) (engineBook {} .kraken) tenthsSnapshot ∧
    ¬ (bookAfter (fun _ => []) (engineBook {} .kraken) [.snapshot tenthsSnapshot]).Apart (1 / 10) ∧
    (Tracked.receiveAll (fun _ => []) (engineBook {} .kraken)
      [.snapshot tenthsSnapshot]).NotCrossed ∧
    ¬ (Tracked.receiveAll (fun _ => []) (engineBook {} .kraken)
      [.snapshot tenthsSnapshot]).TouchApart := by
  refine ⟨regular_tenthsSnapshot, by decide +kernel, fun hapart => ?_, fun p q hp hq _ _ => ?_,
    fun htouch => ?_⟩
  · have hsize := hapart tenthsDelta
      ⟨by decide +kernel, ⟨1001, by decide +kernel⟩, by decide +kernel⟩
      .ask (1002 / 10) 2 0 ⟨1002, by norm_num⟩ (by decide +kernel) (by decide +kernel)
      (by decide +kernel)
    exact absurd hsize (by decide +kernel)
  · obtain ⟨v, hv, -⟩ := hp
    obtain ⟨w, hw, rfl⟩ := exists_of_lastWrite hv
    obtain ⟨v', hv', -⟩ := hq
    obtain ⟨w', hw', rfl⟩ := exists_of_lastWrite hv'
    cases List.mem_singleton.mp hw
    obtain rfl | hw' := List.mem_cons.mp hw'
    · decide +kernel
    · cases List.mem_singleton.mp hw'
      decide +kernel
  · exact absurd (htouch (by decide +kernel) (by decide +kernel)) (by decide +kernel)

end TradingInfrastructure
