import TradingInfrastructure.Common.Types
import TradingInfrastructure.Foundations.SlidingWindow
import Mathlib.Data.Rat.Floor

/-!
# The order book

`core/orderbook/orderbook.hpp`: each side of the book is an array of sizes and an array of order
counts, indexed by ticks above a base price. A snapshot chooses the base and the number of active
levels; a delta writes one slot; a delta outside the grid is dropped, or moves the base and shifts
the arrays through scratch arrays, which are then swapped in.

The two arrays of a side are grouped in a `SideGrid`. The checksum of a snapshot hashes the bytes
of its prices and sizes; the bytes of a number are a parameter.
-/

namespace TradingInfrastructure

/-- `std::llround`: to the nearest integer, halves away from zero. -/
def llround (x : ℚ) : ℤ := if 0 ≤ x then ⌊x + 1 / 2⌋ else -⌊-x + 1 / 2⌋

/-- The arrays of one side of the book. -/
structure SideGrid where
  sizes : List ℚ
  orderCounts : List ℕ
  deriving DecidableEq, Inhabited

namespace SideGrid

/-- All slots zero. -/
def zero (n : ℕ) : SideGrid := ⟨List.replicate n 0, List.replicate n 0⟩

/-- `std::fill` of both arrays with zero. -/
def clear (g : SideGrid) : SideGrid :=
  ⟨List.replicate g.sizes.length 0, List.replicate g.orderCounts.length 0⟩

def size (g : SideGrid) (i : ℕ) : ℚ := g.sizes.getD i 0

def orderCount (g : SideGrid) (i : ℕ) : ℕ := g.orderCounts.getD i 0

/-- A write of one slot. -/
def set (g : SideGrid) (i : ℕ) (size : ℚ) (orderCount : ℕ) : SideGrid :=
  ⟨g.sizes.set i size, g.orderCounts.set i orderCount⟩

/-- The copy loop of `recenter_grid`, into the cleared `scratch`. -/
def shiftInto (levels : ℕ) (shiftTicks : ℤ) (g scratch : SideGrid) : SideGrid :=
  ⟨shiftCells levels shiftTicks 0 g.sizes scratch.clear.sizes,
    shiftCells levels shiftTicks 0 g.orderCounts scratch.clear.orderCounts⟩

end SideGrid

/-- `OrderBook`. -/
structure OrderBook where
  tickSize : ℚ
  maxLevels : ℕ
  activeLevels : ℕ
  basePrice : ℚ
  sequence : ℕ
  initialized : Bool
  bids : SideGrid
  asks : SideGrid
  scratchBids : SideGrid
  scratchAsks : SideGrid
  outOfRangeStreak : ℕ
  deriving DecidableEq, Inhabited

namespace OrderBook

/-- `k_min_active_levels_`. -/
def minActiveLevels : ℕ := 1024

/-- `k_recenter_streak_trigger_`. -/
def recenterStreakTrigger : ℕ := 4

/-- `k_recenter_hard_breach_ratio_`. -/
def recenterHardBreachRatio : ℚ := 6 / 10

/-- `k_max_spread_ticks_multiplier_`. -/
def maxSpreadTicksMultiplier : ℚ := 1 / 4

/-- The constructor. -/
def new (tickSize : ℚ) (maxLevels : ℕ) : OrderBook where
  tickSize := tickSize
  maxLevels := maxLevels
  activeLevels := maxLevels
  basePrice := 0
  sequence := 0
  initialized := false
  bids := .zero maxLevels
  asks := .zero maxLevels
  scratchBids := .zero maxLevels
  scratchAsks := .zero maxLevels
  outOfRangeStreak := 0

/-- The arrays of a side. -/
def grid (b : OrderBook) : Side → SideGrid
  | .bid => b.bids
  | .ask => b.asks

/-- `price_to_index`. -/
def priceToIndex (b : OrderBook) (price : ℚ) : Option ℕ :=
  if b.initialized then
    let idx := llround ((price - b.basePrice) / b.tickSize)
    if idx < 0 ∨ idx.toNat ≥ b.activeLevels then none else some idx.toNat
  else none

/-- `index_to_price`. -/
def indexToPrice (b : OrderBook) (idx : ℕ) : ℚ := b.basePrice + idx * b.tickSize

/-! ## The readers -/

/-- The slots a reader of a side visits, best price first. -/
def slotsFromTouch (b : OrderBook) : Side → List ℕ
  | .bid => (List.range b.activeLevels).reverse
  | .ask => List.range b.activeLevels

/-- The best price of a side, zero when the side is empty. -/
def bestPrice (b : OrderBook) (side : Side) : ℚ :=
  match (b.slotsFromTouch side).find? fun i => 0 < (b.grid side).size i with
  | some i => b.indexToPrice i
  | none => 0

/-- `get_best_bid`. -/
def getBestBid (b : OrderBook) : ℚ := b.bestPrice .bid

/-- `get_best_ask`. -/
def getBestAsk (b : OrderBook) : ℚ := b.bestPrice .ask

/-- `get_mid_price`. -/
def getMidPrice (b : OrderBook) : ℚ :=
  if b.getBestBid > 0 ∧ b.getBestAsk > 0 then (b.getBestBid + b.getBestAsk) / 2 else 0

/-- The level that a reader makes of a slot. -/
def levelAt (b : OrderBook) (side : Side) (i : ℕ) : PriceLevel :=
  ⟨b.indexToPrice i, (b.grid side).size i, (b.grid side).orderCount i⟩

/-- The first `n` levels of a side, best price first. -/
def topLevels (b : OrderBook) (side : Side) (n : ℕ) : List PriceLevel :=
  (((b.slotsFromTouch side).filter fun i => 0 < (b.grid side).size i).take n).map (b.levelAt side)

/-- `get_top_levels`: the bids and the asks. -/
def getTopLevels (b : OrderBook) (n : ℕ) : List PriceLevel × List PriceLevel :=
  (b.topLevels .bid n, b.topLevels .ask n)

/-! ## Snapshots -/

/-- `compute_snapshot_active_levels`. -/
def computeSnapshotActiveLevels (b : OrderBook) (bestBid : ℚ) : ℕ :=
  let bestBidTicks := bestBid / b.tickSize
  if bestBidTicks ≤ 2 then min b.maxLevels minActiveLevels
  else
    let maxCenteredLevels := ⌊bestBidTicks - 1⌋.toNat * 2
    let boundedLevels := min b.maxLevels maxCenteredLevels
    let preferredLevels := min b.maxLevels (max minActiveLevels boundedLevels)
    max 2 preferredLevels

/-- `compute_snapshot_base_price`. -/
def computeSnapshotBasePrice (b : OrderBook) (bestBid : ℚ) (activeLevels : ℕ) : ℚ :=
  let centeredBase := bestBid - (activeLevels / 2 : ℕ) * b.tickSize
  if centeredBase > 0 then centeredBase else b.tickSize

/-- `max_allowed_spread_abs`. -/
def maxAllowedSpreadAbs (b : OrderBook) (levels : ℕ) : ℚ :=
  max b.tickSize (levels * b.tickSize * maxSpreadTicksMultiplier)

/-- `fnv1a_bytes`. -/
def fnv1aBytes (data : List UInt8) (seed : UInt32) : UInt32 :=
  data.foldl (fun hash byte => (hash ^^^ byte.toUInt32) * 16777619) seed

/-- `compute_snapshot_checksum`, given the bytes of a number. -/
def computeSnapshotChecksum (bytesOf : ℚ → List UInt8) (s : Snapshot) : UInt32 :=
  (s.bids ++ s.asks).foldl
    (fun hash level => fnv1aBytes (bytesOf level.size) (fnv1aBytes (bytesOf level.price) hash))
    2166136261

/-- A write of one slot of a side. -/
def setSlot (b : OrderBook) (side : Side) (i : ℕ) (size : ℚ) (orderCount : ℕ) : OrderBook :=
  match side with
  | .bid => { b with bids := b.bids.set i size orderCount }
  | .ask => { b with asks := b.asks.set i size orderCount }

/-- A level of a snapshot, written when its price is in the grid. -/
def writeLevel (side : Side) (b : OrderBook) (level : PriceLevel) : OrderBook :=
  match b.priceToIndex level.price with
  | some i => b.setSlot side i level.size level.orderCount
  | none => b

/-- The levels of a snapshot that the grid of the book does not reach. -/
def skippedLevels (b : OrderBook) (levels : List PriceLevel) : ℕ :=
  levels.countP fun level => (b.priceToIndex level.price).isNone

/-- The empty grid that a snapshot starts from. -/
def startSnapshot (b : OrderBook) (s : Snapshot) (activeLevels : ℕ) (newBase : ℚ) : OrderBook :=
  { b with
    bids := b.bids.clear
    asks := b.asks.clear
    activeLevels := activeLevels
    basePrice := newBase
    sequence := s.sequence
    outOfRangeStreak := 0
    initialized := true }

/-- `apply_snapshot`. -/
def applySnapshot (bytesOf : ℚ → List UInt8) (b : OrderBook) (s : Snapshot) :
    Result × OrderBook :=
  match s.bids, s.asks with
  | bid :: _, ask :: _ =>
    let spread := ask.price - bid.price
    if spread ≤ 0 then (.errorInvalidPrice, b)
    else
      let activeLevels := b.computeSnapshotActiveLevels bid.price
      if spread > b.maxAllowedSpreadAbs activeLevels then (.errorInvalidPrice, b)
      else if s.checksumPresent ∧ computeSnapshotChecksum bytesOf s ≠ s.checksum then
        (.errorBookCorrupted, b)
      else
        let empty := b.startSnapshot s activeLevels
          (b.computeSnapshotBasePrice bid.price activeLevels)
        let written := s.asks.foldl (writeLevel .ask) (s.bids.foldl (writeLevel .bid) empty)
        let skipped := empty.skippedLevels s.bids + empty.skippedLevels s.asks
        if skipped * 2 > s.bids.length + s.asks.length then
          (.errorBookCorrupted, { written with initialized := false })
        else (.success, written)
  | _, _ => (.errorInvalidPrice, b)

/-! ## Deltas -/

/-- `delta_improves_touch`. -/
def deltaImprovesTouch (b : OrderBook) (d : Delta) : Bool :=
  match d.side with
  | .bid => b.getBestBid ≤ 0 || d.price ≥ b.getBestBid
  | .ask => b.getBestAsk ≤ 0 || d.price ≤ b.getBestAsk

/-- How many ticks a price lies outside the grid. -/
def breachTicks (b : OrderBook) (price : ℚ) : ℚ :=
  let relative := (price - b.basePrice) / b.tickSize
  let upperIdx := (b.activeLevels : ℚ) - 1
  if relative < 0 then -relative else if relative > upperIdx then relative - upperIdx else 0

/-- `should_recenter`: the answer, and the streak it leaves. -/
def shouldRecenter (b : OrderBook) (d : Delta) : Bool × ℕ :=
  if !b.deltaImprovesTouch d then (false, 0)
  else if b.breachTicks d.price ≤ 0 then (false, 0)
  else
    let streak := b.outOfRangeStreak + 1
    (b.breachTicks d.price ≥ b.activeLevels * recenterHardBreachRatio ||
      streak ≥ recenterStreakTrigger, streak)

/-- `recenter_grid`. -/
def recenterGrid (b : OrderBook) (anchorPrice : ℚ) : OrderBook :=
  let levels := b.activeLevels
  let newBase := anchorPrice - (levels / 2 : ℕ) * b.tickSize
  let shiftTicks := llround ((b.basePrice - newBase) / b.tickSize)
  { b with
    bids := b.bids.shiftInto levels shiftTicks b.scratchBids
    asks := b.asks.shiftInto levels shiftTicks b.scratchAsks
    scratchBids := b.bids
    scratchAsks := b.asks
    basePrice := newBase
    outOfRangeStreak := 0 }

/-- `sequence_.store(delta.sequence)` for a sequenced delta. -/
def advanceSequence (b : OrderBook) (d : Delta) : OrderBook :=
  if d.sequence > 0 then { b with sequence := d.sequence } else b

/-- A delta the book has already passed. -/
def stale (b : OrderBook) (d : Delta) : Bool := d.sequence > 0 && d.sequence < b.sequence

/-- The end of `apply_delta`: the slot is written and the sequence advances. -/
def storeDelta (b : OrderBook) (d : Delta) (i : ℕ) : OrderBook :=
  ({ b with outOfRangeStreak := 0 }.setSlot d.side i d.size d.orderCount).advanceSequence d

/-- `apply_delta`. -/
def applyDelta (b : OrderBook) (d : Delta) : Result × OrderBook :=
  if !b.initialized then (.errorBookCorrupted, b)
  else if d.size < 0 then (.errorInvalidSize, b)
  else if b.stale d then (.success, b)
  else
    match b.priceToIndex d.price with
    | some i => (.success, b.storeDelta d i)
    | none =>
      let (recenter, streak) := b.shouldRecenter d
      let b := { b with outOfRangeStreak := streak }
      if recenter then
        let moved := b.recenterGrid d.price
        match moved.priceToIndex d.price with
        | some i => (.success, moved.storeDelta d i)
        | none => (.errorInvalidPrice, moved)
      else (.success, b.advanceSequence d)

end OrderBook

end TradingInfrastructure
