import TradingInfrastructure.Common.Types
import TradingInfrastructure.Foundations.SlotPool
import TradingInfrastructure.Reconciliation.Snapshot

/-!
# The position ledger

`core/execution/common/portfolio/position_ledger.hpp`: one record per (exchange, symbol), found
by a linear search over four slots and created in the first free one. A record keeps the
position, its average entry price, the profit realized, the quantity resting in open bids and
asks, and whether the position has an age.

The code reads the clock when a position is opened; the time is an argument here.
-/

namespace TradingInfrastructure

/-- `PositionLedger::VenuePosition`. A value-initialized record is all zeros, so its exchange is
the first enumerator. -/
structure VenuePosition where
  exchange : Exchange := .binance
  symbol : Symbol := default
  position : ℚ := 0
  avgEntryPrice : ℚ := 0
  leverage : ℚ := 0
  realizedPnl : ℚ := 0
  pendingBidQty : ℚ := 0
  pendingAskQty : ℚ := 0
  midPrice : ℚ := 0
  openedAt : ℤ := 0
  hasInventoryAge : Bool := false
  markedForReconcile : Bool := false
  active : Bool := false
  deriving DecidableEq, Inhabited

/-- The sign of a quantity, `(value > 0.0) - (value < 0.0)`. -/
def positionSign (value : ℚ) : ℤ := (if value > 0 then 1 else 0) - (if value < 0 then 1 else 0)

namespace VenuePosition

/-- The record answers to this exchange and symbol. -/
def isFor (exchange : Exchange) (symbol : CString) (v : VenuePosition) : Bool :=
  v.active && v.exchange == exchange && strncmpEq 16 v.symbol.chars symbol

/-- `apply_inventory_fill`. -/
def applyInventoryFill (v : VenuePosition) (side : Side) (qty price : ℚ) (now : ℤ) :
    VenuePosition :=
  if qty ≤ 0 ∨ price ≤ 0 then v
  else
    let signedQty := side.signed qty
    let priorPosition := v.position
    let priorSign := positionSign priorPosition
    let fillSign := positionSign signedQty
    let absPrior := |priorPosition|
    let absFill := |signedQty|
    if priorSign = 0 ∨ priorSign = fillSign then
      let newPosition := priorPosition + signedQty
      let totalQty := absPrior + absFill
      let avg :=
        if totalQty > 0 then (v.avgEntryPrice * absPrior + price * absFill) / totalQty else 0
      { v with
        position := newPosition
        avgEntryPrice := if newPosition = 0 then 0 else avg
        openedAt := if priorPosition = 0 ∧ newPosition ≠ 0 then now else v.openedAt
        hasInventoryAge :=
          if newPosition = 0 then false
          else if priorPosition = 0 ∧ newPosition ≠ 0 then true else v.hasInventoryAge }
    else
      let closingQty := min absPrior absFill
      let realized :=
        if priorPosition > 0 then v.realizedPnl + (price - v.avgEntryPrice) * closingQty
        else v.realizedPnl + (v.avgEntryPrice - price) * closingQty
      let newPosition := priorPosition + signedQty
      if newPosition = 0 then
        { v with
          position := 0, avgEntryPrice := 0, realizedPnl := realized, hasInventoryAge := false }
      else if positionSign newPosition ≠ priorSign then
        { v with
          position := newPosition, avgEntryPrice := price, realizedPnl := realized,
          openedAt := now, hasInventoryAge := true }
      else
        { v with position := newPosition, realizedPnl := realized }

/-- The quantity resting on one side. -/
def pendingQty (v : VenuePosition) : Side → ℚ
  | .bid => v.pendingBidQty
  | .ask => v.pendingAskQty

/-- `venue->pending_bid_qty += qty` or `venue->pending_ask_qty += qty`. -/
def addPending (v : VenuePosition) (side : Side) (qty : ℚ) : VenuePosition :=
  match side with
  | .bid => { v with pendingBidQty := v.pendingBidQty + qty }
  | .ask => { v with pendingAskQty := v.pendingAskQty + qty }

/-- The pending quantity of a side falls by `qty`, but not below zero. -/
def releasePending (v : VenuePosition) (side : Side) (qty : ℚ) : VenuePosition :=
  match side with
  | .bid => { v with pendingBidQty := max 0 (v.pendingBidQty - qty) }
  | .ask => { v with pendingAskQty := max 0 (v.pendingAskQty - qty) }

end VenuePosition

/-- `PositionLedger`: its slots and the symbol last written. -/
structure PositionLedger where
  venues : List VenuePosition
  symbol : Symbol
  deriving DecidableEq

namespace PositionLedger

/-- `MAX_VENUES`. -/
def maxVenues : ℕ := 4

/-- A new ledger. The code leaves `symbol_` uninitialized; nothing reads it before it is
written. -/
def new : PositionLedger := ⟨List.replicate maxVenues {}, default⟩

/-- `find_venue`. -/
def findVenue (l : PositionLedger) (exchange : Exchange) (symbol : CString) : Option ℕ :=
  l.venues.findIdx? (VenuePosition.isFor exchange symbol)

/-- The free slot that `find_or_create_venue` takes. -/
def findFreeSlot (l : PositionLedger) : Option ℕ := l.venues.findIdx? fun v => !v.active

/-- `find_or_create_venue`: the ledger afterwards and the slot, or nothing when all slots belong
to others. -/
def findOrCreateVenue (l : PositionLedger) (exchange : Exchange) (symbol : CString) :
    Option (PositionLedger × ℕ) :=
  match l.findVenue exchange symbol with
  | some i => some (l, i)
  | none =>
    match l.findFreeSlot with
    | some i =>
      some ({ l with
        venues := l.venues.modify i fun _ =>
          { exchange, active := true, symbol := copySymbol symbol } }, i)
    | none => none

/-- A change of one record. -/
def modifyVenue (l : PositionLedger) (i : ℕ) (f : VenuePosition → VenuePosition) :
    PositionLedger :=
  { l with venues := l.venues.modify i f }

/-- `copy_symbol(symbol_, symbol)`. -/
def writeSymbol (l : PositionLedger) (symbol : CString) : PositionLedger :=
  { l with symbol := copySymbol symbol }

/-- `on_order_submitted`. -/
def onOrderSubmitted (l : PositionLedger) (order : Order) : PositionLedger :=
  match l.findOrCreateVenue order.exchange order.symbol.chars with
  | none => l
  | some (l', i) =>
    (l'.modifyVenue i fun v => v.addPending order.side order.quantity).writeSymbol
      order.symbol.chars

/-- `on_order_closed`. -/
def onOrderClosed (l : PositionLedger) (order : Order) (remainingQty : ℚ) : PositionLedger :=
  match l.findVenue order.exchange order.symbol.chars with
  | none => l
  | some i => l.modifyVenue i fun v => v.releasePending order.side (max 0 remainingQty)

/-- `on_fill`. -/
def onFill (l : PositionLedger) (order : Order) (fill : FillUpdate) (now : ℤ) : PositionLedger :=
  match l.findOrCreateVenue order.exchange order.symbol.chars with
  | none => l
  | some (l', i) =>
    (l'.writeSymbol order.symbol.chars).modifyVenue i fun v =>
      (v.releasePending order.side fill.fillQty).applyInventoryFill order.side fill.fillQty
        fill.fillPrice now

/-- `update_mid_price`. -/
def updateMidPrice (l : PositionLedger) (symbol : CString) (exchange : Exchange) (midPrice : ℚ) :
    PositionLedger :=
  match l.findOrCreateVenue exchange symbol with
  | none => l
  | some (l', i) => (l'.modifyVenue i fun v => { v with midPrice := midPrice }).writeSymbol symbol

/-- What `reconcile_positions` does with one position of the snapshot, for two readings of the
clocks. -/
def reconcilePosition (exchange : Exchange) (nowSystem nowSteady : ℤ) (l : PositionLedger)
    (position : ReconciledPosition) : PositionLedger :=
  match l.findOrCreateVenue exchange position.symbol with
  | none => l
  | some (l', i) =>
    let ageNs := if nowSystem > position.openedAtNs then nowSystem - position.openedAtNs else 0
    (l'.modifyVenue i fun v =>
      { v with
        position := position.quantity
        avgEntryPrice := position.avgEntryPrice
        leverage := position.leverage
        markedForReconcile := false
        hasInventoryAge := position.quantity ≠ 0
        openedAt :=
          if position.quantity = 0 then 0
          else if v.hasInventoryAge then v.openedAt
          else if position.openedAtNs > 0 then nowSteady - ageNs
          else nowSteady }).writeSymbol position.symbol

/-- `reconcile_positions`: the records of the exchange take the positions of the snapshot, and those
that it does not have become flat. -/
def reconcilePositions (l : PositionLedger) (exchange : Exchange)
    (snapshot : ReconciliationSnapshot)
    (nowSystem nowSteady : ℤ) : PositionLedger :=
  let marked : PositionLedger :=
    { l with venues := l.venues.map fun v =>
        if v.active && v.exchange == exchange then { v with markedForReconcile := true } else v }
  let updated := snapshot.positions.items.foldl (reconcilePosition exchange nowSystem nowSteady)
    marked
  { updated with venues := updated.venues.map fun v =>
      if v.active && v.exchange == exchange && v.markedForReconcile then
        { v with
          position := 0, avgEntryPrice := 0, leverage := 0, hasInventoryAge := false, openedAt := 0
          markedForReconcile := false }
      else v }

/-- The record of a venue, all zeros when there is none. -/
def venue (l : PositionLedger) (exchange : Exchange) (symbol : CString) : VenuePosition :=
  ((l.findVenue exchange symbol).bind (l.venues[·]?)).getD {}

/-- The pending quantity of a side over all active records, as `snapshot` totals it. -/
def pendingQty (l : PositionLedger) (side : Side) : ℚ :=
  ((l.venues.filter (·.active)).map (·.pendingQty side)).sum

/-! ## The snapshot of the ledger -/

/-- `inventory_age_ms`, in whole milliseconds. -/
def inventoryAgeMs (now : ℤ) (v : VenuePosition) : ℤ :=
  if !v.hasInventoryAge ∨ v.position = 0 then 0 else (now - v.openedAt).tdiv 1000000

/-- `compute_unrealized_pnl`. -/
def computeUnrealizedPnl (v : VenuePosition) : ℚ :=
  if v.position = 0 ∨ v.avgEntryPrice ≤ 0 ∨ v.midPrice ≤ 0 then 0
  else if v.position > 0 then (v.midPrice - v.avgEntryPrice) * v.position
  else (v.avgEntryPrice - v.midPrice) * -v.position

/-- `PositionLedgerVenueSnapshot`. -/
structure VenueSnapshot where
  exchange : Exchange
  symbol : Symbol
  position : ℚ
  avgEntryPrice : ℚ
  leverage : ℚ
  realizedPnl : ℚ
  unrealizedPnl : ℚ
  pendingBidQty : ℚ
  pendingAskQty : ℚ
  midPrice : ℚ
  inventoryAgeMs : ℤ
  active : Bool
  deriving DecidableEq, Inhabited

/-- `build_venue_snapshot`. -/
def buildVenueSnapshot (now : ℤ) (v : VenuePosition) : VenueSnapshot where
  exchange := v.exchange
  symbol := v.symbol
  position := v.position
  avgEntryPrice := v.avgEntryPrice
  leverage := v.leverage
  realizedPnl := v.realizedPnl
  unrealizedPnl := computeUnrealizedPnl v
  pendingBidQty := v.pendingBidQty
  pendingAskQty := v.pendingAskQty
  midPrice := v.midPrice
  inventoryAgeMs := inventoryAgeMs now v
  active := true

/-- `PositionLedgerSnapshot`, with all its fields. -/
structure Snapshot where
  symbol : Symbol
  globalPosition : ℚ
  globalAvgEntryPrice : ℚ
  realizedPnl : ℚ
  unrealizedPnl : ℚ
  pendingBidQty : ℚ
  pendingAskQty : ℚ
  midPrice : ℚ
  oldestInventoryAgeMs : ℤ
  venueCount : ℕ
  venues : List VenueSnapshot
  deriving DecidableEq, Inhabited

/-- The loop of `compute_weighted_average_entry_price`: the sign of the first position, the notional
and the quantity so far. A position of the other sign ends it with zero. -/
def weightedAverage (netSign : ℤ) (weightedNotional totalQty : ℚ) : List VenuePosition → ℚ
  | [] => if totalQty = 0 then 0 else weightedNotional / totalQty
  | v :: rest =>
    if !v.active ∨ v.position = 0 ∨ v.avgEntryPrice ≤ 0 then
      weightedAverage netSign weightedNotional totalQty rest
    else
      let sign := positionSign v.position
      let netSign := if netSign = 0 then sign else netSign
      if sign ≠ netSign then 0
      else weightedAverage netSign (weightedNotional + |v.position| * v.avgEntryPrice)
        (totalQty + |v.position|) rest

/-- What `snapshot` adds of one record. A record behind the end of the array, where the code's write
is undefined, is left out. -/
def addVenue (now : ℤ) (out : Snapshot) (v : VenuePosition) : Snapshot :=
  if !v.active then out
  else
    { out with
      venues := out.venues.set out.venueCount (buildVenueSnapshot now v)
      venueCount := out.venueCount + 1
      globalPosition := out.globalPosition + v.position
      realizedPnl := out.realizedPnl + v.realizedPnl
      unrealizedPnl := out.unrealizedPnl + computeUnrealizedPnl v
      pendingBidQty := out.pendingBidQty + v.pendingBidQty
      pendingAskQty := out.pendingAskQty + v.pendingAskQty
      midPrice := if v.midPrice > 0 then v.midPrice else out.midPrice
      oldestInventoryAgeMs :=
        if v.position ≠ 0 then max out.oldestInventoryAgeMs (inventoryAgeMs now v)
        else out.oldestInventoryAgeMs }

/-- `snapshot`. Its result is declared without an initializer, and only the array of venues has one
of its own: the other fields start from what the memory holds. -/
def snapshot (l : PositionLedger) (memory : Snapshot) (now : ℤ) : Snapshot :=
  let out := { memory with symbol := l.symbol, venues := List.replicate maxVenues default }
  { l.venues.foldl (addVenue now) out with
    globalAvgEntryPrice := weightedAverage 0 0 0 l.venues }

end PositionLedger

end TradingInfrastructure
