import TradingInfrastructure.Common.Types

/-!
# Snapshots of a venue

`core/execution/common/reconciliation/reconciliation_types.hpp`: what a connector reports of its
account and what the service keeps of its own. A table holds at most as many rows as its array has
places. -/

namespace TradingInfrastructure

/-- `FixedTable`: the rows in use. -/
structure FixedTable (α : Type) (capacity : ℕ) where
  items : List α := []
  bound : items.length ≤ capacity := by decide

/-- `ReconciledOrder`. -/
structure ReconciledOrder where
  clientOrderId : ℕ := 0
  venueOrderId : CString := []
  symbol : CString := []
  side : Side := .bid
  quantity : ℚ := 0
  filledQuantity : ℚ := 0
  price : ℚ := 0
  state : OrderState := .pending
  deriving DecidableEq

/-- `ReconciledFill`. -/
structure ReconciledFill where
  clientOrderId : ℕ := 0
  venueOrderId : CString := []
  venueTradeId : CString := []
  symbol : CString := []
  exchange : Exchange := .unknown
  side : Side := .bid
  quantity : ℚ := 0
  price : ℚ := 0
  notional : ℚ := 0
  fee : ℚ := 0
  feeAsset : CString := []
  exchangeTsNs : ℤ := 0
  deriving DecidableEq

/-- `ReconciledBalance`. -/
structure ReconciledBalance where
  asset : CString := []
  total : ℚ := 0
  available : ℚ := 0
  deriving DecidableEq

/-- `ReconciledPosition`. -/
structure ReconciledPosition where
  symbol : CString := []
  positionSide : CString := []
  quantity : ℚ := 0
  avgEntryPrice : ℚ := 0
  leverage : ℚ := 0
  openedAtNs : ℤ := 0
  deriving DecidableEq

/-- `ReconciliationSnapshot`. -/
structure ReconciliationSnapshot where
  openOrders : FixedTable ReconciledOrder 128 := {}
  fills : FixedTable ReconciledFill 512 := {}
  balances : FixedTable ReconciledBalance 64 := {}
  positions : FixedTable ReconciledPosition 64 := {}

/-- A snapshot of nothing. -/
def ReconciliationSnapshot.empty : ReconciliationSnapshot := {}

end TradingInfrastructure
