import TradingInfrastructure.Reconciliation.Snapshot

/-!
# Sanity and drift of a snapshot

The checks of `core/execution/common/reconciliation/reconciliation_service.hpp`. A `DriftDecision`
that the code declares has no initializer, and what a function does not assign in it is returned as
it was found in memory. That memory is an argument: each check returns at most one such decision,
and the only other one it reads is read for its flag, which the returned one assigns.
-/

namespace TradingInfrastructure

/-- `MismatchClass`. -/
inductive MismatchClass
  | none | missingOrder | qtyDrift | fillGap | balanceDrift | positionDrift
  deriving DecidableEq, Inhabited, Repr

/-- `DriftAction`. -/
inductive DriftAction
  | none | quarantineVenue | requestFillReplay | riskHaltRecommended | cancelAllOrders
  deriving DecidableEq, Inhabited, Repr

/-- `SeverityLevel`. -/
inductive SeverityLevel
  | info | warning | critical
  deriving DecidableEq, Inhabited, Repr

/-- `DriftThresholds`. -/
structure DriftThresholds where
  maxBalanceDrift : ℚ
  maxPositionDrift : ℚ
  maxOrderFillGap : ℚ
  maxFillNotionalDrift : ℚ
  maxFillFeeDrift : ℚ
  deriving DecidableEq

/-- `DriftDecision`. -/
structure DriftDecision where
  mismatch : Bool
  mismatchClass : MismatchClass
  action : DriftAction
  severity : SeverityLevel
  retryCount : UInt32
  quarantine : Bool
  reason : CString
  deriving DecidableEq

namespace DriftDecision

/-- `mismatch`, which leaves the retry count as it was in memory. -/
def mismatchOf (out : DriftDecision) (mismatchClass : MismatchClass) (action : DriftAction)
    (severity : SeverityLevel) (reason : String) (quarantine : Bool) : DriftDecision :=
  { out with
    mismatch := true, mismatchClass, action, severity, quarantine, reason := reason.toList }

/-- The decision of a failed sanity check. -/
def insane (out : DriftDecision) (reason : String) : DriftDecision :=
  out.mismatchOf .none .quarantineVenue .critical reason true

/-- `classify_order_drift`. -/
def classifyOrderDrift (out : DriftDecision) (mismatchClass : MismatchClass) (reason : String) :
    DriftDecision :=
  { out with
    mismatch := true, mismatchClass, reason := reason.toList, action := .cancelAllOrders
    severity := .warning }

/-- `classify_fill_gap`. -/
def classifyFillGap (out : DriftDecision) : DriftDecision :=
  { out with
    mismatch := true, mismatchClass := .fillGap, reason := "fill_gap".toList
    action := .requestFillReplay, severity := .warning }

end DriftDecision

/-- `drift`. -/
def drift (a b : ℚ) : ℚ := |a - b|

/-! ## Sanity -/

namespace DriftThresholds

variable (t : DriftThresholds)

/-- What is wrong with an order, if anything. -/
def orderSanity (order : ReconciledOrder) : Option String :=
  if order.quantity < 0 ∨ order.filledQuantity < 0 then some "negative order quantity"
  else if order.quantity - order.filledQuantity < -t.maxOrderFillGap then some "order overfilled"
  else none

/-- What is wrong with a balance, if anything. -/
def balanceSanity (balance : ReconciledBalance) : Option String :=
  if balance.total - balance.available < -t.maxBalanceDrift then
    some "balance available exceeds total"
  else none

/-- What is wrong with a position, if anything. -/
def positionSanity (position : ReconciledPosition) : Option String :=
  if position.avgEntryPrice < 0 then some "negative average entry price"
  else if position.quantity > 0 ∧ position.avgEntryPrice ≤ t.maxPositionDrift then
    some "positive position with invalid entry"
  else if position.leverage < 0 then some "negative leverage"
  else none

/-- What is wrong with a fill, if anything. -/
def fillSanity (fill : ReconciledFill) : Option String :=
  if fill.quantity < 0 ∨ fill.price < 0 ∨ fill.notional < 0 ∨ fill.fee < 0 then
    some "negative fill values"
  else if fill.notional > 0 ∧
    drift fill.notional (fill.quantity * fill.price) > t.maxFillNotionalDrift
    then some "fill notional mismatch"
  else none

/-- `evaluate_snapshot_sanity`: the first row, table by table, that has something wrong with it. -/
def evaluateSnapshotSanity (out : DriftDecision) (snapshot : ReconciliationSnapshot) :
    DriftDecision :=
  match snapshot.openOrders.items.findSome? t.orderSanity with
  | some reason => out.insane reason
  | none =>
  match snapshot.balances.items.findSome? t.balanceSanity with
  | some reason => out.insane reason
  | none =>
  match snapshot.positions.items.findSome? t.positionSanity with
  | some reason => out.insane reason
  | none =>
  match snapshot.fills.items.findSome? t.fillSanity with
  | some reason => out.insane reason
  | none => out

end DriftThresholds

/-! ## The fill ledger -/

namespace ReconciledFill

/-- `fill_same_identity`, of the fields that `FillIdentity` copies. -/
def sameIdentity (lhs rhs : ReconciledFill) : Bool :=
  lhs.exchange == rhs.exchange &&
    ((lhs.venueTradeId != [] && rhs.venueTradeId != [] && lhs.venueTradeId == rhs.venueTradeId) ||
      (lhs.clientOrderId != 0 && rhs.clientOrderId != 0 && lhs.clientOrderId == rhs.clientOrderId &&
        lhs.exchangeTsNs == rhs.exchangeTsNs &&
          decide (drift lhs.quantity rhs.quantity ≤ 1 / 10 ^ 12) &&
        decide (drift lhs.price rhs.price ≤ 1 / 10 ^ 12)) ||
      (lhs.venueOrderId != [] && rhs.venueOrderId != [] && lhs.venueOrderId == rhs.venueOrderId &&
        lhs.exchangeTsNs == rhs.exchangeTsNs &&
          decide (drift lhs.quantity rhs.quantity ≤ 1 / 10 ^ 12) &&
        decide (drift lhs.price rhs.price ≤ 1 / 10 ^ 12)))

end ReconciledFill

/-- `FillLedger`. -/
structure FillLedger where
  cumQty : ℚ := 0
  cumNotional : ℚ := 0
  cumFee : ℚ := 0
  uniqueFillCount : UInt32 := 0
  overflow : Bool := false
  deriving DecidableEq

namespace FillLedger

/-- `MAX_FILL_KEYS`. -/
def maxFillKeys : ℕ := 1024

/-- A fill that is not there yet. -/
def add (ledger : FillLedger) (fill : ReconciledFill) : FillLedger :=
  { ledger with
    cumQty := ledger.cumQty + fill.quantity
    cumNotional := ledger.cumNotional +
      (if fill.notional > 0 then fill.notional else fill.quantity * fill.price)
    cumFee := ledger.cumFee + fill.fee
    uniqueFillCount := ledger.uniqueFillCount + 1 }

/-- The loop of `build_fill_ledger`, with the keys found so far. It stops when there is no place for
another key. -/
def buildLoop : List ReconciledFill → List ReconciledFill → FillLedger → Bool × FillLedger
  | _, [], ledger => (true, ledger)
  | keys, fill :: fills, ledger =>
    if keys.any fill.sameIdentity then buildLoop keys fills ledger
    else if keys.length ≥ maxFillKeys then (false, { ledger with overflow := true })
    else buildLoop (keys ++ [fill]) fills (ledger.add fill)

/-- `build_fill_ledger`. -/
def build (snapshot : ReconciliationSnapshot) : Bool × FillLedger :=
  buildLoop [] snapshot.fills.items {}

theorem buildLoop_fits {keys fills : List ReconciledFill} {ledger : FillLedger}
    (h : keys.length + fills.length ≤ maxFillKeys) : (buildLoop keys fills ledger).1 = true := by
  induction fills generalizing keys ledger with
  | nil => rfl
  | cons fill fills ih =>
    rw [List.length_cons] at h
    rw [buildLoop]
    by_cases hdup : keys.any fill.sameIdentity = true
    · simp only [hdup, if_true]
      exact ih (by omega)
    · have hfree : ¬ keys.length ≥ maxFillKeys := by omega
      simp only [hdup, hfree, if_false, Bool.false_eq_true]
      exact ih (by simp; omega)

/-- **The keys never overflow**: a snapshot has fewer fills than there are places. -/
theorem build_fits (snapshot : ReconciliationSnapshot) : (build snapshot).1 = true :=
  buildLoop_fits (by
    have hbound := snapshot.fills.bound
    have hkeys : maxFillKeys = 1024 := rfl
    simp only [List.length_nil]
    omega)

end FillLedger

/-! ## Drift -/

namespace ReconciliationSnapshot

/-- `find_order`. -/
def findOrder (snapshot : ReconciliationSnapshot) (key : ReconciledOrder) :
    Option ReconciledOrder :=
  snapshot.openOrders.items.find? fun candidate =>
    (candidate.clientOrderId != 0 && key.clientOrderId != 0 &&
      candidate.clientOrderId == key.clientOrderId) ||
    (candidate.venueOrderId != [] && key.venueOrderId != [] &&
      candidate.venueOrderId == key.venueOrderId)

/-- `find_balance`. -/
def findBalance (snapshot : ReconciliationSnapshot) (asset : CString) : Option ReconciledBalance :=
  snapshot.balances.items.find? fun candidate => candidate.asset == asset

/-- `find_position`. -/
def findPosition (snapshot : ReconciliationSnapshot) (symbol positionSide : CString) :
    Option ReconciledPosition :=
  snapshot.positions.items.find? fun candidate =>
    candidate.symbol == symbol && candidate.positionSide == positionSide

end ReconciliationSnapshot

namespace DriftThresholds

variable (t : DriftThresholds)

/-- `fill_gap_detected`. -/
def fillGapDetected (venue canonical : ReconciliationSnapshot) : Bool :=
  let venueLedger := FillLedger.build venue
  let canonicalLedger := FillLedger.build canonical
  !venueLedger.1 || !canonicalLedger.1 ||
    decide (drift venueLedger.2.cumQty canonicalLedger.2.cumQty > t.maxOrderFillGap) ||
    decide (drift venueLedger.2.cumNotional canonicalLedger.2.cumNotional >
      t.maxFillNotionalDrift) ||
    decide (drift venueLedger.2.cumFee canonicalLedger.2.cumFee > t.maxFillFeeDrift)

/-- What the venue says of an order that the engine has, if it is wrong. -/
def orderDrift (venue : ReconciliationSnapshot) (internal : ReconciledOrder) :
    Option (MismatchClass × String) :=
  match venue.findOrder internal with
  | none => some (.missingOrder, "missing_order")
  | some order =>
    if drift order.quantity internal.quantity > t.maxOrderFillGap ∨
      drift order.filledQuantity internal.filledQuantity > t.maxOrderFillGap then
      some (.qtyDrift, "qty_drift")
    else none

/-- The venue has another balance. -/
def balanceDrift (venue : ReconciliationSnapshot) (internal : ReconciledBalance) : Bool :=
  match venue.findBalance internal.asset with
  | none => true
  | some balance =>
    decide (drift balance.total internal.total > t.maxBalanceDrift) ||
      decide (drift balance.available internal.available > t.maxBalanceDrift)

/-- The venue has another position. -/
def positionDrift (venue : ReconciliationSnapshot) (internal : ReconciledPosition) : Bool :=
  match venue.findPosition internal.symbol internal.positionSide with
  | none => true
  | some position =>
    decide (drift position.quantity internal.quantity > t.maxPositionDrift) ||
      decide (drift position.avgEntryPrice internal.avgEntryPrice > t.maxPositionDrift)

/-- `evaluate_drift`. -/
def evaluateDrift (out : DriftDecision) (venue canonical : ReconciliationSnapshot) :
    DriftDecision :=
  let sane := t.evaluateSnapshotSanity out venue
  if sane.mismatch then sane
  else
    match canonical.openOrders.items.findSome? (t.orderDrift venue) with
    | some (mismatchClass, reason) => out.classifyOrderDrift mismatchClass reason
    | none =>
      if venue.openOrders.items.any fun order => (canonical.findOrder order).isNone then
        out.classifyOrderDrift .missingOrder "missing_order"
      else if t.fillGapDetected venue canonical then out.classifyFillGap
      else if canonical.balances.items.any (t.balanceDrift venue) then
        out.mismatchOf .balanceDrift .riskHaltRecommended .critical "balance_drift" true
      else if canonical.positions.items.any (t.positionDrift venue) then
        out.mismatchOf .positionDrift .riskHaltRecommended .critical "position_drift" true
      else sane

/-- The check of a snapshot: against the canonical one, if there is one. -/
def evaluate (out : DriftDecision) (snapshot : ReconciliationSnapshot) :
    Option ReconciliationSnapshot → DriftDecision
  | some canonical => t.evaluateDrift out snapshot canonical
  | none => t.evaluateSnapshotSanity out snapshot

end DriftThresholds

end TradingInfrastructure
