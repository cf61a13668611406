import TradingInfrastructure.Reconciliation.Quarantine

/-!
# The two directions of a comparison

`evaluate_drift` looks for the rows of the canonical snapshot in the one of the venue. Of the rows
of the venue only the orders are looked for in the canonical snapshot. So a balance or a position
that the venue alone reports is no mismatch, and the comparison has the same result in both
directions exactly when something that it looks at from both sides is wrong, or when neither
snapshot has a row that the other is without while it has all the rows of the other
(`evaluateDrift_symm_iff`).
-/

namespace TradingInfrastructure

theorem drift_comm (a b : ℚ) : drift a b = drift b a := abs_sub_comm a b

namespace DriftThresholds

variable (t : DriftThresholds) (inner outer venue canonical : ReconciliationSnapshot)

/-! ## Rows that stand in a snapshot -/

/-- The order is there, with its quantities. -/
def OrderStands (outer : ReconciliationSnapshot) (order : ReconciledOrder) : Prop :=
  ∃ found, outer.findOrder order = some found ∧
    drift found.quantity order.quantity ≤ t.maxOrderFillGap ∧
    drift found.filledQuantity order.filledQuantity ≤ t.maxOrderFillGap

/-- The balance is there, with its amounts. -/
def BalanceStands (outer : ReconciliationSnapshot) (balance : ReconciledBalance) : Prop :=
  ∃ found, outer.findBalance balance.asset = some found ∧
    drift found.total balance.total ≤ t.maxBalanceDrift ∧
    drift found.available balance.available ≤ t.maxBalanceDrift

/-- The position is there, with its quantity and its price. -/
def PositionStands (outer : ReconciliationSnapshot) (position : ReconciledPosition) : Prop :=
  ∃ found, outer.findPosition position.symbol position.positionSide = some found ∧
    drift found.quantity position.quantity ≤ t.maxPositionDrift ∧
    drift found.avgEntryPrice position.avgEntryPrice ≤ t.maxPositionDrift

/-- Every row of one snapshot stands in the other. -/
structure StandsIn : Prop where
  orders : ∀ order ∈ inner.openOrders.items, t.OrderStands outer order
  balances : ∀ balance ∈ inner.balances.items, t.BalanceStands outer balance
  positions : ∀ position ∈ inner.positions.items, t.PositionStands outer position

/-- **A row on one side only**: every row of the inner snapshot stands in the outer one, which has
a row that does not stand in the inner one. -/
def OneSided : Prop := t.StandsIn inner outer ∧ ¬ t.StandsIn outer inner

theorem orderDrift_eq_none_iff {order : ReconciledOrder} :
    t.orderDrift outer order = none ↔ t.OrderStands outer order := by
  unfold orderDrift OrderStands
  cases outer.findOrder order with
  | none => simp
  | some found => simp [not_or]

theorem balanceDrift_eq_false_iff {balance : ReconciledBalance} :
    t.balanceDrift outer balance = false ↔ t.BalanceStands outer balance := by
  unfold balanceDrift BalanceStands
  cases outer.findBalance balance.asset with
  | none => simp
  | some found => simp

theorem positionDrift_eq_false_iff {position : ReconciledPosition} :
    t.positionDrift outer position = false ↔ t.PositionStands outer position := by
  unfold positionDrift PositionStands
  cases outer.findPosition position.symbol position.positionSide with
  | none => simp
  | some found => simp

/-! ## What is looked at from both sides -/

/-- The fills add up to the same in both directions. -/
theorem fillGapDetected_comm :
    t.fillGapDetected venue canonical = t.fillGapDetected canonical venue := by
  unfold fillGapDetected
  simp only [FillLedger.build_fits, drift_comm (FillLedger.build venue).2.cumQty,
    drift_comm (FillLedger.build venue).2.cumNotional,
    drift_comm (FillLedger.build venue).2.cumFee]

end DriftThresholds

/-- Each order of the inner snapshot is in the outer one. -/
def ReconciliationSnapshot.OrdersIn (inner outer : ReconciliationSnapshot) : Prop :=
  ∀ order ∈ inner.openOrders.items, (outer.findOrder order).isSome = true

/-- **No order is on one side only.** -/
def ReconciliationSnapshot.OrdersPaired (venue canonical : ReconciliationSnapshot) : Prop :=
  venue.OrdersIn canonical ∧ canonical.OrdersIn venue

namespace DriftThresholds

variable {t : DriftThresholds} {out out' : DriftDecision}
  {inner outer venue canonical : ReconciliationSnapshot}

theorem StandsIn.ordersIn (h : t.StandsIn inner outer) : inner.OrdersIn outer := by
  intro order horder
  obtain ⟨found, hfound, -⟩ := h.orders order horder
  rw [hfound]
  rfl

/-- **What a comparison of a sane snapshot finds nothing wrong with.** -/
theorem evaluateDrift_eq_false_iff
    (hsane : (t.evaluateSnapshotSanity out venue).mismatch = false) :
    (t.evaluateDrift out venue canonical).mismatch = false ↔
      t.StandsIn canonical venue ∧ venue.OrdersIn canonical ∧
        t.fillGapDetected venue canonical = false := by
  have hguard : ¬ (t.evaluateSnapshotSanity out venue).mismatch = true := by simp [hsane]
  unfold evaluateDrift
  rw [if_neg hguard]
  cases horders : canonical.openOrders.items.findSome? (t.orderDrift venue) with
  | some found =>
    obtain ⟨order, horder, hdrift⟩ := List.exists_of_findSome?_eq_some horders
    refine iff_of_false (by simp [DriftDecision.classifyOrderDrift]) fun h => ?_
    rw [(t.orderDrift_eq_none_iff venue).mpr (h.1.orders order horder)] at hdrift
    cases hdrift
  | none =>
    have hstands : ∀ order ∈ canonical.openOrders.items, t.OrderStands venue order :=
      fun order horder => (t.orderDrift_eq_none_iff venue).mp
        (List.findSome?_eq_none_iff.mp horders order horder)
    have hmissing : (venue.openOrders.items.any fun order =>
        (canonical.findOrder order).isNone) = false ↔ venue.OrdersIn canonical := by
      simp [ReconciliationSnapshot.OrdersIn, Option.isSome_iff_ne_none]
    have hbalances : canonical.balances.items.any (t.balanceDrift venue) = false ↔
        ∀ balance ∈ canonical.balances.items, t.BalanceStands venue balance := by
      simp only [List.any_eq_false, Bool.not_eq_true, balanceDrift_eq_false_iff]
    have hpositions : canonical.positions.items.any (t.positionDrift venue) = false ↔
        ∀ position ∈ canonical.positions.items, t.PositionStands venue position := by
      simp only [List.any_eq_false, Bool.not_eq_true, positionDrift_eq_false_iff]
    have hstandsIn : t.StandsIn canonical venue ↔
        (∀ balance ∈ canonical.balances.items, t.BalanceStands venue balance) ∧
          ∀ position ∈ canonical.positions.items, t.PositionStands venue position :=
      ⟨fun h => ⟨h.balances, h.positions⟩, fun h => ⟨hstands, h.1, h.2⟩⟩
    rw [hstandsIn, ← hmissing, ← hbalances, ← hpositions]
    simp only
    -- the checks in their order: a mismatch ends them
    split_ifs with hextra hgap hbalance hposition
    · simp [DriftDecision.classifyOrderDrift, hextra]
    · simp [DriftDecision.classifyFillGap, hgap]
    · simp [DriftDecision.mismatchOf, hbalance]
    · simp [DriftDecision.mismatchOf, hposition]
    · simp [hsane, hextra, hgap, hbalance, hposition]

/-- **The two directions of a comparison** agree exactly when the fills disagree, an order is on
one side only, or no other row is on one side only. -/
theorem evaluateDrift_symm_iff
    (hvenue : (t.evaluateSnapshotSanity out venue).mismatch = false)
    (hcanonical : (t.evaluateSnapshotSanity out' canonical).mismatch = false) :
    ((t.evaluateDrift out venue canonical).mismatch = true ↔
      (t.evaluateDrift out' canonical venue).mismatch = true) ↔
      t.fillGapDetected venue canonical = true ∨ ¬ venue.OrdersPaired canonical ∨
        (¬ t.OneSided venue canonical ∧ ¬ t.OneSided canonical venue) := by
  have hforth := @evaluateDrift_eq_false_iff t out venue canonical hvenue
  have hback := @evaluateDrift_eq_false_iff t out' canonical venue hcanonical
  rw [t.fillGapDetected_comm canonical venue] at hback
  rw [← not_iff_not (a := (t.evaluateDrift out venue canonical).mismatch = true),
    Bool.not_eq_true, Bool.not_eq_true, hforth, hback]
  unfold ReconciliationSnapshot.OrdersPaired OneSided
  cases t.fillGapDetected venue canonical with
  | true => simp
  | false =>
    simp only [and_true, Bool.false_eq_true, false_or]
    by_cases hcanonicalIn : t.StandsIn canonical venue
    · have hcanonicalOrders := hcanonicalIn.ordersIn
      by_cases hvenueIn : t.StandsIn venue canonical
      · have hvenueOrders := hvenueIn.ordersIn
        simp [hcanonicalIn, hcanonicalOrders, hvenueIn, hvenueOrders]
      · simp [hcanonicalIn, hcanonicalOrders, hvenueIn]
    · by_cases hvenueIn : t.StandsIn venue canonical
      · have hvenueOrders := hvenueIn.ordersIn
        simp [hcanonicalIn, hvenueIn, hvenueOrders]
      · simp [hcanonicalIn, hvenueIn]

/-! ## A balance that only the venue has -/

/-- Thresholds of zero. -/
def exact : DriftThresholds := ⟨0, 0, 0, 0, 0⟩

/-- One coin. -/
def oneCoin : ReconciledBalance := { asset := "BTC".toList, total := 1, available := 1 }

theorem length_oneCoin_le : [oneCoin].length ≤ 64 := by simp

/-- A snapshot with one balance. -/
def oneBalance : ReconciliationSnapshot :=
  { ReconciliationSnapshot.empty with balances := ⟨[oneCoin], length_oneCoin_le⟩ }

/-- **A balance of the venue alone** is no mismatch; the other way round it is one. -/
theorem oneBalance_one_way :
    (exact.evaluateSnapshotSanity .zero oneBalance).mismatch = false ∧
      (exact.evaluateSnapshotSanity .zero .empty).mismatch = false ∧
      (exact.evaluateDrift .zero oneBalance .empty).mismatch = false ∧
      (exact.evaluateDrift .zero .empty oneBalance).mismatch = true := by
  decide +kernel

/-- So it is a row on one side only. -/
theorem oneBalance_oneSided :
    ¬ (exact.fillGapDetected oneBalance .empty = true ∨
      ¬ oneBalance.OrdersPaired .empty ∨
        (¬ exact.OneSided oneBalance .empty ∧ ¬ exact.OneSided .empty oneBalance)) := by
  have hsane : (exact.evaluateSnapshotSanity .zero oneBalance).mismatch = false := by
    decide +kernel
  have hempty : (exact.evaluateSnapshotSanity .zero .empty).mismatch = false := by
    decide +kernel
  rw [← evaluateDrift_symm_iff hsane hempty]
  decide +kernel

end DriftThresholds

end TradingInfrastructure
