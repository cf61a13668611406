import TradingInfrastructure.Shadow.Connector
import TradingInfrastructure.Portfolio.Conservation
import TradingInfrastructure.Foundations.Runs

/-!
# The shadow accounts and the ledger

The shadow connector keeps a position of its own, beside that of the ledger, by the same
average-cost method, with one difference: a fill against the position that leaves no more than
`POSITION_EPSILON` of it leaves nothing (`LeavesDust`). Without such a fill both are the same
average-cost basis, so the two accounts agree exactly as long as none comes (`agree_run_iff`).
-/

namespace TradingInfrastructure

/-- A fill of the signed quantity `q` against the position `x` leaves a residue that the shadow
connector drops. -/
def LeavesDust (x q : ℚ) : Prop :=
  x * q < 0 ∧ x + q ≠ 0 ∧ |x + q| ≤ ShadowAccounts.positionEpsilon

namespace ShadowAccounts

/-- The position of the accounts with its cost. -/
def basis (a : ShadowAccounts) : CostBasis ℚ := ⟨a.netPosition, a.avgEntryPrice, a.realizedPnl⟩

theorem positionEpsilon_pos : 0 < positionEpsilon := by
  norm_num [positionEpsilon]

/-- The signs of two positions agree exactly when both are positive or neither is. -/
theorem decide_pos_ne_iff {x y : ℚ} (hx : x ≠ 0) (hy : y ≠ 0) :
    decide (y > 0) ≠ decide (x > 0) ↔ ¬ 0 < x * y := by
  rcases lt_or_gt_of_ne hx with hx | hx <;> rcases lt_or_gt_of_ne hy with hy | hy
  · simp [not_lt.mpr hx.le, not_lt.mpr hy.le, mul_pos_of_neg_of_neg hx hy]
  · simp [not_lt.mpr hx.le, hy]
  · simp [hx, not_lt.mpr hy.le]
  · simp [hx, hy]

variable (a : ShadowAccounts) (side : Side) {qty : ℚ} (price : ℚ) (now : ℤ)

/-- **`apply_position_fill_locked` is an average-cost fill**, unless it leaves dust. -/
theorem basis_applyPositionFill (hq : 0 < qty)
    (hdust : ¬ LeavesDust a.netPosition (side.signed qty)) :
    (a.applyPositionFill side qty price now).basis = a.basis.fill (side.signed qty) price := by
  have hs : side.signed qty ≠ 0 := VenuePosition.signed_ne_zero hq
  have habs : |side.signed qty| = qty := by
    cases side <;> simp [abs_of_pos hq]
  by_cases h : 0 ≤ a.netPosition * side.signed qty
  · have htot : 0 < |a.netPosition| + qty := add_pos_of_nonneg_of_pos (abs_nonneg _) hq
    simp only [applyPositionFill, (positionSign_same_side hs).mpr h, if_true, htot,
      CostBasis.fill, basis, h, habs]
  · have hx : a.netPosition ≠ 0 := fun hx => h (by simp [hx])
    have hside : ¬ (positionSign a.netPosition = 0 ∨
        positionSign a.netPosition = positionSign (side.signed qty)) :=
      fun hc => h ((positionSign_same_side hs).mp hc)
    have hreal : (if a.netPosition > 0 then
          a.realizedPnl + (price - a.avgEntryPrice) * min |a.netPosition| qty
        else a.realizedPnl + (a.avgEntryPrice - price) * min |a.netPosition| qty) =
        a.realizedPnl + (price - a.avgEntryPrice) *
          CostBasis.closed a.netPosition (side.signed qty) := by
      rcases CostBasis.opposite_cases h with ⟨hx, hy⟩ | ⟨hx, hy⟩
      · simp [hx, CostBasis.closed_of_long hx hy, habs]
      · simp only [gt_iff_lt, not_lt.mpr hx.le, if_false, CostBasis.closed_of_short hx hy, habs]
        ring
    -- the residue is either nothing or more than the epsilon
    have hsnap : (if |a.netPosition + side.signed qty| ≤ positionEpsilon then 0
        else a.netPosition + side.signed qty) = a.netPosition + side.signed qty := by
      split
      · next hle =>
        by_contra hne
        exact hdust ⟨not_le.mp h, Ne.symm hne, hle⟩
      · rfl
    simp only [applyPositionFill, hside, if_false, hsnap, hreal]
    by_cases h0 : a.netPosition + side.signed qty = 0
    · simp [h0, CostBasis.fill, basis, h]
    · by_cases hkeep : 0 < a.netPosition * (a.netPosition + side.signed qty)
      · have hsame := mt (decide_pos_ne_iff hx h0).mp (not_not.mpr hkeep)
        simp only [h0, if_false, hsame, CostBasis.fill, basis, h, hkeep, if_true]
      · simp only [h0, if_false, (decide_pos_ne_iff hx h0).mpr hkeep, CostBasis.fill, basis, h,
          hkeep, if_true, ne_eq, not_false_eq_true]

/-- Dust is dropped. -/
theorem netPosition_applyPositionFill_of_dust
    (hdust : LeavesDust a.netPosition (side.signed qty)) :
    (a.applyPositionFill side qty price now).netPosition = 0 := by
  obtain ⟨hneg, -, hle⟩ := hdust
  have hs : side.signed qty ≠ 0 := fun hs => by simp [hs] at hneg
  have hside : ¬ (positionSign a.netPosition = 0 ∨
      positionSign a.netPosition = positionSign (side.signed qty)) :=
    fun hc => absurd ((positionSign_same_side hs).mp hc) (not_le.mpr hneg)
  simp only [applyPositionFill, hside, if_false, hle, if_true]

end ShadowAccounts

/-! ## Fills on both sides -/

/-- A fill, as both accounts are told of it. -/
structure SideFill where
  side : Side
  qty : ℚ
  price : ℚ
  now : ℤ

/-- A record of the ledger and the accounts of a shadow connector. -/
structure TwoAccounts where
  ledger : VenuePosition := {}
  shadow : ShadowAccounts := {}

namespace TwoAccounts

/-- Both accounts take the fill. -/
def fill (t : TwoAccounts) (f : SideFill) : TwoAccounts where
  ledger := t.ledger.applyInventoryFill f.side f.qty f.price f.now
  shadow := t.shadow.applyPositionFill f.side f.qty f.price f.now

/-- Both accounts have the same position, average entry price and realized profit. -/
def Agree (t : TwoAccounts) : Prop :=
  t.ledger.position = t.shadow.netPosition ∧ t.ledger.avgEntryPrice = t.shadow.avgEntryPrice ∧
    t.ledger.realizedPnl = t.shadow.realizedPnl

/-- The fill leaves nothing that the shadow connector drops. -/
def NoDust (t : TwoAccounts) (f : SideFill) : Prop :=
  ¬ LeavesDust t.shadow.netPosition (f.side.signed f.qty)

variable {t : TwoAccounts} {f : SideFill}

theorem agree_iff_basis : t.Agree ↔ t.ledger.basis = t.shadow.basis := by
  simp [Agree, VenuePosition.basis, ShadowAccounts.basis]

/-- **Accounts that agree keep agreeing exactly at the fills that leave no dust.** -/
theorem Agree.fill_iff (h : t.Agree) (hf : 0 < f.qty ∧ 0 < f.price) :
    (t.fill f).Agree ↔ t.NoDust f := by
  have hledger : (t.fill f).ledger.basis = t.ledger.basis.fill (f.side.signed f.qty) f.price :=
    t.ledger.basis_applyInventoryFill f.side f.now hf.1 hf.2
  constructor
  · intro hagree hdust
    have hzero : (t.fill f).shadow.netPosition = 0 :=
      t.shadow.netPosition_applyPositionFill_of_dust f.side f.price f.now hdust
    have hpos : (t.fill f).ledger.position = t.ledger.position + f.side.signed f.qty := by
      rw [← VenuePosition.position_basis, hledger, CostBasis.fill_position,
        VenuePosition.position_basis]
    rw [hagree.1, hzero, h.1] at hpos
    exact hdust.2.1 hpos.symm
  · intro hdust
    rw [agree_iff_basis] at h ⊢
    rw [hledger, h]
    exact (t.shadow.basis_applyPositionFill f.side f.price f.now hf.1 hdust).symm

/-- **The two accounts agree after every fill exactly when no fill leaves dust.** -/
theorem agree_run_iff {fills : List SideFill} (hf : ∀ f ∈ fills, 0 < f.qty ∧ 0 < f.price) :
    (∀ pre, pre <+: fills → (pre.foldl fill {}).Agree) ↔ AllSteps fill NoDust {} fills := by
  have hstart : Agree {} := ⟨rfl, rfl, rfl⟩
  have hstep : ∀ (t : TwoAccounts) (f : SideFill), True → 0 < f.qty ∧ 0 < f.price → t.Agree →
      ((t.fill f).Agree ↔ t.NoDust f) := fun _ _ _ hf h => h.fill_iff hf
  rw [forall_prefix_iff_allSteps (fun _ _ _ _ => trivial) hstep trivial hf]
  exact and_iff_right hstart

/-- Buying one and selling all of it but half of the epsilon. -/
def dustFills : List SideFill :=
  [⟨.bid, 1, 100, 0⟩, ⟨.ask, 1 - 1 / (2 * 10 ^ 6), 100, 1⟩]

theorem positive_dustFills : ∀ f ∈ dustFills, 0 < f.qty ∧ 0 < f.price := by
  intro f hf
  rcases List.mem_pair.mp hf with rfl | rfl <;> norm_num

/-- After the first of them, a purchase, the accounts agree. -/
theorem agree_run_purchase : ((dustFills.take 1).foldl fill {}).Agree := by
  have hall := agree_run_iff fun f (hf : f ∈ dustFills.take 1) =>
    positive_dustFills f (List.mem_of_mem_take hf)
  refine hall.mpr ⟨?_, trivial⟩ _ (List.prefix_refl _)
  simp [NoDust, LeavesDust]

/-- **The ledger keeps what the shadow connector drops.** -/
theorem dustFills_disagree :
    (dustFills.foldl fill {}).ledger.position = 1 / (2 * 10 ^ 6) ∧
      (dustFills.foldl fill {}).shadow.netPosition = 0 := by
  constructor <;> decide +kernel

end TwoAccounts

end TradingInfrastructure
