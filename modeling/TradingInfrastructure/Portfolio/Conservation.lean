import TradingInfrastructure.Portfolio.PositionLedger
import TradingInfrastructure.Foundations.AverageCost

/-!
# The position ledger conserves value

`applyInventoryFill` is an average-cost fill of the record's position, price and realized profit
(`basis_applyInventoryFill`), and it keeps the age of the record in step with its position
(`AgedWhenOpen`). Along a run of `onFill` calls for one exchange and symbol the record is
therefore the average-cost basis of the fills so far, and conserves value with it.
-/

namespace TradingInfrastructure

theorem positionSign_of_pos {x : ℚ} (h : 0 < x) : positionSign x = 1 := by
  simp [positionSign, h, h.le]

theorem positionSign_of_neg {x : ℚ} (h : x < 0) : positionSign x = -1 := by
  simp [positionSign, h, h.le]

@[simp] theorem positionSign_zero : positionSign 0 = 0 := rfl

/-- The code's test for a fill in the direction of the position, on the signs alone. -/
theorem positionSign_same_side {x q : ℚ} (hq : q ≠ 0) :
    (positionSign x = 0 ∨ positionSign x = positionSign q) ↔ 0 ≤ x * q := by
  rcases lt_trichotomy x 0 with hx | rfl | hx
  · rcases lt_or_gt_of_ne hq with hy | hy
    · simp [positionSign_of_neg hx, positionSign_of_neg hy, (mul_pos_of_neg_of_neg hx hy).le]
    · simp [positionSign_of_neg hx, positionSign_of_pos hy, mul_neg_of_neg_of_pos hx hy]
  · simp
  · rcases lt_or_gt_of_ne hq with hy | hy
    · simp [positionSign_of_pos hx, positionSign_of_neg hy, mul_neg_of_pos_of_neg hx hy]
    · simp [positionSign_of_pos hx, positionSign_of_pos hy, (mul_pos hx hy).le]

/-- The signs of two positions agree exactly when their product is positive. -/
theorem positionSign_eq_iff {x y : ℚ} (hx : x ≠ 0) (hy : y ≠ 0) :
    positionSign y = positionSign x ↔ 0 < x * y := by
  have h := positionSign_same_side (x := y) hx
  have hy' : positionSign y ≠ 0 := by
    rcases lt_or_gt_of_ne hy with h | h
    · simp [positionSign_of_neg h]
    · simp [positionSign_of_pos h]
  rw [or_iff_right hy'] at h
  rw [h, mul_comm]
  exact ⟨fun h => h.lt_of_ne' (mul_ne_zero hx hy), le_of_lt⟩

namespace VenuePosition

/-- The position of a record with its cost. -/
def basis (v : VenuePosition) : CostBasis ℚ := ⟨v.position, v.avgEntryPrice, v.realizedPnl⟩

@[simp] theorem position_basis (v : VenuePosition) : v.basis.position = v.position := rfl

/-- A record has an age exactly when it has a position. -/
def AgedWhenOpen (v : VenuePosition) : Prop := v.hasInventoryAge = true ↔ v.position ≠ 0

/-- A record without position, cost, profit or age. -/
structure Flat (v : VenuePosition) : Prop where
  basis_eq : v.basis = CostBasis.flat
  not_aged : v.hasInventoryAge = false

theorem Flat.agedWhenOpen {v : VenuePosition} (h : v.Flat) : v.AgedWhenOpen := by
  have hp : v.position = 0 := congrArg CostBasis.position h.basis_eq
  simp [AgedWhenOpen, h.not_aged, hp]

theorem flat_default : Flat {} := ⟨rfl, rfl⟩

@[simp] theorem basis_releasePending (v : VenuePosition) (side : Side) (qty : ℚ) :
    (v.releasePending side qty).basis = v.basis := by
  cases side <;> rfl

@[simp] theorem hasInventoryAge_releasePending (v : VenuePosition) (side : Side) (qty : ℚ) :
    (v.releasePending side qty).hasInventoryAge = v.hasInventoryAge := by
  cases side <;> rfl

@[simp] theorem isFor_releasePending (ex : Exchange) (s : CString) (v : VenuePosition)
    (side : Side) (qty : ℚ) : isFor ex s (v.releasePending side qty) = isFor ex s v := by
  cases side <;> rfl

/-- A fill changes nothing but the position, its cost, the realized profit and the age. -/
theorem applyInventoryFill_frame (v : VenuePosition) (side : Side) (qty price : ℚ) (now : ℤ) :
    ∃ position avg realized openedAt aged, v.applyInventoryFill side qty price now =
      { v with
        position := position, avgEntryPrice := avg, realizedPnl := realized,
        openedAt := openedAt, hasInventoryAge := aged } := by
  simp only [applyInventoryFill]
  split_ifs <;> exact ⟨_, _, _, _, _, rfl⟩

@[simp] theorem isFor_applyInventoryFill (ex : Exchange) (s : CString) (v : VenuePosition)
    (side : Side) (qty price : ℚ) (now : ℤ) :
    isFor ex s (v.applyInventoryFill side qty price now) = isFor ex s v := by
  obtain ⟨_, _, _, _, _, h⟩ := v.applyInventoryFill_frame side qty price now
  rw [h]
  rfl

/-! ## One fill -/

theorem signed_ne_zero {side : Side} {qty : ℚ} (h : 0 < qty) : side.signed qty ≠ 0 := by
  cases side <;> simp [h.ne']

/-- In the direction of the position, a fill never leaves it empty. -/
theorem add_ne_zero_of_same_side {x q : ℚ} (hq : q ≠ 0) (h : 0 ≤ x * q) : x + q ≠ 0 := by
  rcases CostBasis.same_side_cases h with ⟨hx, hy⟩ | ⟨hx, hy⟩
  · exact (add_pos_of_nonneg_of_pos hx (hy.lt_of_ne' hq)).ne'
  · exact (add_neg_of_nonpos_of_neg hx (hy.lt_of_ne hq)).ne

/-- **`apply_inventory_fill` is an average-cost fill.** -/
theorem basis_applyInventoryFill (v : VenuePosition) (side : Side) {qty price : ℚ} (now : ℤ)
    (hq : 0 < qty) (hp : 0 < price) :
    (v.applyInventoryFill side qty price now).basis = v.basis.fill (side.signed qty) price := by
  have hs : side.signed qty ≠ 0 := signed_ne_zero hq
  have hguard : ¬ (qty ≤ 0 ∨ price ≤ 0) := by simp [hq, hp]
  simp only [applyInventoryFill, hguard, if_false]
  by_cases h : 0 ≤ v.position * side.signed qty
  · -- opening or adding
    have hne := add_ne_zero_of_same_side hs h
    have htot : 0 < |v.position| + |side.signed qty| :=
      add_pos_of_nonneg_of_pos (abs_nonneg _) (abs_pos.mpr hs)
    simp only [(positionSign_same_side hs).mpr h, if_true, CostBasis.fill, basis, h, htot, hne,
      if_false, ne_eq, not_false_eq_true, and_true]
  · have hx : v.position ≠ 0 := fun hx => h (by simp [hx])
    have hside : ¬ (positionSign v.position = 0 ∨
        positionSign v.position = positionSign (side.signed qty)) :=
      fun hc => h ((positionSign_same_side hs).mp hc)
    -- what a fill against the position realizes
    have hreal : (if v.position > 0 then
          v.realizedPnl + (price - v.avgEntryPrice) * min |v.position| |side.signed qty|
        else v.realizedPnl + (v.avgEntryPrice - price) * min |v.position| |side.signed qty|) =
        v.realizedPnl + (price - v.avgEntryPrice) *
          CostBasis.closed v.position (side.signed qty) := by
      rcases CostBasis.opposite_cases h with ⟨hx, hy⟩ | ⟨hx, hy⟩
      · simp [hx, CostBasis.closed_of_long hx hy]
      · simp only [gt_iff_lt, not_lt.mpr hx.le, if_false, CostBasis.closed_of_short hx hy]
        ring
    simp only [hside, if_false, hreal]
    by_cases h0 : v.position + side.signed qty = 0
    · simp [h0, CostBasis.fill, basis, h]
    · by_cases hkeep : 0 < v.position * (v.position + side.signed qty)
      · simp [h0, (positionSign_eq_iff hx h0).mpr hkeep, CostBasis.fill, basis, h, hkeep]
      · simp [h0, mt (positionSign_eq_iff hx h0).mp hkeep, CostBasis.fill, basis, h, hkeep]

/-- A fill keeps the age in step with the position. -/
theorem AgedWhenOpen.applyInventoryFill {v : VenuePosition} (hv : v.AgedWhenOpen) (side : Side)
    (qty price : ℚ) (now : ℤ) : (v.applyInventoryFill side qty price now).AgedWhenOpen := by
  unfold AgedWhenOpen at *
  unfold VenuePosition.applyInventoryFill
  by_cases hguard : qty ≤ 0 ∨ price ≤ 0
  · simpa only [hguard, if_true] using hv
  simp only [hguard, if_false]
  by_cases hside : positionSign v.position = 0 ∨
      positionSign v.position = positionSign (side.signed qty)
  · simp only [hside, if_true]
    by_cases h0 : v.position + side.signed qty = 0
    · simp [h0]
    · by_cases hx : v.position = 0
      · have hs : side.signed qty ≠ 0 := by simpa [hx] using h0
        simp [hx, hs]
      · simpa [h0, hx] using hv
  · have hx : v.position ≠ 0 := by
      rintro hx
      simp [hx] at hside
    simp only [hside, if_false]
    by_cases h0 : v.position + side.signed qty = 0
    · simp [h0]
    · by_cases hsign : positionSign (v.position + side.signed qty) ≠ positionSign v.position
      · simp [h0, hsign]
      · simp only [h0, if_false, hsign]
        simp [h0, hv.mpr hx]

end VenuePosition

namespace PositionLedger

/-! ## The record an operation works on -/

/-- `onFill` has a record to work on: one for its exchange and symbol, or a free slot. -/
def HasRoomFor (l : PositionLedger) (exchange : Exchange) (symbol : CString) : Prop :=
  (l.findOrCreateVenue exchange symbol).isSome

instance (l : PositionLedger) (exchange : Exchange) (symbol : CString) :
    Decidable (l.HasRoomFor exchange symbol) :=
  inferInstanceAs (Decidable (_ = true))

theorem isFor_copySymbol (ex : Exchange) (s : Symbol) :
    VenuePosition.isFor ex s.chars
      { exchange := ex, active := true, symbol := copySymbol s.chars } = true := by
  simp [VenuePosition.isFor, strncmpEq_refl]

/-- What `find_or_create_venue` returns: a slot that the search finds, which holds the record
that was there or a new one. -/
theorem findOrCreateVenue_spec {l l' : PositionLedger} {ex : Exchange} {s : Symbol} {i : ℕ}
    (h : l.findOrCreateVenue ex s.chars = some (l', i)) :
    l'.findVenue ex s.chars = some i ∧ ∃ v, l'.venues[i]? = some v ∧
      v.basis = (l.venue ex s.chars).basis ∧
      v.hasInventoryAge = (l.venue ex s.chars).hasInventoryAge := by
  unfold findOrCreateVenue at h
  cases hf : l.findVenue ex s.chars with
  | some j =>
    simp only [hf, Option.some.injEq, Prod.mk.injEq] at h
    obtain ⟨rfl, rfl⟩ := h
    obtain ⟨v, hv, -, -⟩ := SlotPool.getElem?_of_findIdx? hf
    exact ⟨hf, v, hv, by simp [venue, hf, hv], by simp [venue, hf, hv]⟩
  | none =>
    cases hfree : l.findFreeSlot with
    | none => simp [hf, hfree] at h
    | some j =>
      simp only [hf, hfree, Option.some.injEq, Prod.mk.injEq] at h
      obtain ⟨rfl, rfl⟩ := h
      obtain ⟨v, hv, -, -⟩ := SlotPool.getElem?_of_findIdx? hfree
      refine ⟨SlotPool.findIdx?_modify_of_none hf hv (isFor_copySymbol ex s),
        { exchange := ex, active := true, symbol := s }, by simp [hv], ?_, ?_⟩ <;>
        simp [venue, hf, VenuePosition.basis]

/-- **What `on_fill` does to its record.** The record stays found, so there is room for the next
fill. -/
theorem onFill_spec (l : PositionLedger) (order : Order) (fill : FillUpdate) (now : ℤ)
    (hroom : l.HasRoomFor order.exchange order.symbol.chars) :
    (l.onFill order fill now).HasRoomFor order.exchange order.symbol.chars ∧
      ∃ v : VenuePosition, v.basis = (l.venue order.exchange order.symbol.chars).basis ∧
        v.hasInventoryAge = (l.venue order.exchange order.symbol.chars).hasInventoryAge ∧
        (l.onFill order fill now).venue order.exchange order.symbol.chars =
          v.applyInventoryFill order.side fill.fillQty fill.fillPrice now := by
  obtain ⟨⟨l', i⟩, h⟩ := Option.isSome_iff_exists.mp hroom
  obtain ⟨hfind, v, hv, hb, ha⟩ := findOrCreateVenue_spec h
  set f := fun v : VenuePosition =>
    (v.releasePending order.side fill.fillQty).applyInventoryFill order.side fill.fillQty
      fill.fillPrice now with hf
  have hon : l.onFill order fill now = (l'.writeSymbol order.symbol.chars).modifyVenue i f := by
    simp only [onFill, h, hf]
  have hfind' : (l.onFill order fill now).findVenue order.exchange order.symbol.chars = some i := by
    rw [hon, ← hfind]
    exact SlotPool.findIdx?_modify_of_eq fun a _ => by simp [hf]
  refine ⟨by simp [HasRoomFor, findOrCreateVenue, hfind'],
    v.releasePending order.side fill.fillQty, by simp [hb], by simp [ha], ?_⟩
  rw [venue, hfind', hon]
  simp [modifyVenue, writeSymbol, hv, hf]

/-! ## Runs of fills -/

/-- A call of `on_fill`: the order, its fill and the time. -/
structure FillCall where
  order : Order
  fill : FillUpdate
  now : ℤ

/-- The signed quantity and the price of a call. -/
def FillCall.entry (c : FillCall) : ℚ × ℚ := (c.order.side.signed c.fill.fillQty, c.fill.fillPrice)

/-- A sequence of `on_fill` calls. -/
def onFills (l : PositionLedger) (calls : List FillCall) : PositionLedger :=
  calls.foldl (fun l c => l.onFill c.order c.fill c.now) l

/-- The calls are for one exchange and symbol, with positive quantities and prices. -/
def FillsOf (exchange : Exchange) (symbol : Symbol) (calls : List FillCall) : Prop :=
  ∀ c ∈ calls, c.order.exchange = exchange ∧ c.order.symbol = symbol ∧
    0 < c.fill.fillQty ∧ 0 < c.fill.fillPrice

/-- **A run of fills is the average-cost basis of the fills**, with an age exactly when there is
a position. -/
theorem onFills_basis {ex : Exchange} {s : Symbol} {calls : List FillCall}
    (hc : FillsOf ex s calls) :
    ∀ {l : PositionLedger}, l.HasRoomFor ex s.chars → (l.venue ex s.chars).AgedWhenOpen →
      ((l.onFills calls).venue ex s.chars).basis =
          (l.venue ex s.chars).basis.fills (calls.map FillCall.entry) ∧
        ((l.onFills calls).venue ex s.chars).AgedWhenOpen := by
  induction calls with
  | nil => exact fun _ haged => ⟨rfl, haged⟩
  | cons c calls ih =>
    intro l hroom haged
    obtain ⟨rfl, rfl, hq, hp⟩ := hc c (by simp)
    obtain ⟨hroom', v, hb, ha, hv⟩ := onFill_spec l c.order c.fill c.now hroom
    have hvaged : v.AgedWhenOpen := by
      have hpos : v.position = _ := congrArg CostBasis.position hb
      simp only [VenuePosition.AgedWhenOpen, ha, hpos]
      exact haged
    have hstep := ih (fun c' hc' => hc c' (by simp [hc'])) hroom'
      (hv ▸ hvaged.applyInventoryFill _ _ _ _)
    rw [hv, v.basis_applyInventoryFill _ _ hq hp, hb] at hstep
    exact hstep

/-- The ledger is flat at an exchange and symbol, with a slot for their record. -/
structure FlatAt (l : PositionLedger) (exchange : Exchange) (symbol : Symbol) : Prop where
  room : l.HasRoomFor exchange symbol.chars
  flat : (l.venue exchange symbol.chars).Flat

/-- A new ledger is flat everywhere. -/
theorem flatAt_new (ex : Exchange) (s : Symbol) : new.FlatAt ex s where
  room := rfl
  flat := VenuePosition.flat_default

/-- **The ledger conserves value.** After any fills of one exchange and symbol, from flat, the
position is the signed sum of the quantities, the realized profit is the position at its average
entry price less what was paid, and there is an average price and an age exactly when there is a
position. -/
theorem onFills_conserve {l : PositionLedger} {ex : Exchange} {s : Symbol} (hl : l.FlatAt ex s)
    {calls : List FillCall} (hc : FillsOf ex s calls) :
    let v := (l.onFills calls).venue ex s.chars
    v.position = (calls.map fun c => c.order.side.signed c.fill.fillQty).sum ∧
      v.realizedPnl = v.position * v.avgEntryPrice -
        (calls.map fun c => c.order.side.signed c.fill.fillQty * c.fill.fillPrice).sum ∧
      (0 < v.avgEntryPrice ↔ v.position ≠ 0) ∧
      (v.hasInventoryAge = true ↔ v.position ≠ 0) := by
  obtain ⟨hbasis, haged⟩ := onFills_basis hc hl.room hl.flat.agedWhenOpen
  rw [hl.flat.basis_eq] at hbasis
  have hentry : ∀ f ∈ calls.map FillCall.entry, f.1 ≠ 0 ∧ 0 < f.2 := by
    intro f hf
    obtain ⟨c, hc', rfl⟩ := List.mem_map.mp hf
    obtain ⟨-, -, hq, hp⟩ := hc c hc'
    exact ⟨VenuePosition.signed_ne_zero hq, hp⟩
  have hpos := congrArg CostBasis.position hbasis
  have hbal := CostBasis.balanced_fills fun f hf => (hentry f hf).1
  have hpriced := CostBasis.wellPriced_fills hentry
  rw [← hbasis] at hbal hpriced
  refine ⟨?_, ?_, hpriced, haged⟩
  · rw [CostBasis.fills_position] at hpos
    simpa [VenuePosition.basis, CostBasis.flat, Function.comp_def, FillCall.entry] using hpos
  · simpa [CostBasis.Balanced, VenuePosition.basis, CostBasis.cost, Function.comp_def,
      FillCall.entry] using hbal

/-- Buying two and selling three, through zero. -/
def flipCalls : List FillCall :=
  [⟨{ side := .bid }, { fillQty := 2, fillPrice := 100 }, 0⟩,
    ⟨{ side := .ask }, { fillQty := 3, fillPrice := 110 }, 1⟩]

/-- The ledger conserves value through a flip, which leaves it short one. -/
theorem onFills_conserve_flip :
    ((new.onFills flipCalls).venue .unknown []).position = -1 ∧
      (0 < ((new.onFills flipCalls).venue .unknown []).avgEntryPrice ↔
        ((new.onFills flipCalls).venue .unknown []).position ≠ 0) := by
  have hc : FillsOf .unknown default flipCalls := by
    intro c hc
    rcases List.mem_pair.mp hc with rfl | rfl <;> norm_num
  obtain ⟨hpos, -, hpriced, -⟩ := onFills_conserve (flatAt_new .unknown default) hc
  refine ⟨hpos.trans ?_, hpriced⟩
  norm_num [flipCalls]

end PositionLedger

end TradingInfrastructure
