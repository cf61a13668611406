import TradingInfrastructure.Connectors.BinanceFuturesConnector

/-!
# The filters of a futures order

`normalize_and_validate_order` puts the price or the trigger of an order on the ticks of its symbol
and its quantity on the steps, and accepts it only if this moves neither by more than a tolerance
and the filters hold (`accepted_iff`). What is accepted is normalized (`normalization_sound`), and
is not changed any more.

A market order is held to the bounds of its own lot filter where that has them, and an order that
closes a position has no quantity, so neither its steps nor its notional are looked at.
-/

namespace TradingInfrastructure

namespace BinanceFuturesConnector

variable {filters : BinanceFuturesSymbolFilters} {order result : Order}
  {step low high original value : ℚ}

/-! ## Multiples of a step -/

/-- Positive multiples of the step, near to the original and between the bounds that are
positive. -/
structure Snapped (step low high original value : ℚ) : Prop where
  multiple : ∃ k : ℕ, 0 < k ∧ value = k * step
  near : |original - value| ≤ max (step / 10 ^ 8) (1 / 10 ^ 12)
  low : 0 < low → low ≤ value + 1 / 10 ^ 12
  high : 0 < high → value - 1 / 10 ^ 12 ≤ high

/-- A value that the tests of a filter let pass. -/
structure Accepts (step low high original : ℚ) : Prop where
  pos : 0 < normalizeDown original step
  near : withinStepTolerance original (normalizeDown original step) step = true
  bounds : withinBounds (normalizeDown original step) low high = true

theorem accepts_iff : Accepts step low high original ↔
    ¬ (normalizeDown original step ≤ 0 ∨
      ¬ withinStepTolerance original (normalizeDown original step) step = true ∨
      ¬ withinBounds (normalizeDown original step) low high = true) := by
  simp only [not_or, not_le, not_not]
  exact ⟨fun h => ⟨h.pos, h.near, h.bounds⟩, fun h => ⟨h.1, h.2.1, h.2.2⟩⟩

/-- A multiple of the step is not moved. -/
theorem normalizeDown_mul (hstep : 0 < step) (k : ℤ) : normalizeDown
    (k * step) step = k * step := by
  have hratio : (k : ℚ) * step / step = k := mul_div_cancel_right₀ _ hstep.ne'
  have hslack : ⌊(k : ℚ) + 1 / 10 ^ 12⌋ = k := by
    rw [Int.floor_intCast_add, Int.floor_eq_zero_iff.mpr ⟨by norm_num, by norm_num⟩, add_zero]
  rw [normalizeDown, if_neg hstep.not_ge, hratio, hslack]

@[simp] theorem normalizeDown_normalizeDown (value step : ℚ) :
    normalizeDown (normalizeDown value step) step = normalizeDown value step := by
  by_cases hstep : step ≤ 0
  · simp only [normalizeDown, if_pos hstep]
  · have hvalue : normalizeDown value step = ⌊value / step + 1 / 10 ^ 12⌋ * step := if_neg hstep
    rw [hvalue]
    exact normalizeDown_mul (not_le.mp hstep) _

@[simp] theorem withinStepTolerance_self (value step : ℚ) :
    withinStepTolerance value value step = true := by
  simp only [withinStepTolerance, sub_self, abs_zero, decide_eq_true_eq]
  exact le_max_of_le_right (by norm_num)

/-- **What passes a filter is normalized.** -/
theorem Accepts.snapped (hstep : 0 < step) (h : Accepts step low high original) :
    Snapped step low high original (normalizeDown original step) := by
  have hvalue : normalizeDown original step = ⌊original / step + 1 / 10 ^ 12⌋ * step :=
    if_neg hstep.not_ge
  have hbounds := h.bounds
  simp only [withinBounds, Bool.not_eq_true', Bool.or_eq_false_iff, Bool.and_eq_false_imp,
    decide_eq_true_eq, decide_eq_false_iff_not, not_lt] at hbounds
  refine ⟨?_, of_decide_eq_true h.near, hbounds.1, hbounds.2⟩
  have hpos : 0 < ⌊original / step + 1 / 10 ^ 12⌋ := by
    have := h.pos
    rw [hvalue] at this
    exact_mod_cast pos_of_mul_pos_left this hstep.le
  refine ⟨⌊original / step + 1 / 10 ^ 12⌋.toNat, by omega, ?_⟩
  rw [hvalue]
  congr 1
  exact_mod_cast (Int.toNat_of_nonneg hpos.le).symm

/-- **What is normalized passes again.** -/
theorem Accepts.again (h : Accepts step low high original) :
    Accepts step low high (normalizeDown original step) := by
  refine ⟨?_, ?_, ?_⟩ <;> rw [normalizeDown_normalizeDown]
  · exact h.pos
  · exact withinStepTolerance_self _ _
  · exact h.bounds

/-! ## What is accepted -/

/-- The value of the lot filter for market orders, where there is one, or of the other. -/
def lotFor (order : Order) (market other : ℚ) : ℚ :=
  if order.type = .market ∧ 0 < market then market else other

/-- The step of the quantity. -/
def stepFor (filters : BinanceFuturesSymbolFilters) (order : Order) : ℚ :=
  lotFor order filters.marketStepSize filters.stepSize

/-- The price that the notional is taken at. -/
def referencePrice (order : Order) : ℚ :=
  match order.type with
  | .limit => order.price
  | .stopLimit => order.stopPrice
  | .market => 0

/-- The order on the ticks and steps. -/
def normalized (filters : BinanceFuturesSymbolFilters) (order : Order) : Order :=
  { order with
    price :=
      if order.type = .limit then normalizeDown order.price filters.tickSize else order.price
    stopPrice :=
      if order.type = .stopLimit then normalizeDown order.stopPrice filters.tickSize
      else order.stopPrice
    quantity :=
      if order.closePosition then order.quantity
      else normalizeDown order.quantity (stepFor filters order) }

/-- The tests of `normalize_and_validate_order`. -/
structure Passes (filters : BinanceFuturesSymbolFilters) (order : Order) : Prop where
  price : order.type = .limit →
    Accepts filters.tickSize filters.minPrice filters.maxPrice order.price
  stop : order.type = .stopLimit →
    Accepts filters.tickSize filters.minPrice filters.maxPrice order.stopPrice
  distance : order.type = .stopLimit →
    ¬ (0 < order.price ∧ 0 < filters.triggerProtect ∧ 1 / 10 ^ 12 <
      |normalizeDown order.stopPrice filters.tickSize - order.price| / order.price -
        filters.triggerProtect)
  quantity : order.closePosition = false →
    Accepts (stepFor filters order) (lotFor order filters.minMarketQty filters.minQty)
      (lotFor order filters.maxMarketQty filters.maxQty) order.quantity
  notional : order.closePosition = false →
    ¬ (0 < filters.minNotional ∧ 0 < referencePrice (normalized filters order) ∧
      referencePrice (normalized filters order) *
        normalizeDown order.quantity (stepFor filters order) + 1 / 10 ^ 12 < filters.minNotional)

theorem guard_eq_ok_iff {refused : Prop} [Decidable refused] {error : ConnectorResult}
    {rest : ConnectorResult × Order} (herror : error ≠ .ok) :
    (if refused then (error, order) else rest) = (.ok, result) ↔
      ¬ refused ∧ rest = (.ok, result) := by
  split_ifs with hrefused
  · exact iff_of_false (fun h => herror (Prod.mk.inj h).1) fun h => h.1 hrefused
  · exact (and_iff_right hrefused).symm

theorem accepted_eq_iff {accepted : Order} :
    (ConnectorResult.ok, accepted) = (.ok, result) ↔ result = accepted := by
  rw [Prod.mk.injEq, and_iff_right rfl, eq_comm]

theorem normalizePrice_eq_ok_iff : normalizePrice filters order = (.ok, result) ↔
    (order.type = .limit →
      Accepts filters.tickSize filters.minPrice filters.maxPrice order.price) ∧
    result = { order with
      price :=
        if order.type = .limit then normalizeDown order.price filters.tickSize
        else order.price } := by
  by_cases htype : order.type = .limit
  · rw [normalizePrice, if_pos htype, if_pos htype, guard_eq_ok_iff (by decide), accepted_eq_iff,
      ← accepts_iff, imp_iff_right htype]
  · rw [normalizePrice, if_neg htype, if_neg htype, accepted_eq_iff,
      and_iff_right fun h => absurd h htype]

theorem normalizeStop_eq_ok_iff : normalizeStop filters order = (.ok, result) ↔
    (order.type = .stopLimit →
      Accepts filters.tickSize filters.minPrice filters.maxPrice order.stopPrice ∧
      ¬ (0 < order.price ∧ 0 < filters.triggerProtect ∧ 1 / 10 ^ 12 <
        |normalizeDown order.stopPrice filters.tickSize - order.price| / order.price -
          filters.triggerProtect)) ∧
    result = { order with
      stopPrice :=
        if order.type = .stopLimit then normalizeDown order.stopPrice filters.tickSize
        else order.stopPrice } := by
  by_cases htype : order.type = .stopLimit
  · rw [normalizeStop, if_pos htype, if_pos htype, guard_eq_ok_iff (by decide), accepted_eq_iff,
      imp_iff_right htype, accepts_iff, ← not_or, or_assoc, or_assoc]
  · rw [normalizeStop, if_neg htype, if_neg htype, accepted_eq_iff,
      and_iff_right fun h => absurd h htype]

theorem normalizeQuantity_eq_ok_iff : normalizeQuantity filters order = (.ok, result) ↔
    (order.closePosition = false →
      Accepts (stepFor filters order) (lotFor order filters.minMarketQty filters.minQty)
        (lotFor order filters.maxMarketQty filters.maxQty) order.quantity ∧
      ¬ (0 < filters.minNotional ∧ 0 < referencePrice order ∧
        referencePrice order * normalizeDown order.quantity (stepFor filters order) +
          1 / 10 ^ 12 < filters.minNotional)) ∧
    result = { order with
      quantity :=
        if order.closePosition then order.quantity
        else normalizeDown order.quantity (stepFor filters order) } := by
  by_cases hclose : order.closePosition = true
  · rw [normalizeQuantity, if_pos hclose, if_pos hclose, accepted_eq_iff,
      and_iff_right fun h => by rw [hclose] at h; cases h]
  · rw [imp_iff_right (Bool.not_eq_true _ ▸ hclose), accepts_iff, if_neg hclose, normalizeQuantity,
      if_neg hclose]
    refine (guard_eq_ok_iff (by intro h; cases h)).trans ?_
    rw [guard_eq_ok_iff (by intro h; cases h), accepted_eq_iff, and_assoc]
    rfl

theorem normalizeAndValidateOrder_eq_ok_iff :
    normalizeAndValidateOrder filters order = (.ok, result) ↔
      ∃ priced, normalizePrice filters order = (.ok, priced) ∧
      ∃ stopped, normalizeStop filters priced = (.ok, stopped) ∧
        normalizeQuantity filters stopped = (.ok, result) := by
  unfold normalizeAndValidateOrder
  dsimp only
  constructor
  · intro h
    split_ifs at h with hprice hstop
    · exact absurd (congrArg Prod.fst h) hprice
    · exact absurd (congrArg Prod.fst h) hstop
    · exact ⟨_, Prod.ext (not_not.mp hprice) rfl, _, Prod.ext (not_not.mp hstop) rfl, h⟩
  · rintro ⟨priced, hprice, stopped, hstop, hquantity⟩
    rw [hprice, if_neg (not_not.mpr rfl), hstop, if_neg (not_not.mpr rfl), hquantity]

/-- **What is accepted**, and what becomes of it. -/
theorem accepted_iff : normalizeAndValidateOrder filters order = (.ok, result) ↔
    Passes filters order ∧ result = normalized filters order := by
  simp only [normalizeAndValidateOrder_eq_ok_iff, normalizePrice_eq_ok_iff,
    normalizeStop_eq_ok_iff, normalizeQuantity_eq_ok_iff]
  constructor
  · rintro ⟨_, ⟨hprice, rfl⟩, _, ⟨hstop, rfl⟩, hquantity, rfl⟩
    refine ⟨⟨hprice, fun h => (hstop h).1, fun h => ?_, fun h => (hquantity h).1,
      fun h => (hquantity h).2⟩, rfl⟩
    have hlimit : order.type ≠ .limit := by simp [h]
    have hdistance := (hstop h).2
    rwa [if_neg hlimit] at hdistance
  · rintro ⟨h, rfl⟩
    refine ⟨_, ⟨h.price, rfl⟩, _, ⟨fun htype => ⟨h.stop htype, ?_⟩, rfl⟩,
      fun hclose => ⟨h.quantity hclose, h.notional hclose⟩, rfl⟩
    have hlimit : order.type ≠ .limit := fun hlimit => by cases hlimit.symm.trans htype
    rw [if_neg hlimit]
    exact h.distance htype

/-! ## What is accepted is normalized -/

theorem price_normalized (h : order.type = .limit) :
    (normalized filters order).price = normalizeDown order.price filters.tickSize := if_pos h

theorem price_normalized_of_ne (h : order.type ≠ .limit) :
    (normalized filters order).price = order.price := if_neg h

theorem stopPrice_normalized (h : order.type = .stopLimit) :
    (normalized filters order).stopPrice = normalizeDown order.stopPrice filters.tickSize :=
    if_pos h

theorem stopPrice_normalized_of_ne (h : order.type ≠ .stopLimit) :
    (normalized filters order).stopPrice = order.stopPrice := if_neg h

theorem quantity_normalized (h : order.closePosition = false) :
    (normalized filters order).quantity = normalizeDown order.quantity (stepFor filters order) :=
  if_neg (by simp [h])

theorem quantity_normalized_of_close (h : order.closePosition = true) :
    (normalized filters order).quantity = order.quantity := if_pos h

/-- An order on the ticks and steps stays as it is. -/
theorem normalized_normalized (filters : BinanceFuturesSymbolFilters) (order : Order) :
    normalized filters (normalized filters order) = normalized filters order := by
  have hsame : normalized filters (normalized filters order) = { normalized filters order with
      price := (normalized filters (normalized filters order)).price
      stopPrice := (normalized filters (normalized filters order)).stopPrice
      quantity := (normalized filters (normalized filters order)).quantity } := rfl
  have hprice : (normalized filters (normalized filters order)).price =
      (normalized filters order).price := by
    by_cases h : order.type = .limit
    · rw [price_normalized h,
        price_normalized (show (normalized filters order).type = .limit from h),
        price_normalized h, normalizeDown_normalizeDown]
    · exact price_normalized_of_ne h
  have hstop : (normalized filters (normalized filters order)).stopPrice =
      (normalized filters order).stopPrice := by
    by_cases h : order.type = .stopLimit
    · rw [stopPrice_normalized h,
        stopPrice_normalized (show (normalized filters order).type = .stopLimit from h),
        stopPrice_normalized h, normalizeDown_normalizeDown]
    · exact stopPrice_normalized_of_ne h
  have hquantity : (normalized filters (normalized filters order)).quantity =
      (normalized filters order).quantity := by
    cases h : order.closePosition with
    | true => exact quantity_normalized_of_close h
    | false =>
      rw [quantity_normalized h,
        quantity_normalized (show (normalized filters order).closePosition = false from h),
        quantity_normalized h]
      exact normalizeDown_normalizeDown _ _
  rw [hsame, hprice, hstop, hquantity]

/-- **The tests pass again** for what they have let pass. -/
theorem Passes.again (h : Passes filters order) : Passes filters (normalized filters order) where
  price htype := by
    rw [price_normalized (show order.type = .limit from htype)]
    exact (h.price htype).again
  stop htype := by
    rw [stopPrice_normalized (show order.type = .stopLimit from htype)]
    exact (h.stop htype).again
  distance htype := by
    have hlimit : order.type ≠ .limit := fun hlimit => by cases hlimit.symm.trans htype
    rw [stopPrice_normalized (show order.type = .stopLimit from htype),
      price_normalized_of_ne hlimit, normalizeDown_normalizeDown]
    exact h.distance htype
  quantity hclose := by
    rw [quantity_normalized (show order.closePosition = false from hclose)]
    exact (h.quantity hclose).again
  notional hclose := by
    have hquantity : normalizeDown (normalized filters order).quantity
        (stepFor filters (normalized filters order)) =
        normalizeDown order.quantity (stepFor filters order) := by
      rw [quantity_normalized (show order.closePosition = false from hclose)]
      exact normalizeDown_normalizeDown _ _
    rw [normalized_normalized, hquantity]
    exact h.notional hclose

/-- An order that the filters hold for, made of another. -/
structure Normalized (filters : BinanceFuturesSymbolFilters) (order result : Order) : Prop where
  price : order.type = .limit →
    Snapped filters.tickSize filters.minPrice filters.maxPrice order.price result.price
  stop : order.type = .stopLimit →
    Snapped filters.tickSize filters.minPrice filters.maxPrice order.stopPrice result.stopPrice
  quantity : order.closePosition = false →
    Snapped (stepFor filters order) (lotFor order filters.minMarketQty filters.minQty)
      (lotFor order filters.maxMarketQty filters.maxQty) order.quantity result.quantity
  notional : order.closePosition = false → order.type ≠ .market →
    filters.minNotional ≤ referencePrice result * result.quantity + 1 / 10 ^ 12
  samePrice : order.type ≠ .limit → result.price = order.price
  sameStop : order.type ≠ .stopLimit → result.stopPrice = order.stopPrice
  sameQuantity : order.closePosition = true → result.quantity = order.quantity
  same : result = { order with
    price := result.price, stopPrice := result.stopPrice, quantity := result.quantity }

theorem stepFor_pos (hstep : 0 < filters.stepSize) : 0 < stepFor filters order := by
  unfold stepFor lotFor
  split_ifs with hmarket
  · exact hmarket.2
  · exact hstep

/-- An order with a price has a positive one. -/
theorem Passes.referencePrice_pos (h : Passes filters order) (htype : order.type ≠ .market) :
    0 < referencePrice (normalized filters order) := by
  cases hcase : order.type with
  | limit =>
    have hreference : referencePrice (normalized filters order) =
      (normalized filters order).price := by
      simp only [referencePrice, show (normalized filters order).type = .limit from hcase]
    rw [hreference, price_normalized hcase]
    exact (h.price hcase).pos
  | stopLimit =>
    have hreference : referencePrice (normalized filters order) =
        (normalized filters order).stopPrice := by
      simp only [referencePrice, show (normalized filters order).type = .stopLimit from hcase]
    rw [hreference, stopPrice_normalized hcase]
    exact (h.stop hcase).pos
  | market => exact absurd hcase htype

/-- **An accepted order is normalized**, and is accepted again as it is. -/
theorem normalization_sound (htick : 0 < filters.tickSize) (hstep : 0 < filters.stepSize)
    (h : normalizeAndValidateOrder filters order = (.ok, result)) :
    Normalized filters order result ∧
      normalizeAndValidateOrder filters result = (.ok, result) := by
  obtain ⟨hpasses, rfl⟩ := accepted_iff.mp h
  refine ⟨⟨?_, ?_, ?_, ?_, price_normalized_of_ne, stopPrice_normalized_of_ne,
    quantity_normalized_of_close, rfl⟩,
    accepted_iff.mpr ⟨hpasses.again, (normalized_normalized filters order).symm⟩⟩
  · intro htype
    rw [price_normalized htype]
    exact (hpasses.price htype).snapped htick
  · intro htype
    rw [stopPrice_normalized htype]
    exact (hpasses.stop htype).snapped htick
  · intro hclose
    rw [quantity_normalized hclose]
    exact (hpasses.quantity hclose).snapped (stepFor_pos hstep)
  · intro hclose htype
    have hreference := hpasses.referencePrice_pos htype
    have hquantity : 0 < (normalized filters order).quantity := by
      rw [quantity_normalized hclose]
      exact (hpasses.quantity hclose).pos
    rcases le_or_gt filters.minNotional 0 with hmin | hmin
    · have hnotional := mul_pos hreference hquantity
      linarith
    · rw [quantity_normalized hclose]
      exact not_lt.mp fun hlow => hpasses.notional hclose ⟨hmin, hreference, hlow⟩

/-- Filters with a lot filter for market orders, and a lowest notional. -/
def lotFilters : BinanceFuturesSymbolFilters :=
  { tickSize := 1, stepSize := 1 / 10, minQty := 1, marketStepSize := 1 / 10
    minMarketQty := 1 / 10, minNotional := 5 }

/-- A limit order a little over a tick. -/
theorem normalization_sound_limit :
    Normalized lotFilters { price := 10 + 1 / 10 ^ 9, quantity := 10 }
        { price := 10, quantity := 10 } ∧
      normalizeAndValidateOrder lotFilters { price := 10, quantity := 10 } =
        (.ok, { price := 10, quantity := 10 }) :=
  normalization_sound (by decide +kernel) (by decide +kernel) (by decide +kernel)

/-- **Not every bound holds, and not every notional**: a market order below the bound of the other
lot filter is accepted, and so is a stop order that closes a position, for nothing. -/
theorem accepted_below_bounds :
    ((normalizeAndValidateOrder lotFilters { type := .market, quantity := 1 / 2 }).1 = .ok ∧
      (normalizeAndValidateOrder lotFilters { type := .market, quantity := 1 / 2 }).2.quantity +
        1 / 10 ^ 12 < lotFilters.minQty) ∧
    (normalizeAndValidateOrder lotFilters
        { type := .stopLimit, stopPrice := 10, closePosition := true }).1 = .ok ∧
      referencePrice (normalizeAndValidateOrder lotFilters
          { type := .stopLimit, stopPrice := 10, closePosition := true }).2 *
        (normalizeAndValidateOrder lotFilters
          { type := .stopLimit, stopPrice := 10, closePosition := true }).2.quantity +
        1 / 10 ^ 12 < lotFilters.minNotional := by
  decide +kernel

end BinanceFuturesConnector

end TradingInfrastructure
