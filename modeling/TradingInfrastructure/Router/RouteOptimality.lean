import TradingInfrastructure.Foundations.CapacityAllocation
import TradingInfrastructure.Router.SmartOrderRouter

/-!
# The router spreads an order at the least cost

`route` fills the cheapest venue that is left until nothing remains. What it gives to the venues is
an allocation within their depths, as large as the quantity and the depths let it be, and no other
allocation of the same total has a smaller shortfall (`route_optimal`). A cost may be negative, and
venues may cost the same.
-/

namespace TradingInfrastructure

namespace RoutingDecision

variable {out : RoutingDecision} {child : ChildOrder}

/-- A child with room in the array is the last of those in use. -/
theorem orders_push (h : out.childCount < out.children.length) :
    (out.push child).orders = out.orders ++ [child] := by
  simp only [push, orders]
  rw [List.take_add_one, List.take_set_of_le le_rfl, List.getElem?_set_self h]
  rfl

end RoutingDecision

namespace SmartOrderRouter

/-- The cost of a venue, without the age of an inventory. -/
def venueCost (side : Side) (regime : RoutingRegime) (bestPx minFillProbability : ℚ)
    (v : VenueQuote) : ℚ :=
  expectedShortfallBps v side regime bestPx 0 minFillProbability

/-- The shortfall that `route` expects of a venue. -/
def routeShortfall (memory : RouterMemory) (side : Side) (venues : VenueQuotes)
    (cfg : SmartOrderRouterConfig) : VenueQuote → ℚ :=
  venueCost side (inferRegime memory.regime venues cfg) (findBestPrice side venues)
    cfg.minFillProbability

/-- A quote that an order can go to: healthy, with depth and a price on the side taken, and a finite
shortfall. -/
def Eligible (side : Side) (shortfall : VenueQuote → ℚ) (v : VenueQuote) : Prop :=
  v.healthy = true ∧ 0 < v.depthQty ∧ 0 < quotePriceForSide v side ∧ shortfall v < infinitePrice

instance (side : Side) (shortfall : VenueQuote → ℚ) (v : VenueQuote) :
    Decidable (Eligible side shortfall v) := by
  unfold Eligible
  infer_instance

/-- What a quote can be given. -/
def capacity (side : Side) (shortfall : VenueQuote → ℚ) (venues : VenueQuotes) (i : Fin 4) : ℚ :=
  if Eligible side shortfall (venues i) then (venues i).depthQty else 0

/-- The child order that takes from a quote. -/
def takeFrom (side : Side) (v : VenueQuote) (quantity : ℚ) : ChildOrder :=
  ⟨v.exchange, quantity, quotePriceForSide v side, .ioc⟩

/-- The orders go, one each, to these quotes, all eligible, and these amounts are within the
depths. -/
structure Spreads (side : Side) (shortfall : VenueQuote → ℚ) (venues : VenueQuotes)
    (orders : List ChildOrder) (quotes : List (Fin 4)) (amount : Fin 4 → ℚ) : Prop where
  orders_eq : orders = quotes.map fun i => takeFrom side (venues i) (amount i)
  nodup : quotes.Nodup
  eligible : ∀ i ∈ quotes, Eligible side shortfall (venues i)
  amount_pos : ∀ i ∈ quotes, 0 < amount i
  amount_le : ∀ i ∈ quotes, amount i ≤ (venues i).depthQty
  amount_zero : ∀ i ∉ quotes, amount i = 0

/-- What the loop has done so far. -/
structure RouteState.Sound (side : Side) (shortfall : VenueQuote → ℚ) (venues : VenueQuotes)
    (quantity : ℚ) (s : RouteState) (quotes : List (Fin 4)) (amount : Fin 4 → ℚ) : Prop where
  spreads : Spreads side shortfall venues s.out.orders quotes amount
  used_iff : ∀ i, s.used i = true ↔ i ∈ quotes
  childCount_eq : s.out.childCount = quotes.length
  children_length : s.out.children.length = 8
  remaining_nonneg : 0 ≤ s.remaining
  total_eq : ∑ i, amount i + s.remaining = quantity
  full : 0 < s.remaining → ∀ i ∈ quotes, amount i = capacity side shortfall venues i
  noExchange : NoExchange (capacity side shortfall venues) (fun i => shortfall (venues i)) amount

variable {memory : RouterMemory} {side : Side} {shortfall : VenueQuote → ℚ} {regime : RoutingRegime}
  {bestPx minFillProbability quantity : ℚ} {venues : VenueQuotes} {s : RouteState}
  {quotes : List (Fin 4)} {amount : Fin 4 → ℚ} {i : Fin 4}

/-! ## The orders and the amounts -/

theorem quantity_takeFrom (side : Side) (v : VenueQuote) (quantity : ℚ) :
    (takeFrom side v quantity).quantity = quantity := rfl

theorem Spreads.sum_eq {orders : List ChildOrder}
    (h : Spreads side shortfall venues orders quotes amount) :
    (orders.map (·.quantity)).sum = ∑ i, amount i := by
  rw [h.orders_eq, List.map_map]
  simp only [Function.comp_def, quantity_takeFrom]
  rw [← List.sum_toFinset amount h.nodup]
  exact Finset.sum_subset (Finset.subset_univ _) fun i _ hi =>
    h.amount_zero i fun hmem => hi (List.mem_toFinset.mpr hmem)

theorem Spreads.isAllocation {orders : List ChildOrder}
    (h : Spreads side shortfall venues orders quotes amount) :
    IsAllocation (capacity side shortfall venues) amount := by
  intro i
  by_cases hi : i ∈ quotes
  · rw [capacity, if_pos (h.eligible i hi)]
    exact ⟨(h.amount_pos i hi).le, h.amount_le i hi⟩
  · rw [h.amount_zero i hi, capacity]
    split_ifs with heligible
    · exact ⟨le_rfl, heligible.2.1.le⟩
    · exact ⟨le_rfl, le_rfl⟩

/-- One more quote is given a part. -/
theorem Spreads.push {out : RoutingDecision} (h : Spreads side shortfall venues out.orders quotes
    amount) (hroom : out.childCount < out.children.length) (hnew : i ∉ quotes)
    (heligible : Eligible side shortfall (venues i)) {q : ℚ} (hq : 0 < q)
    (hle : q ≤ (venues i).depthQty) :
    Spreads side shortfall venues (out.push (takeFrom side (venues i) q)).orders (quotes ++ [i])
      (Function.update amount i q) := by
  have hold : ∀ j ∈ quotes, j ≠ i := fun j hj hji => hnew (hji ▸ hj)
  have hcases : ∀ j ∈ quotes ++ [i], j ∈ quotes ∧ j ≠ i ∨ j = i := by
    intro j hj
    rcases List.mem_append.mp hj with hj | hj
    · exact .inl ⟨hj, hold j hj⟩
    · exact .inr (List.mem_singleton.mp hj)
  refine ⟨?_, ?_, fun j hj => ?_, fun j hj => ?_, fun j hj => ?_, fun j hj => ?_⟩
  · rw [RoutingDecision.orders_push hroom, h.orders_eq, List.map_append]
    congr 1
    · exact List.map_congr_left fun j hj => by rw [Function.update_of_ne (hold j hj)]
    · simp
  · exact h.nodup.append (List.nodup_singleton i) (by simpa using hnew)
  · rcases hcases j hj with ⟨hj, -⟩ | rfl
    · exact h.eligible j hj
    · exact heligible
  · rcases hcases j hj with ⟨hj, hji⟩ | rfl
    · rw [Function.update_of_ne hji]
      exact h.amount_pos j hj
    · rwa [Function.update_self]
  · rcases hcases j hj with ⟨hj, hji⟩ | rfl
    · rw [Function.update_of_ne hji]
      exact h.amount_le j hj
    · rwa [Function.update_self]
  · simp only [List.mem_append, List.mem_singleton, not_or] at hj
    rw [Function.update_of_ne hj.2]
    exact h.amount_zero j hj.1

/-! ## The choice of a venue -/

/-- A venue without a price has the infinite shortfall. -/
theorem price_pos_of_shortfall {v : VenueQuote}
    (h : venueCost side regime bestPx minFillProbability v < infinitePrice) :
    0 < quotePriceForSide v side := by
  by_contra hprice
  unfold venueCost expectedShortfallBps at h
  simp only [not_lt.mp hprice, true_or, if_true] at h
  exact lt_irrefl _ h

/-- The venue chosen is eligible, is left, and is the cheapest of those. -/
theorem findBestVenueIndex_some {used : Fin 4 → Bool}
    (h : findBestVenueIndex venues used side regime bestPx minFillProbability = some i) :
    let cost := venueCost side regime bestPx minFillProbability
    used i = false ∧ Eligible side cost (venues i) ∧
      ∀ j, used j = false → Eligible side cost (venues j) → cost (venues i) ≤ cost (venues j) := by
  obtain ⟨hcandidate, hcost⟩ := firstMin_some h
  simp only [Bool.and_eq_true, Bool.not_eq_true', decide_eq_true_eq] at hcandidate
  refine ⟨hcandidate.1.1, ⟨hcandidate.1.2, hcandidate.2, price_pos_of_shortfall hcost, hcost⟩, ?_⟩
  intro j hj heligible
  exact firstMin_le h (List.mem_finRange j) (by simp [hj, heligible.1, heligible.2.1])

/-- Without a choice every eligible venue is taken. -/
theorem findBestVenueIndex_none {used : Fin 4 → Bool}
    (h : findBestVenueIndex venues used side regime bestPx minFillProbability = none)
    (heligible : Eligible side (venueCost side regime bestPx minFillProbability) (venues i)) : used i = true := by
  by_contra hused
  have hle := firstMin_none h (List.mem_finRange i)
    (by simp [Bool.eq_false_iff.mpr hused, heligible.1, heligible.2.1])
  exact absurd heligible.2.2.2 (not_lt.mpr hle)

/-! ## A turn, and the loop -/

/-- **A turn** gives the cheapest venue left what it can take. -/
theorem RouteState.Sound.appendChildOrder
    (h : RouteState.Sound side
      (venueCost side regime bestPx minFillProbability) venues quantity s
      quotes amount)
    (hremaining : 0 < s.remaining) (hroom : s.out.childCount < s.out.children.length)
    (hbest : findBestVenueIndex venues s.used side regime bestPx minFillProbability = some i) :
    RouteState.Sound side
      (venueCost side regime bestPx minFillProbability) venues quantity
      (appendChildOrder side venues s i) (quotes ++ [i])
      (Function.update amount i (min s.remaining (venues i).depthQty)) := by
  obtain ⟨hunused, heligible, hcheapest⟩ := findBestVenueIndex_some hbest
  have hnew : i ∉ quotes := fun hmem => by
    rw [(h.used_iff i).mpr hmem] at hunused
    cases hunused
  have hclip : (if s.remaining < (venues i).depthQty then s.remaining else (venues i).depthQty) =
      min s.remaining (venues i).depthQty := by
    rw [min_def_lt]
  have hcapacity : capacity side
      (venueCost side regime bestPx minFillProbability) venues i =
      (venues i).depthQty := if_pos heligible
  have hempty : amount i = 0 := h.spreads.amount_zero i hnew
  refine ⟨?_, fun j => ?_, ?_, ?_, ?_, ?_, fun hrest j hj => ?_, ?_⟩
  · simp only [SmartOrderRouter.appendChildOrder, hclip]
    exact h.spreads.push hroom hnew heligible (lt_min hremaining heligible.2.1) (min_le_right _ _)
  · simp only [SmartOrderRouter.appendChildOrder, List.mem_append, List.mem_singleton]
    by_cases hji : j = i
    · simp [hji]
    · simp [hji, h.used_iff j]
  · simp [SmartOrderRouter.appendChildOrder, RoutingDecision.push, h.childCount_eq]
  · simp [SmartOrderRouter.appendChildOrder, RoutingDecision.push, h.children_length]
  · simp only [SmartOrderRouter.appendChildOrder, hclip]
    exact sub_nonneg.mpr (min_le_left _ _)
  · have htotal := h.total_eq
    simp only [SmartOrderRouter.appendChildOrder, hclip]
    rw [Finset.sum_update_of_mem (Finset.mem_univ i)]
    rw [← Finset.add_sum_erase _ _ (Finset.mem_univ i), hempty, zero_add,
      ← Finset.sdiff_singleton_eq_erase] at htotal
    linarith
  · -- something remains only when the venue was filled
    simp only [SmartOrderRouter.appendChildOrder, hclip] at hrest
    have hdepth : min s.remaining (venues i).depthQty = (venues i).depthQty :=
      (min_choice _ _).resolve_left fun hmin => by
        rw [hmin, sub_self] at hrest
        exact lt_irrefl _ hrest
    rcases List.mem_append.mp hj with hj | hj
    · have hji : j ≠ i := fun hji => hnew (hji ▸ hj)
      rw [Function.update_of_ne hji]
      exact h.full hremaining j hj
    · rw [List.mem_singleton.mp hj, Function.update_self, hdepth, hcapacity]
  · refine h.noExchange.update hempty (hcapacity ▸ heligible.2.1) (fun j hj => ?_) _
    -- a venue with room is eligible and left, since those that are taken are full
    have hleft : Eligible side (venueCost side regime bestPx minFillProbability) (venues j) := by
      by_contra hnot
      rw [capacity, if_neg hnot] at hj
      exact absurd (h.spreads.isAllocation j).1 (not_le.mpr hj)
    refine hcheapest j ?_ hleft
    rw [← Bool.not_eq_true, h.used_iff]
    exact fun hmem => absurd (h.full hremaining j hmem) (ne_of_lt hj)

/-- The loop is over: nothing is left to give or nothing to choose. -/
def RouteState.Done (side : Side) (regime : RoutingRegime) (bestPx minFillProbability : ℚ)
    (venues : VenueQuotes) (s : RouteState) : Prop :=
  s.remaining ≤ minRemainingQty ∨
    findBestVenueIndex venues s.used side regime bestPx minFillProbability = none

/-- **The loop** ends with everything given that can be: it takes a quote in each turn, of which
there are four. -/
theorem RouteState.Sound.routeLoop {fuel : ℕ}
    (h : RouteState.Sound side
      (venueCost side regime bestPx minFillProbability) venues quantity s
      quotes amount)
    (hfuel : maxVenues ≤ quotes.length + fuel) :
    ∃ quotes amount, RouteState.Sound side
        (venueCost side regime bestPx minFillProbability) venues quantity
        (routeLoop side regime bestPx minFillProbability venues fuel s) quotes amount ∧
      RouteState.Done side regime bestPx minFillProbability venues
        (routeLoop side regime bestPx minFillProbability venues fuel s) := by
  have hlength : quotes.length ≤ maxVenues := by
    simpa [maxVenues] using h.spreads.nodup.length_le_card
  have hroom : s.out.childCount < s.out.children.length := by
    rw [h.childCount_eq, h.children_length]
    exact lt_of_le_of_lt hlength (by decide)
  induction fuel generalizing s quotes amount with
  | zero =>
    refine ⟨quotes, amount, h, .inr ?_⟩
    cases hbest : findBestVenueIndex venues s.used side regime bestPx minFillProbability with
    | none => exact hbest
    | some i =>
      -- all four quotes are taken
      have hall : i ∈ quotes := by
        have hcard : quotes.toFinset = Finset.univ := by
          rw [← Finset.card_eq_iff_eq_univ, List.toFinset_card_of_nodup h.spreads.nodup,
            Fintype.card_fin]
          exact le_antisymm hlength hfuel
        exact List.mem_toFinset.mp (hcard ▸ Finset.mem_univ i)
      have hunused := (findBestVenueIndex_some hbest).1
      rw [(h.used_iff i).mpr hall] at hunused
      cases hunused
  | succ fuel ih =>
    rw [SmartOrderRouter.routeLoop]
    by_cases hdone : s.remaining ≤ minRemainingQty
    · rw [if_pos (.inl hdone)]
      exact ⟨quotes, amount, h, .inl hdone⟩
    · rw [if_neg (by simpa [hroom] using hdone)]
      cases hbest : findBestVenueIndex venues s.used side regime bestPx minFillProbability with
      | none => exact ⟨quotes, amount, h, .inr hbest⟩
      | some i =>
        have hpos : 0 < s.remaining :=
          lt_trans (by unfold minRemainingQty; norm_num) (not_le.mp hdone)
        have hnext := h.appendChildOrder hpos hroom hbest
        have hnextLength : (quotes ++ [i]).length ≤ maxVenues := by
          simpa [maxVenues] using hnext.spreads.nodup.length_le_card
        refine ih hnext ?_ hnextLength ?_
        · simpa [Nat.add_assoc, Nat.add_comm 1 fuel] using hfuel
        · rw [hnext.childCount_eq, hnext.children_length]
          exact lt_of_le_of_lt hnextLength (by decide)

/-- What the loop begins with. -/
theorem RouteState.Sound.start (hcount : memory.childCount = 0) (hquantity : 0 ≤ quantity) :
    RouteState.Sound side shortfall venues quantity
      { remaining := quantity, out := RoutingDecision.found memory } [] fun _ => 0 :=
  ⟨⟨by simp [RoutingDecision.found, RoutingDecision.orders, hcount], List.nodup_nil,
      fun _ hi => (List.not_mem_nil hi).elim, fun _ hi => (List.not_mem_nil hi).elim,
      fun _ hi => (List.not_mem_nil hi).elim, fun _ _ => rfl⟩,
    fun i => by simp, hcount, List.length_replicate, hquantity, by simp,
    fun _ _ hi => (List.not_mem_nil hi).elim, noExchange_zero⟩

/-- **As much as can be**: the amounts at the end are the quantity or the capacities, less what is
too little to go on for. -/
theorem RouteState.Sound.total_of_done
    (h : RouteState.Sound side (venueCost side regime bestPx minFillProbability) venues quantity s
      quotes amount)
    (hdone : RouteState.Done side regime bestPx minFillProbability venues s) :
    |∑ i, amount i - min quantity
      (∑ i, capacity side (venueCost side regime bestPx minFillProbability) venues i)| ≤
      minRemainingQty := by
  have hle : ∑ i, amount i ≤
      ∑ i, capacity side (venueCost side regime bestPx minFillProbability) venues i :=
    Finset.sum_le_sum fun i _ => (h.spreads.isAllocation i).2
  have htotal := h.total_eq
  have hrest := h.remaining_nonneg
  have hsmall : s.remaining ≤ minRemainingQty ∨ ∑ i, amount i =
      ∑ i, capacity side (venueCost side regime bestPx minFillProbability) venues i := by
    rcases hdone with hdone | hnone
    · exact .inl hdone
    · by_cases hremaining : 0 < s.remaining
      · -- every eligible venue is taken, and the taken ones are full
        refine .inr (Finset.sum_congr rfl fun i _ => ?_)
        by_cases hi : i ∈ quotes
        · exact h.full hremaining i hi
        · rw [h.spreads.amount_zero i hi, capacity, if_neg]
          exact fun heligible =>
            hi ((h.used_iff i).mp (findBestVenueIndex_none hnone heligible))
      · exact .inl ((not_lt.mp hremaining).trans (by unfold minRemainingQty; norm_num))
  have hmin : ∑ i, amount i ≤ min quantity
      (∑ i, capacity side (venueCost side regime bestPx minFillProbability) venues i) :=
    le_min (by linarith) hle
  have hleft := min_le_left quantity
    (∑ i, capacity side (venueCost side regime bestPx minFillProbability) venues i)
  have hright := min_le_right quantity
    (∑ i, capacity side (venueCost side regime bestPx minFillProbability) venues i)
  have hpos : 0 ≤ minRemainingQty := by unfold minRemainingQty; norm_num
  rw [abs_of_nonpos (by linarith)]
  rcases hsmall with hsmall | hfull
  · linarith
  · linarith

/-! ## The best price -/

theorem betterPrice_eq (side : Side) (best px : ℚ) :
    betterPrice side best px = px ∨ betterPrice side best px = best := by
  cases side with
  | bid => exact ite_eq_or_eq _ _ _
  | ask => exact ite_eq_or_eq _ _ _

/-- The scan holds the price of a quote that counts, once it has come to one. -/
theorem foldl_bestPriceStep {l : List VenueQuote} {best : Option ℚ}
    (hbest : ∀ px ∈ best, px < missingBestPrice)
    (hprices : ∀ v ∈ l, quotePriceForSide v side < missingBestPrice) :
    (∀ px ∈ l.foldl (bestPriceStep side) best, px < missingBestPrice) ∧
      ((best.isSome = true ∨ ∃ v ∈ l, quoted side v = true) →
        (l.foldl (bestPriceStep side) best).isSome = true) := by
  induction l generalizing best with
  | nil => exact ⟨hbest, by simp⟩
  | cons v l ih =>
    have hv := hprices v List.mem_cons_self
    have hstep : ∀ px ∈ bestPriceStep side best v, px < missingBestPrice := by
      unfold bestPriceStep
      split_ifs with hquoted
      · intro px hpx
        cases best with
        | none =>
          obtain rfl := Option.mem_some_iff.mp hpx
          exact hv
        | some old =>
          obtain rfl := Option.mem_some_iff.mp hpx
          have hold := hbest old rfl
          rw [Option.elim_some]
          rcases betterPrice_eq side old (quotePriceForSide v side) with heq | heq
          · rwa [heq]
          · rwa [heq]
      · exact hbest
    obtain ⟨hlast, hsome⟩ := ih hstep fun w hw => hprices w (List.mem_cons_of_mem v hw)
    refine ⟨hlast, fun h => hsome ?_⟩
    by_cases hquoted : quoted side v = true
    · exact .inl (by simp [bestPriceStep, hquoted])
    · rcases h with hbest | ⟨w, hw, hwquoted⟩
      · exact .inl (by rw [bestPriceStep, if_neg hquoted]; exact hbest)
      · rcases List.mem_cons.mp hw with rfl | hw
        · exact absurd hwquoted hquoted
        · exact .inr ⟨w, hw, hwquoted⟩

/-- Where an order can go to a quote there is a best price. -/
theorem findBestPrice_lt (hprices : ∀ i, quotePriceForSide (venues i) side < missingBestPrice)
    (h : Eligible side shortfall (venues i)) : findBestPrice side venues < missingBestPrice := by
  have hscan := @foldl_bestPriceStep side ((List.finRange 4).map venues) none
    (fun px hpx => by cases hpx) fun v hv => by
      obtain ⟨j, -, rfl⟩ := List.mem_map.mp hv
      exact hprices j
  have hquoted : ∃ v ∈ (List.finRange 4).map venues, quoted side v = true :=
    ⟨venues i, List.mem_map.mpr ⟨i, List.mem_finRange i, rfl⟩, by
      simp [quoted, h.1, h.2.1, h.2.2.1]⟩
  obtain ⟨px, hpx⟩ := Option.isSome_iff_exists.mp (hscan.2 (.inr hquoted))
  rw [findBestPrice, hpx]
  exact hscan.1 px hpx

/-- **The router is optimal**: the orders go to distinct eligible quotes, within their depths, they
take the quantity or all the depth, and nothing of the same total has a smaller shortfall. -/
theorem route_optimal (memory : RouterMemory) (hcount : memory.childCount = 0) (side : Side)
    (quantity : ℚ) (hquantity : 0 < quantity) (venues : VenueQuotes)
    (hprices : ∀ i, quotePriceForSide (venues i) side < missingBestPrice)
    (cfg : SmartOrderRouterConfig) :
    let shortfall := routeShortfall memory side venues cfg
    let depth := capacity side shortfall venues
    let orders := (route memory side quantity venues cfg).orders
    ∃ quotes amount, Spreads side shortfall venues orders quotes amount ∧
      |(orders.map (·.quantity)).sum - min quantity (∑ i, depth i)| ≤ 1 / 10 ^ 12 ∧
      ∀ other, IsAllocation depth other → ∑ i, other i = (orders.map (·.quantity)).sum →
        ∑ i, amount i * shortfall (venues i) ≤ ∑ i, other i * shortfall (venues i) := by
  intro shortfall depth orders
  suffices h : ∃ quotes amount, Spreads side shortfall venues orders quotes amount ∧
      |∑ i, amount i - min quantity (∑ i, depth i)| ≤ minRemainingQty ∧
      NoExchange depth (fun i => shortfall (venues i)) amount by
    obtain ⟨quotes, amount, hspreads, htotal, hexchange⟩ := h
    refine ⟨quotes, amount, hspreads, by rwa [hspreads.sum_eq], fun other hother hsum => ?_⟩
    exact hexchange.cost_le hspreads.isAllocation hother (hsum.trans hspreads.sum_eq)
  by_cases hmissing : findBestPrice side venues ≥ missingBestPrice
  · -- no quote is eligible, and nothing is ordered
    have hnone : ∀ i, depth i = 0 := fun i => if_neg fun heligible =>
      absurd hmissing (not_le.mpr (findBestPrice_lt hprices heligible))
    have horders : orders = (RoutingDecision.found memory).orders := by
      simp only [orders, route, hmissing, if_true]
    have hstart := (@RouteState.Sound.start memory side shortfall quantity venues hcount
      hquantity.le).spreads
    refine ⟨[], fun _ => 0, horders ▸ hstart, ?_, noExchange_zero⟩
    simp only [hnone, Finset.sum_const_zero, min_eq_right hquantity.le, sub_self, abs_zero]
    unfold minRemainingQty
    norm_num
  · have hroute : orders = (routeLoop side (inferRegime memory.regime venues cfg)
        (findBestPrice side venues) cfg.minFillProbability venues maxVenues
        { remaining := quantity, out := RoutingDecision.found memory }).out.orders := by
      simp only [orders, route, hmissing, if_false]
    obtain ⟨quotes, amount, hsound, hdone⟩ :=
      (RouteState.Sound.start hcount hquantity.le).routeLoop (Nat.le_add_left _ _)
    exact ⟨quotes, amount, hroute ▸ hsound.spreads, hsound.total_of_done hdone, hsound.noExchange⟩

/-- Two asks, the nearer of them too shallow for the order. -/
def twoAsks : VenueQuotes := fun i =>
  match i with
  | 0 => { bestAsk := 101, depthQty := 1, healthy := true }
  | 1 => { bestAsk := 100, depthQty := 1, healthy := true, exchange := .kraken }
  | 2 => {}
  | 3 => {}

theorem route_optimal_twoAsks :
    (∀ i, quotePriceForSide (twoAsks i) .bid < missingBestPrice) ∧
      ∃ quotes amount, Spreads .bid (routeShortfall ⟨0, false, ⟨0, 0, 0⟩⟩ .bid twoAsks
          ⟨1, 0, 1, ⟨0, 0, 0⟩, ⟨0, 0, 0⟩, ⟨0, 0, 0⟩, 0⟩) twoAsks
        (route ⟨0, false, ⟨0, 0, 0⟩⟩ .bid (3 / 2) twoAsks
          ⟨1, 0, 1, ⟨0, 0, 0⟩, ⟨0, 0, 0⟩, ⟨0, 0, 0⟩, 0⟩).orders quotes amount := by
  have hprices : ∀ i, quotePriceForSide (twoAsks i) .bid < missingBestPrice := by decide +kernel
  obtain ⟨quotes, amount, hspreads, -⟩ := route_optimal ⟨0, false, ⟨0, 0, 0⟩⟩ rfl .bid (3 / 2)
    (by norm_num) twoAsks hprices ⟨1, 0, 1, ⟨0, 0, 0⟩, ⟨0, 0, 0⟩, ⟨0, 0, 0⟩, 0⟩
  exact ⟨hprices, quotes, amount, hspreads⟩

end SmartOrderRouter

end TradingInfrastructure
