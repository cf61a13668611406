import TradingInfrastructure.Router.ScheduledVenues

/-!
# The price of a style

A child in a passive style waits on its own side of the book, but the router's shortfall measures a
venue by the side that is taken. So the first child goes to the venue with the best price of its
style only when that is also the one with the best price to take (`firstChild_atBest_iff`).

An improving buy is placed between the bid and the ask. An improving sell is placed at the ask: the
guard against a crossed book compares the ask with the bid in the order that is right for a buy
(`improves_iff`).
-/

namespace TradingInfrastructure

namespace ChildOrderScheduler

/-- By how much a passive order improves its own touch. -/
def improvement (cfg : ChildOrderScheduler) (v : VenueQuote) : ℚ :=
  min ((v.bestAsk - v.bestBid) * cfg.passiveImproveFraction)
    (v.bestAsk - v.bestBid - cfg.priceCrossEpsilon)

/-- The price lies between the bid and the ask, and improves the touch of its side. -/
def Improves (cfg : ChildOrderScheduler) (side : Side) (v : VenueQuote) (px : ℚ) : Prop :=
  v.bestBid < px ∧ px < v.bestAsk ∧
    match side with
    | .bid => px - v.bestBid = cfg.improvement v
    | .ask => v.bestAsk - px = cfg.improvement v

/-- The costs of a quote, without its venue, prices and depth. -/
def costs (v : VenueQuote) : VenueQuote :=
  { v with exchange := .unknown, bestBid := 0, bestAsk := 0, depthQty := 0, enabled := false }

/-- The healthy venues quote both sides with depth, at the same costs. -/
structure SameCosts (venues : VenueQuotes) : Prop where
  bid_pos : ∀ i, (venues i).healthy = true → 0 < (venues i).bestBid
  ask_pos : ∀ i, (venues i).healthy = true → 0 < (venues i).bestAsk
  depth_pos : ∀ i, (venues i).healthy = true → 0 < (venues i).depthQty
  costs_eq : ∀ i j, (venues i).healthy = true → (venues j).healthy = true →
    costs (venues i) = costs (venues j)

/-- The venue that a child is taken from first: of the healthy ones that are not too shallow, the
first with the best price to take. -/
structure FirstToTake (side : Side) (venues : VenueQuotes) (i : Fin 4) : Prop where
  healthy : (venues i).healthy = true
  deep : qtyEpsilon < (venues i).depthQty
  best : ∀ j, (venues j).healthy = true → qtyEpsilon < (venues j).depthQty →
    AsGood side .ioc (quotePriceForStyle (venues i) side .ioc)
      (quotePriceForStyle (venues j) side .ioc)
  first : ∀ j, (venues j).healthy = true → qtyEpsilon < (venues j).depthQty →
    quotePriceForStyle (venues i) side .ioc = quotePriceForStyle (venues j) side .ioc → i ≤ j

variable {cfg : ChildOrderScheduler} {side : Side} {style : ChildExecutionStyle}
  {venues : VenueQuotes} {memory : SchedulerMemory} {plan : ParentExecutionPlan}
  {horizonTicks inventoryAgeMs : ℤ} {u v : VenueQuote} {i j : Fin 4}

/-! ## Improving the touch -/

/-- **An improving buy** lies between the bid and the ask. -/
theorem improves_bid (hfraction : 0 < cfg.passiveImproveFraction) (hepsilon : 0 < cfg.priceCrossEpsilon)
    (hbid : 0 < v.bestBid) (hspread : cfg.priceCrossEpsilon < v.bestAsk - v.bestBid) :
    Improves cfg .bid v (cfg.limitPriceForStyle v .bid .passiveImprove) := by
  have hpos : 0 < v.bestAsk - v.bestBid := hepsilon.trans hspread
  have himprovement : 0 < cfg.improvement v :=
    lt_min (mul_pos hpos hfraction) (sub_pos.mpr hspread)
  have hinside : cfg.improvement v < v.bestAsk - v.bestBid :=
    (min_le_right _ _).trans_lt (sub_lt_self _ hepsilon)
  have hguard : ¬(v.bestBid ≤ 0 ∨ v.bestAsk ≤ 0 ∨ v.bestAsk ≤ v.bestBid) := by
    push Not
    exact ⟨hbid, by linarith, by linarith⟩
  have hprice : cfg.limitPriceForStyle v .bid .passiveImprove = v.bestBid + cfg.improvement v := by
    simp only [limitPriceForStyle, hguard, if_false]
    rw [max_eq_right (by exact himprovement.le)]
    rfl
  rw [hprice]
  refine ⟨by linarith, by linarith, ?_⟩
  simp only
  ring

/-- **An improving sell** is placed at the ask. -/
theorem limitPrice_ask (hspread : v.bestBid < v.bestAsk) :
    cfg.limitPriceForStyle v .ask .passiveImprove = v.bestAsk := by
  simp only [limitPriceForStyle]
  exact if_pos (.inr (.inr hspread.le))

/-- **Passive improvement** is right exactly for the plans that buy. -/
theorem improves_iff (hfraction : 0 < cfg.passiveImproveFraction)
    (hepsilon : 0 < cfg.priceCrossEpsilon)
    (hstyle : cfg.chooseStyle plan horizonTicks = .passiveImprove)
    (hquotes : ∀ i, (venues i).healthy = true → 0 < (venues i).bestBid ∧
      cfg.priceCrossEpsilon < (venues i).bestAsk - (venues i).bestBid)
    {child : ChildOrder}
    (hchild : child ∈ (cfg.schedule memory plan horizonTicks inventoryAgeMs venues).children) :
    (∃ i, (venues i).healthy = true ∧
      child = cfg.childOf (venues i) plan.side .passiveImprove child.quantity ∧
      Improves cfg plan.side (venues i) child.limitPrice) ↔ plan.side = .bid := by
  constructor
  · rintro ⟨i, hhealthy, hof, -, hbelow, -⟩
    cases hside : plan.side with
    | bid => rfl
    | ask =>
      have hspread := (hquotes i hhealthy).2
      rw [hof, hside] at hbelow
      simp only [childOf] at hbelow
      rw [limitPrice_ask (by linarith)] at hbelow
      exact absurd hbelow (lt_irrefl _)
  · intro hside
    rw [children_schedule_eq, hstyle] at hchild
    obtain ⟨p, hp, rfl⟩ := List.mem_map.mp hchild
    have hhealthy := (of_mem_givenTo hp).1
    obtain ⟨hbid, hspread⟩ := hquotes p.1 hhealthy
    refine ⟨p.1, hhealthy, rfl, ?_⟩
    rw [hside]
    exact improves_bid hfraction hepsilon hbid hspread

/-- A scheduler that improves the touch by a quarter of the spread. -/
def improvingScheduler : ChildOrderScheduler :=
  ⟨10, 5, 50, 0, 0, 0, 1 / 4, 1 / 100, ⟨1, 0, 1, ⟨0, 0, 0⟩, ⟨0, 0, 0⟩, ⟨0, 0, 0⟩, 0⟩⟩

/-- A bid of 99 and an ask of 101 at one venue. -/
def twoSided : VenueQuotes := fun i =>
  match i with
  | 0 => { bestBid := 99, bestAsk := 101, depthQty := 1, healthy := true }
  | 1 => {}
  | 2 => {}
  | 3 => {}

/-- A plan to sell one, which may wait. -/
def patientSell : ParentExecutionPlan :=
  { side := .ask, totalQty := 1, remainingQty := 1, state := .working }

/-- **An improving sell joins the ask**: nothing is improved. -/
theorem patientSell_not_improved :
    ¬∀ child ∈ (improvingScheduler.schedule zeroMemory patientSell 0 0 twoSided).children,
      ∃ i, (twoSided i).healthy = true ∧
        child = improvingScheduler.childOf (twoSided i) .ask .passiveImprove child.quantity ∧
        Improves improvingScheduler .ask (twoSided i) child.limitPrice := by
  have hchildren : (improvingScheduler.schedule zeroMemory patientSell 0 0 twoSided).children =
      [⟨.binance, 1, 101, .gtx⟩] := by decide +kernel
  rw [hchildren]
  intro h
  obtain ⟨i, -, -, -, hbelow, -⟩ := h _ List.mem_cons_self
  have hask : ∀ i, (twoSided i).bestAsk ≤ 101 := by decide +kernel
  exact absurd hbelow (not_lt.mpr (hask i))

theorem improves_patientBuy :
    (⟨.binance, 1, 99 + 1 / 2, .gtx⟩ : ChildOrder) ∈
        (improvingScheduler.schedule zeroMemory patientBuy 0 0 twoSided).children ∧
      ∃ i, (twoSided i).healthy = true ∧
        ⟨.binance, 1, 99 + 1 / 2, .gtx⟩ =
          improvingScheduler.childOf (twoSided i) .bid .passiveImprove 1 ∧
        Improves improvingScheduler .bid (twoSided i) (99 + 1 / 2) := by
  have hchild : (⟨.binance, 1, 99 + 1 / 2, .gtx⟩ : ChildOrder) ∈
      (improvingScheduler.schedule zeroMemory patientBuy 0 0 twoSided).children := by
    decide +kernel
  exact ⟨hchild, (improves_iff (by decide +kernel) (by decide +kernel) (by decide)
    (by decide +kernel) hchild).mpr rfl⟩

/-! ## The first venue -/

/-- How much worse a price to take is than the best price. -/
def pricePenalty (side : Side) (bestPx px : ℚ) : ℚ :=
  match side with
  | .bid => (px - bestPx) / bestPx * 10000
  | .ask => (bestPx - px) / bestPx * 10000

/-- Venues of the same costs differ by their prices to take alone. -/
theorem shortfall_sub (hcosts : costs u = costs v) {regime : RoutingRegime} {bestPx : ℚ}
    (hbest : 0 < bestPx) (hu : 0 < SmartOrderRouter.quotePriceForSide u side)
    (hv : 0 < SmartOrderRouter.quotePriceForSide v side) :
    cfg.venueExpectedShortfall u side style regime bestPx inventoryAgeMs -
        cfg.venueExpectedShortfall v side style regime bestPx inventoryAgeMs =
      pricePenalty side bestPx (SmartOrderRouter.quotePriceForSide u side) -
        pricePenalty side bestPx (SmartOrderRouter.quotePriceForSide v side) := by
  simp only [costs, VenueQuote.mk.injEq] at hcosts
  obtain ⟨-, -, -, -, hfee, hlatency, hrisk, hfill, hqueue, htoxicity, -, -, hadaptive, hpassive,
    htaker, -, -, -, -, hquality⟩ := hcosts
  have hregular : ∀ w, 0 < SmartOrderRouter.quotePriceForSide w side →
      ¬(SmartOrderRouter.quotePriceForSide w side ≤ 0 ∨ bestPx ≤ 0) := by
    rintro w hw (h | h)
    · exact absurd hw (not_lt.mpr h)
    · exact absurd hbest (not_lt.mpr h)
  have hscore : SmartOrderRouter.scoreVenueBps u side regime cfg.sor.minFillProbability =
      SmartOrderRouter.scoreVenueBps v side regime cfg.sor.minFillProbability := by
    simp only [SmartOrderRouter.scoreVenueBps, SmartOrderRouter.effectivePriceBps,
      SmartOrderRouter.effectiveFillProbability, not_le.mpr hu, not_le.mpr hv, if_false, hfee,
      hlatency, hrisk, hfill, hqueue, htoxicity, hadaptive, htaker, hquality]
  simp only [venueExpectedShortfall, SmartOrderRouter.expectedShortfallBps, hregular u hu,
    hregular v hv, if_false, hscore]
  cases style <;> cases side <;>
    simp only [hfee, hlatency, hqueue, hpassive, htaker, pricePenalty] <;> ring

theorem pricePenalty_le_iff {bestPx x y : ℚ} (hbest : 0 < bestPx) :
    pricePenalty side bestPx x ≤ pricePenalty side bestPx y ↔ AsGood side .ioc x y := by
  cases side with
  | bid =>
    simp only [pricePenalty, AsGood, lowerPriceIsBetter, ChildExecutionStyle.passive, beq_self_eq_true,
      Bool.false_eq_true, if_false, if_true]
    rw [mul_le_mul_iff_of_pos_right (by norm_num), div_le_div_iff_of_pos_right hbest,
      sub_le_sub_iff_right]
  | ask =>
    have hside : (Side.ask == Side.bid) = false := rfl
    simp only [pricePenalty, AsGood, lowerPriceIsBetter, ChildExecutionStyle.passive, hside,
      Bool.false_eq_true, if_false]
    rw [mul_le_mul_iff_of_pos_right (by norm_num), div_le_div_iff_of_pos_right hbest,
      sub_le_sub_iff_left]

theorem SameCosts.takerPrice_pos (h : SameCosts venues) (hi : (venues i).healthy = true)
    (side : Side) : 0 < SmartOrderRouter.quotePriceForSide (venues i) side := by
  cases side with
  | bid => exact h.ask_pos i hi
  | ask => exact h.bid_pos i hi

/-- Each healthy venue counts for the price of reference. -/
theorem SameCosts.counts (h : SameCosts venues) (hi : (venues i).healthy = true) (side : Side)
    (style : ChildExecutionStyle) : Counts side style (venues i) := by
  refine ⟨hi, h.depth_pos i hi, ?_⟩
  unfold quotePriceForStyle
  split_ifs
  · cases side with
    | bid => exact h.bid_pos i hi
    | ask => exact h.ask_pos i hi
  · exact h.takerPrice_pos hi side

/-- The cheaper of two healthy venues is the one with the better price to take. -/
theorem SameCosts.shortfall_le_iff (h : SameCosts venues) (hi : (venues i).healthy = true)
    (hj : (venues j).healthy = true) :
    cfg.shortfallOf memory plan horizonTicks inventoryAgeMs venues (venues i) ≤
        cfg.shortfallOf memory plan horizonTicks inventoryAgeMs venues (venues j) ↔
      AsGood plan.side .ioc (quotePriceForStyle (venues i) plan.side .ioc)
        (quotePriceForStyle (venues j) plan.side .ioc) := by
  have hbest : 0 < bestReferencePrice plan.side (cfg.chooseStyle plan horizonTicks) venues :=
    bestReferencePrice_pos_iff.mpr ⟨i, h.counts hi _ _⟩
  have hsub := @shortfall_sub cfg plan.side (cfg.chooseStyle plan horizonTicks) inventoryAgeMs
    _ _ (h.costs_eq i j hi hj) (SmartOrderRouter.inferRegime memory.regime venues cfg.sor) _ hbest
    (h.takerPrice_pos hi _) (h.takerPrice_pos hj _)
  rw [← sub_nonpos, ← pricePenalty_le_iff hbest, ← @sub_nonpos _ _ _ _ (pricePenalty _ _ _)]
  simp only [shortfallOf, styleAndPrice]
  rw [hsub]
  rfl

/-- **Which venue is first**: the first with the best price to take. -/
theorem SameCosts.selectBestVenue_iff (h : SameCosts venues) :
    selectBestVenue (shallow venues)
        (cfg.shortfallOf memory plan horizonTicks inventoryAgeMs venues) venues = some i ↔
      FirstToTake plan.side venues i ∧
        cfg.shortfallOf memory plan horizonTicks inventoryAgeMs venues (venues i) < 10 ^ 18 := by
  have hcandidate : ∀ j, (venues j).healthy = true → qtyEpsilon < (venues j).depthQty →
      (!shallow venues j && (venues j).healthy && decide (0 < (venues j).depthQty)) = true := by
    intro j hj hdeep
    simp [shallow, hj, not_le.mpr hdeep, qtyEpsilon_pos.trans hdeep]
  have hdeepOf : ∀ j, shallow venues j = false → qtyEpsilon < (venues j).depthQty :=
    fun j hj => not_le.mp (of_decide_eq_false hj)
  have hfirst : ∀ j, selectBestVenue (shallow venues)
      (cfg.shortfallOf memory plan horizonTicks inventoryAgeMs venues) venues = some j →
      FirstToTake plan.side venues j := by
    intro j hj
    obtain ⟨hshallow, hhealthy, -, -⟩ := selectBestVenue_some hj
    refine ⟨hhealthy, hdeepOf j hshallow, fun k hk hdeep => ?_, fun k hk hdeep heq => ?_⟩
    · exact (h.shortfall_le_iff hhealthy hk).mp
        (firstMin_le hj (List.mem_finRange k) (hcandidate k hk hdeep))
    · have hsame : cfg.shortfallOf memory plan horizonTicks inventoryAgeMs venues (venues j) =
          cfg.shortfallOf memory plan horizonTicks inventoryAgeMs venues (venues k) := by
        refine le_antisymm ((h.shortfall_le_iff hhealthy hk).mpr ?_)
          ((h.shortfall_le_iff hk hhealthy).mpr ?_)
        · rw [heq]
          exact AsGood.refl _
        · rw [heq]
          exact AsGood.refl _
      rcases firstMin_first (List.pairwise_lt_finRange 4) hj (List.mem_finRange k)
        (hcandidate k hk hdeep) hsame with rfl | hlt
      · exact le_rfl
      · exact hlt.le
  constructor
  · intro hselect
    exact ⟨hfirst i hselect, (selectBestVenue_some hselect).2.2.2⟩
  · rintro ⟨hi, hfinite⟩
    cases hselect : selectBestVenue (shallow venues)
      (cfg.shortfallOf memory plan horizonTicks inventoryAgeMs venues) venues with
    | none =>
      have hle := firstMin_none hselect (List.mem_finRange i) (hcandidate i hi.healthy hi.deep)
      exact absurd hfinite (not_lt.mpr hle)
    | some j =>
      have hj := hfirst j hselect
      have heq := (hi.best j hj.healthy hj.deep).antisymm (hj.best i hi.healthy hi.deep)
      rw [le_antisymm (hi.first j hj.healthy hj.deep heq) (hj.first i hi.healthy hi.deep heq.symm)]

/-- The venue of the first child has the best price of the style. -/
def FirstChildAtBest (cfg : ChildOrderScheduler) (memory : SchedulerMemory)
    (plan : ParentExecutionPlan) (horizonTicks inventoryAgeMs : ℤ) (venues : VenueQuotes) : Prop :=
  let style := cfg.chooseStyle plan horizonTicks
  ∀ p ∈ (cfg.givenTo memory plan horizonTicks inventoryAgeMs venues).head?,
    quotePriceForStyle (venues p.1) plan.side style = bestReferencePrice plan.side style venues

/-- **The best price for the style**: the first child goes there exactly when the venue with the
best price to take has it. -/
theorem firstChild_atBest_iff (hactive : plan.active = true) (hvenues : SameCosts venues) :
    FirstChildAtBest cfg memory plan horizonTicks inventoryAgeMs venues ↔
      (qtyEpsilon < plan.remainingQty → ∀ i, FirstToTake plan.side venues i →
        cfg.shortfallOf memory plan horizonTicks inventoryAgeMs venues (venues i) < 10 ^ 18 →
        ∀ j, (venues j).healthy = true →
          AsGood plan.side (cfg.chooseStyle plan horizonTicks)
            (quotePriceForStyle (venues i) plan.side (cfg.chooseStyle plan horizonTicks))
            (quotePriceForStyle (venues j) plan.side (cfg.chooseStyle plan horizonTicks))) := by
  -- a healthy venue is at the price of reference when it is as good as every healthy venue
  have hreference : ∀ i, (venues i).healthy = true →
      (quotePriceForStyle (venues i) plan.side (cfg.chooseStyle plan horizonTicks) =
          bestReferencePrice plan.side (cfg.chooseStyle plan horizonTicks) venues ↔
        ∀ j, (venues j).healthy = true →
          AsGood plan.side (cfg.chooseStyle plan horizonTicks)
            (quotePriceForStyle (venues i) plan.side (cfg.chooseStyle plan horizonTicks))
            (quotePriceForStyle (venues j) plan.side (cfg.chooseStyle plan horizonTicks))) := by
    intro i hi
    rw [eq_bestReferencePrice_iff (hvenues.counts hi _ _)]
    exact ⟨fun h j hj => h j (hvenues.counts hj _ _), fun h j hj => h j hj.1⟩
  unfold FirstChildAtBest
  by_cases hremaining : qtyEpsilon < plan.remainingQty
  · have hhead := @head_picks cfg plan.side (cfg.chooseStyle plan horizonTicks)
      (cfg.shortfallOf memory plan horizonTicks inventoryAgeMs venues) venues
      SmartOrderRouter.maxVenues { remaining := plan.remainingQty } rfl hremaining
      (fun i hi => by cases hi) (venuesLeft_le _)
    simp only [hremaining, true_imp_iff]
    constructor
    · intro hbest i hi hfinite
      have hprice : 0 < (cfg.styleAndPrice plan horizonTicks venues).2 :=
        bestReferencePrice_pos_iff.mpr ⟨i, hvenues.counts hi.healthy _ _⟩
      rw [givenTo, if_pos ⟨hactive, qtyEpsilon_pos.trans hremaining, hprice⟩, styleAndPrice, hhead,
        hvenues.selectBestVenue_iff.mpr ⟨hi, hfinite⟩] at hbest
      exact (hreference i hi.healthy).mp (hbest _ rfl)
    · intro hbest p hp
      rw [givenTo] at hp
      split_ifs at hp
      · rw [styleAndPrice, hhead] at hp
        obtain ⟨i, hselect, rfl⟩ := Option.mem_map.mp hp
        obtain ⟨hi, hfinite⟩ := hvenues.selectBestVenue_iff.mp hselect
        exact (hreference i hi.healthy).mpr (hbest i hi hfinite)
      · cases hp
  · -- nothing is given when too little remains
    simp only [hremaining, false_imp_iff, iff_true]
    intro p hp
    rw [givenTo] at hp
    split_ifs at hp
    · rw [SmartOrderRouter.maxVenues, picks, if_pos (.inl (not_lt.mp hremaining))] at hp
      cases hp
    · cases hp

/-- The venue with the lower ask has the lower bid. -/
def wideAndHigh : VenueQuotes := fun i =>
  match i with
  | 0 => { bestBid := 98, bestAsk := 100, depthQty := 1, healthy := true }
  | 1 => { bestBid := 99, bestAsk := 101, depthQty := 1, healthy := true, exchange := .kraken }
  | 2 => {}
  | 3 => {}

/-- **A bid that is not the best**: the passive buy joins the bid of 98. -/
theorem wideAndHigh_not_atBest : SameCosts wideAndHigh ∧
    ¬FirstChildAtBest plainScheduler zeroMemory patientBuy 50 0 wideAndHigh := by
  refine ⟨⟨by decide +kernel, by decide +kernel, by decide +kernel, by decide +kernel⟩, ?_⟩
  intro h
  have hgiven : (plainScheduler.givenTo zeroMemory patientBuy 50 0 wideAndHigh).head? =
      some (0, 1) := by decide +kernel
  have hprice := h (0, 1) hgiven
  revert hprice
  decide +kernel

theorem firstChild_atBest_twoSided : SameCosts twoSided ∧
    FirstChildAtBest plainScheduler zeroMemory patientBuy 50 0 twoSided := by
  have hvenues : SameCosts twoSided :=
    ⟨by decide +kernel, by decide +kernel, by decide +kernel, by decide +kernel⟩
  refine ⟨hvenues, (firstChild_atBest_iff (by decide) hvenues).mpr ?_⟩
  intro _ i hi _ j hj
  have honly : ∀ k, (twoSided k).healthy = true → k = 0 := by decide +kernel
  rw [honly i hi.healthy, honly j hj]
  exact AsGood.refl _

end ChildOrderScheduler

end TradingInfrastructure
