import TradingInfrastructure.Foundations.FirstMinimum
import TradingInfrastructure.Router.ParentOrderManager
import TradingInfrastructure.Router.SmartOrderRouter

/-!
# The children of a plan

`core/execution/common/orders/child_order_scheduler.hpp`: the remaining quantity of a plan is given
to the venues, the cheapest first, to each no more than its depth. Only a sweep takes more than one
venue. What is given out is never more than what remains (`quantity_schedule_le`).

The loop takes a venue in each turn, so four turns are enough (`scheduleLoop_fuel`).
-/

namespace TradingInfrastructure

/-- `ChildExecutionStyle`. -/
inductive ChildExecutionStyle
  | passiveJoin | passiveImprove | ioc | sweep
  deriving DecidableEq, Inhabited, Repr

/-- The style is passive. -/
def ChildExecutionStyle.passive : ChildExecutionStyle → Bool
  | .passiveJoin | .passiveImprove => true
  | .ioc | .sweep => false

/-- `SchedulerDecision`, with the children in use. -/
structure SchedulerDecision where
  children : List ChildOrder := []
  style : ChildExecutionStyle
  expectedShortfallBps : ℚ
  deriving DecidableEq

/-- What memory holds where the scheduler does not initialize it. -/
structure SchedulerMemory where
  style : ChildExecutionStyle
  expectedShortfallBps : ℚ
  regime : RoutingRegime
  deriving DecidableEq

/-- `ChildOrderScheduler::Config`. -/
structure ChildOrderScheduler where
  shortHorizonTicks : ℤ
  sweepHorizonTicks : ℤ
  longHorizonTicks : ℤ
  passiveJoinInventoryAgeBps : ℚ
  passiveImproveInventoryAgeBps : ℚ
  aggressiveInventoryAgeBps : ℚ
  passiveImproveFraction : ℚ
  priceCrossEpsilon : ℚ
  sor : SmartOrderRouterConfig
  deriving DecidableEq

/-- What the turns of the loop share: the venues taken, what remains, the cost so far and the
children. -/
structure ScheduleState where
  used : Fin 4 → Bool := fun _ => false
  remaining : ℚ
  totalWeightedShortfall : ℚ := 0
  children : List ChildOrder := []

namespace ChildOrderScheduler

variable (cfg : ChildOrderScheduler)

/-- `k_qty_epsilon`. -/
def qtyEpsilon : ℚ := 1 / 10 ^ 9

/-- The size of the array of children. -/
def maxChildren : ℕ := 8

/-- `lower_price_is_better`. -/
def lowerPriceIsBetter (side : Side) (style : ChildExecutionStyle) : Bool :=
  if style.passive then side == .ask else side == .bid

/-- `choose_style`. -/
def chooseStyle (plan : ParentExecutionPlan) (horizonTicks : ℤ) : ChildExecutionStyle :=
  match plan.urgency with
  | .aggressive => if horizonTicks ≤ cfg.sweepHorizonTicks then .sweep else .ioc
  | .passive => if horizonTicks ≥ cfg.longHorizonTicks then .passiveJoin else .passiveImprove
  | .balanced =>
    if horizonTicks ≤ cfg.sweepHorizonTicks then .sweep
    else if horizonTicks ≤ cfg.shortHorizonTicks then .ioc
    else .passiveImprove

/-- `max_venue_count`. -/
def maxVenueCount : ChildExecutionStyle → ℕ
  | .sweep => SmartOrderRouter.maxVenues
  | .passiveJoin | .passiveImprove | .ioc => 1

/-- `inventory_age_penalty_bps`. -/
def inventoryAgePenaltyBps (style : ChildExecutionStyle) (inventoryAgeMs : ℤ) : ℚ :=
  let ageScale := clamp ((max 0 inventoryAgeMs : ℤ) / 1000) 0 10
  match style with
  | .passiveJoin => ageScale * cfg.passiveJoinInventoryAgeBps
  | .passiveImprove => ageScale * cfg.passiveImproveInventoryAgeBps
  | .ioc | .sweep => ageScale * cfg.aggressiveInventoryAgeBps

/-- `quote_price_for_style`. -/
def quotePriceForStyle (venue : VenueQuote) (side : Side) (style : ChildExecutionStyle) : ℚ :=
  if style.passive then (match side with | .bid => venue.bestBid | .ask => venue.bestAsk)
  else SmartOrderRouter.quotePriceForSide venue side

/-- `best_reference_price`. -/
def bestReferencePrice (side : Side) (style : ChildExecutionStyle) (venues : VenueQuotes) : ℚ :=
  let best := (List.finRange 4).foldl (fun (best : Option ℚ) i =>
    let px := quotePriceForStyle (venues i) side style
    if (venues i).healthy = false ∨ (venues i).depthQty ≤ 0 ∨ px ≤ 0 then best
    else
      match best with
      | none => some px
      | some best =>
        if lowerPriceIsBetter side style then some (min px best) else some (max px best)) none
  best.getD 0

/-- `venue_expected_shortfall`. -/
def venueExpectedShortfall (venue : VenueQuote) (side : Side) (style : ChildExecutionStyle)
    (regime : RoutingRegime) (bestPx : ℚ) (inventoryAgeMs : ℤ) : ℚ :=
  let score := SmartOrderRouter.expectedShortfallBps venue side regime bestPx
    (cfg.inventoryAgePenaltyBps style inventoryAgeMs) cfg.sor.minFillProbability
  match style with
  | .passiveJoin => score - 1 / 2 * venue.takerFeeBps + venue.passiveMarkoutBps
  | .passiveImprove =>
    score - 1 / 4 * venue.takerFeeBps + 1 / 10 * venue.queueAheadQty + venue.passiveMarkoutBps
  | .sweep => score - 1 / 5 * venue.latencyPenaltyBps + venue.takerMarkoutBps
  | .ioc => score + venue.takerMarkoutBps

/-- `select_best_venue`: the first of the cheapest venues that are left. -/
def selectBestVenue (used : Fin 4 → Bool) (shortfall : VenueQuote → ℚ) (venues : VenueQuotes) :
    Option (Fin 4) :=
  firstMin (fun i => !used i && (venues i).healthy && decide (0 < (venues i).depthQty))
    (fun i => shortfall (venues i)) (10 ^ 18) (List.finRange 4)

/-- `tif_for_style`. -/
def tifForStyle (style : ChildExecutionStyle) : TimeInForce :=
  if style.passive then .gtx else .ioc

/-- `limit_price_for_style`. -/
def limitPriceForStyle (venue : VenueQuote) (side : Side) (style : ChildExecutionStyle) : ℚ :=
  match style with
  | .passiveJoin => quotePriceForStyle venue side style
  | .passiveImprove =>
    let sameSide := match side with | .bid => venue.bestBid | .ask => venue.bestAsk
    let oppositeSide := match side with | .bid => venue.bestAsk | .ask => venue.bestBid
    if sameSide ≤ 0 ∨ oppositeSide ≤ 0 ∨ oppositeSide ≤ sameSide then sameSide
    else
      let spread := oppositeSide - sameSide
      let improvement :=
        max 0 (min (spread * cfg.passiveImproveFraction) (spread - cfg.priceCrossEpsilon))
      match side with
      | .bid => sameSide + improvement
      | .ask => sameSide - improvement
  | .ioc | .sweep => quotePriceForStyle venue side style

/-- The child that a venue is given. -/
def childOf (venue : VenueQuote) (side : Side) (style : ChildExecutionStyle)
    (clip : ℚ) : ChildOrder :=
  ⟨venue.exchange, clip, cfg.limitPriceForStyle venue side style, tifForStyle style⟩

/-- The quantity that the venue can take of what remains. -/
def clip (venues : VenueQuotes) (s : ScheduleState) (i : Fin 4) : ℚ :=
  min s.remaining (venues i).depthQty

/-- The state after a venue that takes too little. -/
def skipVenue (s : ScheduleState) (i : Fin 4) : ScheduleState :=
  { s with used := Function.update s.used i true }

/-- The state after a venue that is given a child. -/
def giveVenue (side : Side) (style : ChildExecutionStyle) (shortfall : VenueQuote → ℚ)
    (venues : VenueQuotes) (s : ScheduleState) (i : Fin 4) : ScheduleState where
  used := Function.update s.used i true
  remaining := s.remaining - clip venues s i
  totalWeightedShortfall := s.totalWeightedShortfall + clip venues s i * shortfall (venues i)
  children := s.children ++ [cfg.childOf (venues i) side style (clip venues s i)]

/-- The loop of `schedule`, for so many turns at most. -/
def scheduleLoop (side : Side) (style : ChildExecutionStyle) (shortfall : VenueQuote → ℚ)
    (venues : VenueQuotes) : ℕ → ScheduleState → ScheduleState
  | 0, s => s
  | fuel + 1, s =>
    if s.remaining ≤ qtyEpsilon ∨ s.children.length ≥ maxChildren ∨
        s.children.length ≥ maxVenueCount style then s
    else
      match selectBestVenue s.used shortfall venues with
      | none => s
      | some i =>
        if clip venues s i ≤ qtyEpsilon then
          scheduleLoop side style shortfall venues fuel (skipVenue s i)
        else if style = .sweep then
          scheduleLoop side style shortfall venues fuel
            (cfg.giveVenue side style shortfall venues s i)
        else cfg.giveVenue side style shortfall venues s i

/-- The venues that the loop gives a child to, in order, with the quantities. -/
def picks (side : Side) (style : ChildExecutionStyle) (shortfall : VenueQuote → ℚ)
    (venues : VenueQuotes) : ℕ → ScheduleState → List (Fin 4 × ℚ)
  | 0, _ => []
  | fuel + 1, s =>
    if s.remaining ≤ qtyEpsilon ∨ s.children.length ≥ maxChildren ∨
        s.children.length ≥ maxVenueCount style then []
    else
      match selectBestVenue s.used shortfall venues with
      | none => []
      | some i =>
        if clip venues s i ≤ qtyEpsilon then picks side style shortfall venues fuel (skipVenue s i)
        else if style = .sweep then
          (i, clip venues s i) :: picks side style shortfall venues fuel
            (cfg.giveVenue side style shortfall venues s i)
        else [(i, clip venues s i)]

/-- The style of a plan and the best price that it is compared with. -/
def styleAndPrice (plan : ParentExecutionPlan) (horizonTicks : ℤ) (venues : VenueQuotes) :
    ChildExecutionStyle × ℚ :=
  let style := cfg.chooseStyle plan horizonTicks
  (style, bestReferencePrice plan.side style venues)

/-- The shortfall that `schedule` expects of a venue. -/
def shortfallOf (memory : SchedulerMemory) (plan : ParentExecutionPlan)
    (horizonTicks inventoryAgeMs : ℤ) (venues : VenueQuotes) (venue : VenueQuote) : ℚ :=
  let (style, bestPx) := cfg.styleAndPrice plan horizonTicks venues
  cfg.venueExpectedShortfall venue plan.side style
    (SmartOrderRouter.inferRegime memory.regime venues cfg.sor) bestPx inventoryAgeMs

/-- `schedule`. -/
def schedule (memory : SchedulerMemory) (plan : ParentExecutionPlan)
    (horizonTicks inventoryAgeMs : ℤ)
    (venues : VenueQuotes) : SchedulerDecision :=
  let out : SchedulerDecision := ⟨[], memory.style, memory.expectedShortfallBps⟩
  if !plan.active || plan.remainingQty ≤ 0 then out
  else
    let (style, bestPx) := cfg.styleAndPrice plan horizonTicks venues
    let out := { out with style }
    if bestPx ≤ 0 then out
    else
      let s := cfg.scheduleLoop plan.side style
        (cfg.shortfallOf memory plan horizonTicks inventoryAgeMs venues) venues
          SmartOrderRouter.maxVenues
        { remaining := plan.remainingQty }
      let out := { out with children := s.children }
      if s.children = [] then out
      else
        let routedQty := plan.remainingQty - s.remaining
        if routedQty > qtyEpsilon then
          { out with expectedShortfallBps := s.totalWeightedShortfall / routedQty }
        else out

/-- A venue that a sweep can give a child with a price to. -/
def Sweepable (side : Side) (style : ChildExecutionStyle) (shortfall : VenueQuote → ℚ)
    (venue : VenueQuote) : Prop :=
  venue.healthy = true ∧ qtyEpsilon < venue.depthQty ∧ shortfall venue < 10 ^ 18 ∧
    0 < cfg.limitPriceForStyle venue side style

instance (side : Side) (style : ChildExecutionStyle) (shortfall : VenueQuote → ℚ)
    (venue : VenueQuote) :
    Decidable (cfg.Sweepable side style shortfall venue) := by
  unfold Sweepable
  infer_instance

/-- The venues that are too shallow for a child. -/
def shallow (venues : VenueQuotes) (i : Fin 4) : Bool := decide ((venues i).depthQty ≤ qtyEpsilon)

/-- The depth of the quotes for a style, where they have a price: of all venues for a sweep, and of
the cheapest one that is not too shallow for the other styles. -/
def depthFor (side : Side) (style : ChildExecutionStyle) (shortfall : VenueQuote → ℚ)
    (venues : VenueQuotes) : ℚ :=
  if style = .sweep then
    ∑ i, if cfg.Sweepable side style shortfall (venues i) then (venues i).depthQty else 0
  else
    match selectBestVenue (shallow venues) shortfall venues with
    | some i => if 0 < cfg.limitPriceForStyle (venues i) side style then (venues i).depthQty else 0
    | none => 0

/-- What the quotes offer to a plan of this side, quantity and urgency. -/
def offered (memory : SchedulerMemory) (plan : ParentExecutionPlan)
    (horizonTicks inventoryAgeMs : ℤ)
    (venues : VenueQuotes) : ℚ :=
  let (style, bestPx) := cfg.styleAndPrice plan horizonTicks venues
  if bestPx ≤ 0 then 0
  else
    min plan.remainingQty (cfg.depthFor plan.side style
      (cfg.shortfallOf memory plan horizonTicks inventoryAgeMs venues) venues)

end ChildOrderScheduler

/-- The quantity of the children. -/
def totalQuantity (children : List ChildOrder) : ℚ := (children.map (·.quantity)).sum

/-- The children that have a price. -/
def pricedChildren (children : List ChildOrder) : List ChildOrder :=
  children.filter fun child => 0 < child.limitPrice

@[simp] theorem totalQuantity_nil : totalQuantity [] = 0 := rfl

@[simp] theorem totalQuantity_append (a b : List ChildOrder) :
    totalQuantity (a ++ b) = totalQuantity a + totalQuantity b := by
  simp [totalQuantity]

@[simp] theorem totalQuantity_singleton (child : ChildOrder) :
    totalQuantity [child] = child.quantity := by
  simp [totalQuantity]

@[simp] theorem pricedChildren_nil : pricedChildren [] = [] := rfl

@[simp] theorem pricedChildren_append (a b : List ChildOrder) :
    pricedChildren (a ++ b) = pricedChildren a ++ pricedChildren b :=
  List.filter_append a b

theorem totalQuantity_pricedChildren_singleton (child : ChildOrder) :
    totalQuantity (pricedChildren [child]) =
      if 0 < child.limitPrice then child.quantity else 0 := by
  unfold pricedChildren
  split_ifs with hprice
  · simp [hprice]
  · simp [hprice]

/-- The children with a price are some of the children. -/
theorem totalQuantity_pricedChildren_le {children : List ChildOrder}
    (h : ∀ child ∈ children, 0 < child.quantity) :
    totalQuantity (pricedChildren children) ≤ totalQuantity children := by
  have hsub : List.Sublist ((pricedChildren children).map (·.quantity))
    (children.map (·.quantity)) :=
    List.filter_sublist.map _
  refine hsub.sum_le_sum fun q hq => ?_
  obtain ⟨child, hchild, rfl⟩ := List.mem_map.mp hq
  exact (h child hchild).le

namespace ChildOrderScheduler

variable {cfg : ChildOrderScheduler} {side : Side} {style : ChildExecutionStyle}
  {shortfall : VenueQuote → ℚ} {venues : VenueQuotes} {used : Fin 4 → Bool} {i : Fin 4}

theorem qtyEpsilon_pos : 0 < qtyEpsilon := by
  unfold qtyEpsilon
  norm_num

/-! ## The choice of a venue -/

theorem selectBestVenue_some (h : selectBestVenue used shortfall venues = some i) :
    used i = false ∧ (venues i).healthy = true ∧ 0 < (venues i).depthQty ∧
      shortfall (venues i) < 10 ^ 18 := by
  obtain ⟨hcandidate, hcost⟩ := firstMin_some h
  simp only [Bool.and_eq_true, Bool.not_eq_true', decide_eq_true_eq] at hcandidate
  exact ⟨hcandidate.1.1, hcandidate.1.2, hcandidate.2, hcost⟩

/-- As long as only shallow venues are taken, the choice is that among all venues that are not
shallow, unless it is a shallow one. -/
theorem selectBestVenue_shallow (hused : ∀ i, used i = true → shallow venues i = true) :
    selectBestVenue (shallow venues) shortfall venues = selectBestVenue used shortfall venues ∨
      ∃ i, selectBestVenue used shortfall venues = some i ∧ shallow venues i = true := by
  have hfewer : ∀ i,
      (!shallow venues i && (venues i).healthy && decide (0 < (venues i).depthQty)) = true →
      (!used i && (venues i).healthy && decide (0 < (venues i).depthQty)) = true := by
    intro i hi
    simp only [Bool.and_eq_true, Bool.not_eq_true'] at hi ⊢
    refine ⟨⟨?_, hi.1.2⟩, hi.2⟩
    by_contra hin
    have hshallow := hused i (Bool.eq_true_of_not_eq_false hin)
    rw [hi.1.1] at hshallow
    cases hshallow
  rcases @firstMin_restrict _ _ _ _ _ (fun i => shortfall (venues i)) (10 ^ 18)
    (List.finRange 4) hfewer
    with h | ⟨i, hi, hout⟩
  · exact .inl h
  · obtain ⟨-, hhealthy, hdepth, -⟩ := selectBestVenue_some hi
    exact .inr ⟨i, hi, by simpa [hhealthy, hdepth] using hout⟩

/-! ## What the loop gives out -/

/-- **What each turn keeps, the loop keeps**: a turn takes a venue that is left, which is skipped or
given a child. -/
theorem scheduleLoop_induction {P : ScheduleState → Prop}
    (hskip : ∀ s i, P s → s.used i = false → P (skipVenue s i))
    (hgive : ∀ s i, P s → qtyEpsilon < s.remaining →
    selectBestVenue s.used shortfall venues = some i →
      qtyEpsilon < clip venues s i → P (cfg.giveVenue side style shortfall venues s i))
    {fuel : ℕ} {s : ScheduleState} (h : P s) :
    P (cfg.scheduleLoop side style shortfall venues fuel s) := by
  induction fuel generalizing s with
  | zero => exact h
  | succ fuel ih =>
    rw [scheduleLoop]
    by_cases hdone : s.remaining ≤ qtyEpsilon ∨ s.children.length ≥ maxChildren ∨
        s.children.length ≥ maxVenueCount style
    · rwa [if_pos hdone]
    · rw [if_neg hdone]
      push Not at hdone
      cases hselect : selectBestVenue s.used shortfall venues with
      | none => exact h
      | some i =>
        simp only
        split_ifs with hclip hsweep
        · exact ih (hskip s i h (selectBestVenue_some hselect).1)
        · exact ih (hgive s i h hdone.1 hselect (not_le.mp hclip))
        · exact hgive s i h hdone.1 hselect (not_le.mp hclip)

/-- What is given out is taken from what remains, and each part is positive. -/
structure Allots (total : ℚ) (s : ScheduleState) : Prop where
  total_eq : totalQuantity s.children + s.remaining = total
  remaining_nonneg : 0 ≤ s.remaining
  quantity_pos : ∀ child ∈ s.children, 0 < child.quantity

theorem Allots.giveVenue {total : ℚ} {s : ScheduleState} (h : Allots total s)
    (hclip : qtyEpsilon < clip venues s i) :
    Allots total (cfg.giveVenue side style shortfall venues s i) := by
  refine ⟨?_, ?_, ?_⟩
  · have := h.total_eq
    simp only [ChildOrderScheduler.giveVenue, totalQuantity_append,
      totalQuantity_singleton, childOf]
    linarith
  · exact sub_nonneg.mpr (min_le_left _ _)
  · intro child hchild
    rcases List.mem_append.mp hchild with hold | hnew
    · exact h.quantity_pos child hold
    · rw [List.mem_singleton.mp hnew]
      exact qtyEpsilon_pos.trans hclip

/-- **The loop allots**: each turn gives out a part of what remains. -/
theorem Allots.scheduleLoop {total : ℚ} {fuel : ℕ} {s : ScheduleState} (h : Allots total s) :
    Allots total (cfg.scheduleLoop side style shortfall venues fuel s) :=
  scheduleLoop_induction (P := Allots total)
    (fun _ _ h _ => ⟨h.total_eq, h.remaining_nonneg, h.quantity_pos⟩)
    (fun _ _ h _ _ hclip => h.giveVenue hclip) h

theorem Allots.total_le {total : ℚ} {s : ScheduleState} (h : Allots total s) :
    totalQuantity s.children ≤ total := by
  have := h.total_eq
  have := h.remaining_nonneg
  linarith

/-- The depth of the venues taken where a sweep gives a child with a price. -/
def takenDepth (cfg : ChildOrderScheduler) (side : Side) (style : ChildExecutionStyle)
    (shortfall : VenueQuote → ℚ) (venues : VenueQuotes) (used : Fin 4 → Bool) : ℚ :=
  ∑ i, if used i = true ∧ cfg.Sweepable side style shortfall (venues i)
    then (venues i).depthQty else 0

/-- Taking a venue that is left adds its depth. -/
theorem takenDepth_update (hi : used i = false) :
    takenDepth cfg side style shortfall venues (Function.update used i true) =
      takenDepth cfg side style shortfall venues used +
        if cfg.Sweepable side style shortfall (venues i) then (venues i).depthQty else 0 := by
  have hadd : ∀ j, (if Function.update used i true j = true ∧
        cfg.Sweepable side style shortfall (venues j) then (venues j).depthQty else 0) =
      (if used j = true ∧ cfg.Sweepable side style shortfall (venues j)
        then (venues j).depthQty else 0) +
        if j = i then
          (if cfg.Sweepable side style shortfall (venues j) then (venues j).depthQty else 0)
            else 0 := by
    intro j
    by_cases hj : j = i
    · subst hj
      simp [hi]
    · simp [hj]
  unfold takenDepth
  rw [Finset.sum_congr rfl fun j _ => hadd j, Finset.sum_add_distrib, Finset.sum_ite_eq']
  simp

/-- The depth of a venue counts when it is not negative. -/
theorem sweepable_depth_nonneg (venue : VenueQuote) :
    0 ≤ if cfg.Sweepable side style shortfall venue then venue.depthQty else 0 := by
  split_ifs with h
  · exact (qtyEpsilon_pos.trans h.2.1).le
  · exact le_rfl

theorem takenDepth_le (used : Fin 4 → Bool) :
    takenDepth cfg side style shortfall venues used ≤
      ∑ i, if cfg.Sweepable side style shortfall (venues i) then (venues i).depthQty else 0 := by
  refine Finset.sum_le_sum fun i _ => ?_
  cases hused : used i with
  | true => simp
  | false => simpa using sweepable_depth_nonneg (venues i)

/-- What is given out with a price is within the depth of the venues taken. -/
theorem pricedChildren_scheduleLoop_le_takenDepth {fuel : ℕ} {s : ScheduleState}
    (h : totalQuantity (pricedChildren s.children) ≤
      takenDepth cfg side style shortfall venues s.used) :
    let after := cfg.scheduleLoop side style shortfall venues fuel s
    totalQuantity (pricedChildren after.children) ≤
      takenDepth cfg side style shortfall venues after.used := by
  refine @scheduleLoop_induction cfg side style shortfall venues
    (fun s => totalQuantity (pricedChildren s.children) ≤
      takenDepth cfg side style shortfall venues s.used) ?_ ?_ fuel s h
  · intro s i h hi
    simp only [skipVenue, takenDepth_update hi]
    exact h.trans (le_add_of_nonneg_right (sweepable_depth_nonneg _))
  · intro s i h _ hselect hclip
    obtain ⟨hi, hhealthy, -, hshortfall⟩ := selectBestVenue_some hselect
    simp only [giveVenue, takenDepth_update hi, pricedChildren_append, totalQuantity_append,
      totalQuantity_pricedChildren_singleton]
    refine add_le_add h ?_
    by_cases hprice : 0 < cfg.limitPriceForStyle (venues i) side style
    · have hsweepable : cfg.Sweepable side style shortfall (venues i) :=
        ⟨hhealthy, hclip.trans_le (min_le_right _ _), hshortfall, hprice⟩
      simp only [childOf, hprice, if_true, hsweepable]
      exact min_le_right _ _
    · simp only [childOf, hprice, if_false]
      exact sweepable_depth_nonneg _

/-! ## The turns of the loop -/

/-- The number of venues that are left. -/
def venuesLeft (used : Fin 4 → Bool) : ℕ := (Finset.univ.filter fun i => used i = false).card

theorem venuesLeft_update (hi : used i = false) :
    venuesLeft (Function.update used i true) < venuesLeft used := by
  refine Finset.card_lt_card
    (Finset.ssubset_iff_of_subset ?_ |>.mpr ⟨i, by simpa using hi, by simp⟩)
  intro j hj
  by_cases hji : j = i
  · subst hji
    simp at hj
  · simpa [hji] using hj

theorem venuesLeft_le (used : Fin 4 → Bool) : venuesLeft used ≤ SmartOrderRouter.maxVenues := by
  have := Finset.card_filter_le Finset.univ fun i => used i = false
  rwa [Finset.card_univ, Fintype.card_fin] at this

/-- No venue is chosen when none is left. -/
theorem selectBestVenue_of_noneLeft (h : venuesLeft used = 0) :
    selectBestVenue used shortfall venues = none := by
  cases hselect : selectBestVenue used shortfall venues with
  | none => rfl
  | some i =>
    have hmem : i ∈ Finset.univ.filter fun i => used i = false := by
      simpa using (selectBestVenue_some hselect).1
    rw [Finset.card_eq_zero.mp h] at hmem
    cases hmem

/-- **Enough turns**: with a turn for each venue that is left, another one changes nothing. -/
theorem scheduleLoop_fuel {fuel : ℕ} {s : ScheduleState} (hfuel : venuesLeft s.used ≤ fuel) :
    cfg.scheduleLoop side style shortfall venues (fuel + 1) s =
      cfg.scheduleLoop side style shortfall venues fuel s := by
  induction fuel generalizing s with
  | zero =>
    simp only [scheduleLoop, selectBestVenue_of_noneLeft (Nat.le_zero.mp hfuel), ite_self]
  | succ fuel ih =>
    rw [scheduleLoop]
    conv_rhs => rw [scheduleLoop]
    cases hselect : selectBestVenue s.used shortfall venues with
    | none => rfl
    | some i =>
      have hleft : venuesLeft (Function.update s.used i true) ≤ fuel :=
        Nat.lt_succ_iff.mp ((venuesLeft_update (selectBestVenue_some hselect).1).trans_le hfuel)
      have hskip := @ih (skipVenue s i) hleft
      have hgive := @ih (cfg.giveVenue side style shortfall venues s i) hleft
      simp only [hskip, hgive]

/-- The loop goes on as long as something remains and no child is given. -/
theorem goesOn {s : ScheduleState} (style : ChildExecutionStyle) (hchildren : s.children = [])
    (hremaining : qtyEpsilon < s.remaining) :
    ¬(s.remaining ≤ qtyEpsilon ∨ s.children.length ≥ maxChildren ∨
      s.children.length ≥ maxVenueCount style) := by
  rw [hchildren]
  cases style <;> simp [hremaining, maxChildren, maxVenueCount, SmartOrderRouter.maxVenues]

/-- A venue that is skipped is a shallow one. -/
theorem shallow_of_clip {s : ScheduleState} (hremaining : qtyEpsilon < s.remaining)
    (hclip : clip venues s i ≤ qtyEpsilon) : shallow venues i = true := by
  rcases min_le_iff.mp hclip with hremains | hdepth
  · exact absurd hremains (not_le.mpr hremaining)
  · exact decide_eq_true hdepth

theorem shallow_skipVenue {s : ScheduleState}
    (hused : ∀ i, s.used i = true → shallow venues i = true)
    (hi : shallow venues i = true) : ∀ j, (skipVenue s i).used j = true →
    shallow venues j = true := by
  intro j hj
  by_cases hji : j = i
  · rwa [hji]
  · exact hused j (by simpa [skipVenue, hji] using hj)

/-- The children are those of the venues picked. -/
theorem children_scheduleLoop {fuel : ℕ} {s : ScheduleState} :
    (cfg.scheduleLoop side style shortfall venues fuel s).children =
      s.children ++ (cfg.picks side style shortfall venues fuel s).map fun p =>
        cfg.childOf (venues p.1) side style p.2 := by
  induction fuel generalizing s with
  | zero => simp [scheduleLoop, picks]
  | succ fuel ih =>
    rw [scheduleLoop, picks]
    by_cases hdone : s.remaining ≤ qtyEpsilon ∨ s.children.length ≥ maxChildren ∨
        s.children.length ≥ maxVenueCount style
    · simp [hdone]
    · rw [if_neg hdone, if_neg hdone]
      cases selectBestVenue s.used shortfall venues with
      | none => simp
      | some i =>
        simp only
        split_ifs
        · exact ih
        · rw [ih]
          simp [giveVenue]
        · rfl

/-- **The first venue picked** is the cheapest that is not too shallow. -/
theorem head_picks {fuel : ℕ} {s : ScheduleState}
    (hchildren : s.children = []) (hremaining : qtyEpsilon < s.remaining)
    (hused : ∀ i, s.used i = true → shallow venues i = true) (hfuel : venuesLeft s.used ≤ fuel) :
    (cfg.picks side style shortfall venues fuel s).head? =
      (selectBestVenue (shallow venues) shortfall venues).map fun i =>
        (i, min s.remaining (venues i).depthQty) := by
  -- a choice of nothing, or of a venue that is deep enough, is the choice among all such venues
  have hchoice := @selectBestVenue_shallow shortfall venues s.used hused
  induction fuel generalizing s with
  | zero =>
    rw [selectBestVenue_of_noneLeft (Nat.le_zero.mp hfuel)] at hchoice
    rcases hchoice with hnone | ⟨i, hi, -⟩
    · rw [hnone]
      rfl
    · cases hi
  | succ fuel ih =>
    rw [picks, if_neg (goesOn style hchildren hremaining)]
    cases hselect : selectBestVenue s.used shortfall venues with
    | none =>
      rw [hselect] at hchoice
      rcases hchoice with hnone | ⟨i, hi, -⟩
      · rw [hnone]
        rfl
      · cases hi
    | some i =>
      simp only
      by_cases hclip : clip venues s i ≤ qtyEpsilon
      · have hskipped := shallow_skipVenue hused (shallow_of_clip hremaining hclip)
        have hleft := (venuesLeft_update (selectBestVenue_some hselect).1).trans_le hfuel
        rw [if_pos hclip]
        exact @ih (skipVenue s i) hchildren hremaining hskipped (Nat.lt_succ_iff.mp hleft)
          (selectBestVenue_shallow hskipped)
      · rw [hselect] at hchoice
        rcases hchoice with hsame | ⟨j, hj, hshallow⟩
        · rw [if_neg hclip, hsame]
          split_ifs <;> rfl
        · obtain rfl : i = j := Option.some_injective _ hj
          exact absurd ((min_le_right _ _).trans (of_decide_eq_true hshallow)) hclip

/-- **The other styles pick one venue** at most. -/
theorem length_picks_of_not_sweep (hstyle : style ≠ .sweep) {fuel : ℕ} {s : ScheduleState} :
    (cfg.picks side style shortfall venues fuel s).length ≤ 1 := by
  induction fuel generalizing s with
  | zero => exact Nat.zero_le 1
  | succ fuel ih =>
    rw [picks]
    split_ifs
    · exact Nat.zero_le 1
    · cases selectBestVenue s.used shortfall venues with
      | none => exact Nat.zero_le 1
      | some i =>
        simp only
        split_ifs
        · exact ih
        · exact le_rfl

/-- **The other styles take one venue**: the cheapest that is not too shallow. -/
theorem picks_of_not_sweep (hstyle : style ≠ .sweep) {fuel : ℕ} {s : ScheduleState}
    (hchildren : s.children = []) (hremaining : qtyEpsilon < s.remaining)
    (hused : ∀ i, s.used i = true → shallow venues i = true) (hfuel : venuesLeft s.used ≤ fuel) :
    cfg.picks side style shortfall venues fuel s =
      ((selectBestVenue (shallow venues) shortfall venues).map fun i =>
        (i, min s.remaining (venues i).depthQty)).toList := by
  rw [← @head_picks cfg side style shortfall venues fuel s hchildren hremaining hused hfuel]
  have hlength := @length_picks_of_not_sweep cfg side style shortfall venues hstyle fuel s
  match hpicks : cfg.picks side style shortfall venues fuel s with
  | [] => rfl
  | [p] => rfl
  | p :: q :: l => simp [hpicks] at hlength

/-! ## What a plan is given -/

variable {memory : SchedulerMemory} {plan : ParentExecutionPlan} {horizonTicks inventoryAgeMs : ℤ}

/-- The children of a decision are those of the loop, which runs for a plan with a rest and a
price. -/
theorem children_schedule :
    (cfg.schedule memory plan horizonTicks inventoryAgeMs venues).children =
      if plan.active = true ∧ 0 < plan.remainingQty ∧
          0 < (cfg.styleAndPrice plan horizonTicks venues).2 then
        (cfg.scheduleLoop plan.side (cfg.styleAndPrice plan horizonTicks venues).1
          (cfg.shortfallOf memory plan horizonTicks inventoryAgeMs venues) venues
          SmartOrderRouter.maxVenues { remaining := plan.remainingQty }).children
      else [] := by
  simp only [schedule]
  generalize cfg.scheduleLoop plan.side _ _ venues _ _ = s
  cases hactive : plan.active with
  | false => simp
  | true =>
    by_cases hremaining : plan.remainingQty ≤ 0
    · simp [hremaining, not_lt.mpr hremaining]
    · by_cases hprice : (cfg.styleAndPrice plan horizonTicks venues).2 ≤ 0
      · simp [hremaining, hprice, not_lt.mpr hprice]
      · simp only [hremaining, hprice, not_le.mp hremaining, not_le.mp hprice, Bool.not_true,
          decide_false, Bool.or_self, Bool.false_eq_true, if_false, and_self, if_true]
        split_ifs <;> rfl

/-- **A plan is never given more than remains of it**, and each child a part of it. -/
theorem quantity_schedule_le (hremaining : 0 ≤ plan.remainingQty) :
    let children := (cfg.schedule memory plan horizonTicks inventoryAgeMs venues).children
    totalQuantity children ≤ plan.remainingQty ∧ ∀ child ∈ children, 0 < child.quantity := by
  have hallots := @Allots.scheduleLoop cfg plan.side (cfg.styleAndPrice plan horizonTicks venues).1
    (cfg.shortfallOf memory plan horizonTicks inventoryAgeMs venues) venues plan.remainingQty
    SmartOrderRouter.maxVenues { remaining := plan.remainingQty }
    ⟨zero_add _, hremaining, fun child hchild => by cases hchild⟩
  intro children
  simp only [children, children_schedule]
  split_ifs
  · exact ⟨hallots.total_le, hallots.quantity_pos⟩
  · exact ⟨hremaining, fun child hchild => by cases hchild⟩

/-- **Without a sweep all that is offered is given**. -/
theorem priced_schedule_eq_offered (hactive : plan.active = true)
    (hremaining : qtyEpsilon < plan.remainingQty)
    (hstyle : cfg.chooseStyle plan horizonTicks ≠ .sweep) :
    totalQuantity (pricedChildren
        (cfg.schedule memory plan horizonTicks inventoryAgeMs venues).children) =
      cfg.offered memory plan horizonTicks inventoryAgeMs venues := by
  have hpos : 0 < plan.remainingQty := qtyEpsilon_pos.trans hremaining
  have hpicks := @picks_of_not_sweep cfg plan.side (cfg.chooseStyle plan horizonTicks)
    (cfg.shortfallOf memory plan horizonTicks inventoryAgeMs venues) venues hstyle
    SmartOrderRouter.maxVenues { remaining := plan.remainingQty } rfl hremaining
    (fun i hi => by cases hi) (venuesLeft_le _)
  rw [children_schedule, offered]
  by_cases hprice : (cfg.styleAndPrice plan horizonTicks venues).2 ≤ 0
  · simp [hprice, not_lt.mpr hprice]
  · simp only [hactive, hpos, not_le.mp hprice, hprice, and_self, if_true, if_false]
    simp only [styleAndPrice]
    rw [children_scheduleLoop, hpicks, depthFor, if_neg hstyle]
    cases selectBestVenue (shallow venues)
      (cfg.shortfallOf memory plan horizonTicks inventoryAgeMs venues) venues with
    | none => simp [hpos.le]
    | some i =>
      simp only [Option.map_some, Option.toList_some, List.map_singleton, List.nil_append,
        totalQuantity_pricedChildren_singleton, childOf]
      split_ifs
      · rfl
      · exact (min_eq_right hpos.le).symm

theorem depthFor_nonneg : 0 ≤ cfg.depthFor side style shortfall venues := by
  unfold depthFor
  split_ifs
  · exact Finset.sum_nonneg fun i _ => sweepable_depth_nonneg (venues i)
  · cases hselect : selectBestVenue (shallow venues) shortfall venues with
    | none => exact le_rfl
    | some i =>
      simp only
      split_ifs
      · exact (selectBestVenue_some hselect).2.2.1.le
      · exact le_rfl

theorem offered_nonneg (hremaining : 0 ≤ plan.remainingQty) :
    0 ≤ cfg.offered memory plan horizonTicks inventoryAgeMs venues := by
  simp only [offered]
  split_ifs
  · exact le_rfl
  · exact le_min hremaining depthFor_nonneg

/-- A sweep gives no more than the depth of the venues. -/
theorem priced_scheduleLoop_le_depthFor {fuel : ℕ} (total : ℚ) :
    totalQuantity (pricedChildren
        (cfg.scheduleLoop side .sweep shortfall venues fuel { remaining := total }).children) ≤
      cfg.depthFor side .sweep shortfall venues := by
  have hstart : totalQuantity (pricedChildren ({ remaining := total } : ScheduleState).children) ≤
      takenDepth cfg side .sweep shortfall venues 
        ({ remaining := total } : ScheduleState).used := by
    simp [takenDepth]
  rw [depthFor, if_pos rfl]
  exact (pricedChildren_scheduleLoop_le_takenDepth hstart).trans (takenDepth_le _)

/-- **What a plan is given with a price is offered**. -/
theorem priced_schedule_le_offered (hactive : plan.active = true)
    (hremaining : qtyEpsilon < plan.remainingQty) :
    totalQuantity (pricedChildren
        (cfg.schedule memory plan horizonTicks inventoryAgeMs venues).children) ≤
      cfg.offered memory plan horizonTicks inventoryAgeMs venues := by
  have hpos : 0 < plan.remainingQty := qtyEpsilon_pos.trans hremaining
  by_cases hstyle : cfg.chooseStyle plan horizonTicks = .sweep
  · obtain ⟨hle, hquantity⟩ :=
      @quantity_schedule_le cfg venues memory plan horizonTicks inventoryAgeMs
      hpos.le
    have hremains := (totalQuantity_pricedChildren_le hquantity).trans hle
    rw [children_schedule] at hremains ⊢
    simp only [offered]
    by_cases hprice : (cfg.styleAndPrice plan horizonTicks venues).2 ≤ 0
    · simp [hprice, not_lt.mpr hprice]
    · simp only [hactive, hpos, not_le.mp hprice, hprice, and_self, if_true, if_false] at hremains ⊢
      refine le_min hremains ?_
      simp only [styleAndPrice, hstyle]
      exact priced_scheduleLoop_le_depthFor _
  · exact (priced_schedule_eq_offered hactive hremaining hstyle).le

end ChildOrderScheduler

end TradingInfrastructure
