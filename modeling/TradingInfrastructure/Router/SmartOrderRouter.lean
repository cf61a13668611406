import TradingInfrastructure.Common.Types
import TradingInfrastructure.Foundations.FirstMinimum

/-!
# The cost of a venue

The quotes of `core/execution/router/smart_order_router.hpp`, the cost that the router and the
scheduler give to a venue, and the router itself. The four quotes are an array, so a function of
their index.

A `RoutingRegime` that the code declares has no initializer, and `infer_regime` leaves it as it was
found in memory when no rule applies. Nor has the number of children of a `RoutingDecision`. That
memory is an argument.
-/

namespace TradingInfrastructure

/-- `VenueQuote`. -/
structure VenueQuote where
  exchange : Exchange := .binance
  bestBid : ℚ := 0
  bestAsk : ℚ := 0
  depthQty : ℚ := 0
  takerFeeBps : ℚ := 0
  latencyPenaltyBps : ℚ := 0
  riskPenaltyBps : ℚ := 0
  fillProbability : ℚ := 0
  queueAheadQty : ℚ := 0
  toxicityBps : ℚ := 0
  healthy : Bool := false
  enabled : Bool := false
  adaptiveFillProbability : ℚ := 0
  passiveMarkoutBps : ℚ := 0
  takerMarkoutBps : ℚ := 0
  rejectRate : ℚ := 0
  cancelLatencyPenaltyBps : ℚ := 0
  healthPenaltyBps : ℚ := 0
  stabilityPenaltyBps : ℚ := 0
  qualityPenaltyBps : ℚ := 0
  deriving DecidableEq

/-- `RoutingRegime`. -/
structure RoutingRegime where
  fillWeightBps : ℚ
  queueWeightBps : ℚ
  toxicityWeight : ℚ
  deriving DecidableEq

/-- `SmartOrderRouterConfig`. -/
structure SmartOrderRouterConfig where
  highToxicityThreshold : ℚ
  lowFillThreshold : ℚ
  highFillThreshold : ℚ
  highToxicity : RoutingRegime
  lowFill : RoutingRegime
  highFill : RoutingRegime
  minFillProbability : ℚ
  deriving DecidableEq

/-- `ChildOrder`. -/
structure ChildOrder where
  exchange : Exchange
  quantity : ℚ
  limitPrice : ℚ
  tif : TimeInForce
  deriving DecidableEq

/-- `RoutingDecision`. -/
structure RoutingDecision where
  children : List ChildOrder
  childCount : ℕ
  blockedByAlpha : Bool
  deriving DecidableEq

/-- What memory holds where the router does not initialize it. -/
structure RouterMemory where
  childCount : ℕ
  blockedByAlpha : Bool
  regime : RoutingRegime
  deriving DecidableEq

namespace RoutingDecision

/-- A decision as it is declared: only the array of children has an initializer. -/
def found (memory : RouterMemory) : RoutingDecision where
  children := List.replicate 8 ⟨.binance, 0, 0, .gtc⟩
  childCount := memory.childCount
  blockedByAlpha := memory.blockedByAlpha

/-- `out.children[out.child_count++] = child`. -/
def push (out : RoutingDecision) (child : ChildOrder) : RoutingDecision :=
  { out with
    children := out.children.set out.childCount child
    childCount := out.childCount + 1 }

/-- The children in use. -/
def orders (out : RoutingDecision) : List ChildOrder := out.children.take out.childCount

end RoutingDecision

/-- The four quotes. -/
abbrev VenueQuotes := Fin 4 → VenueQuote

namespace SmartOrderRouter

/-- `MAX_VENUES`. -/
def maxVenues : ℕ := 4

/-- `k_infinite_price`. -/
def infinitePrice : ℚ := 10 ^ 18

/-- `quote_price_for_side`. -/
def quotePriceForSide (v : VenueQuote) (side : Side) : ℚ :=
  match side with
  | .bid => v.bestAsk
  | .ask => v.bestBid

/-- The fill probability that counts: the adaptive one, unless it is negative. -/
def effectiveFillProbability (v : VenueQuote) : ℚ :=
  if v.adaptiveFillProbability ≥ 0 then v.adaptiveFillProbability else v.fillProbability

/-- `effective_price_bps`. -/
def effectivePriceBps (v : VenueQuote) (side : Side) : ℚ :=
  if quotePriceForSide v side ≤ 0 then 10 ^ 12
  else v.takerFeeBps + v.latencyPenaltyBps + v.riskPenaltyBps

/-- `infer_regime`. -/
def inferRegime (memory : RoutingRegime) (venues : VenueQuotes) (cfg : SmartOrderRouterConfig) :
    RoutingRegime :=
  let healthy := ((List.finRange 4).map venues).filter (·.healthy)
  let count : ℚ := healthy.length
  let avgToxicity := (healthy.map (·.toxicityBps)).sum / count
  let avgFill := (healthy.map effectiveFillProbability).sum / count
  if count ≤ 0 then memory
  else if avgToxicity ≥ cfg.highToxicityThreshold then cfg.highToxicity
  else if avgFill < cfg.lowFillThreshold then cfg.lowFill
  else if avgFill > cfg.highFillThreshold then cfg.highFill
  else memory

/-- A rule of `infer_regime` sets the regime. -/
def SetsRegime (venues : VenueQuotes) (cfg : SmartOrderRouterConfig) : Prop :=
  let healthy := ((List.finRange 4).map venues).filter (·.healthy)
  let count : ℚ := healthy.length
  let avgToxicity := (healthy.map (·.toxicityBps)).sum / count
  let avgFill := (healthy.map effectiveFillProbability).sum / count
  0 < count ∧ (avgToxicity ≥ cfg.highToxicityThreshold ∨ avgFill < cfg.lowFillThreshold ∨
    avgFill > cfg.highFillThreshold)

/-- `score_venue_bps`. -/
def scoreVenueBps (v : VenueQuote) (side : Side) (regime : RoutingRegime)
    (minFillProbability : ℚ) : ℚ :=
  let clippedFill := max minFillProbability (effectiveFillProbability v)
  effectivePriceBps v side + regime.fillWeightBps * (1 - clippedFill) +
    regime.queueWeightBps * v.queueAheadQty + regime.toxicityWeight * v.toxicityBps +
    v.takerMarkoutBps + v.qualityPenaltyBps

/-- `expected_shortfall_bps`. -/
def expectedShortfallBps (v : VenueQuote) (side : Side) (regime : RoutingRegime)
    (bestPx inventoryAgePenaltyBps minFillProbability : ℚ) : ℚ :=
  let quotePx := quotePriceForSide v side
  if quotePx ≤ 0 ∨ bestPx ≤ 0 then infinitePrice
  else
    let pricePenaltyBps :=
      match side with
      | .bid => (quotePx - bestPx) / bestPx * 10000
      | .ask => (bestPx - quotePx) / bestPx * 10000
    scoreVenueBps v side regime minFillProbability + pricePenaltyBps + inventoryAgePenaltyBps

/-- `k_missing_best_price`. -/
def missingBestPrice : ℚ := 10 ^ 17

/-- `k_min_remaining_qty`. -/
def minRemainingQty : ℚ := 1 / 10 ^ 12

/-- A quote that counts for the best price of the side taken. -/
def quoted (side : Side) (v : VenueQuote) : Bool :=
  v.healthy && decide (0 < v.depthQty) && decide (0 < quotePriceForSide v side)

/-- The better of two prices to take, the first of them if they are equal. -/
def betterPrice (side : Side) (best px : ℚ) : ℚ :=
  match side with
  | .bid => if px < best then px else best
  | .ask => if px > best then px else best

/-- The scan of `find_best_price` at one quote. -/
def bestPriceStep (side : Side) (best : Option ℚ) (v : VenueQuote) : Option ℚ :=
  if quoted side v then some (best.elim (quotePriceForSide v side)
    fun best => betterPrice side best (quotePriceForSide v side))
  else best

/-- `find_best_price`. -/
def findBestPrice (side : Side) (venues : VenueQuotes) : ℚ :=
  (((List.finRange 4).map venues).foldl (bestPriceStep side) none).getD infinitePrice

/-- `find_best_venue_index`: the first of the cheapest venues that are left. -/
def findBestVenueIndex (venues : VenueQuotes) (used : Fin 4 → Bool) (side : Side)
    (regime : RoutingRegime) (bestPx minFillProbability : ℚ) : Option (Fin 4) :=
  firstMin (fun i => !used i && (venues i).healthy && decide (0 < (venues i).depthQty))
    (fun i => expectedShortfallBps (venues i) side regime bestPx 0 minFillProbability)
    infinitePrice (List.finRange 4)

/-- What the turns of `route` share. -/
structure RouteState where
  used : Fin 4 → Bool := fun _ => false
  remaining : ℚ
  out : RoutingDecision

/-- `append_child_order`. -/
def appendChildOrder (side : Side) (venues : VenueQuotes) (s : RouteState) (i : Fin 4) :
    RouteState :=
  let winner := venues i
  let clip := if s.remaining < winner.depthQty then s.remaining else winner.depthQty
  let child : ChildOrder := ⟨winner.exchange, clip, quotePriceForSide winner side, .ioc⟩
  { used := Function.update s.used i true
    remaining := s.remaining - clip
    out := s.out.push child }

/-- The loop of `route`, for so many turns at most. -/
def routeLoop (side : Side) (regime : RoutingRegime) (bestPx minFillProbability : ℚ)
    (venues : VenueQuotes) : ℕ → RouteState → RouteState
  | 0, s => s
  | fuel + 1, s =>
    if s.remaining ≤ minRemainingQty ∨ s.out.childCount ≥ s.out.children.length then s
    else
      match findBestVenueIndex venues s.used side regime bestPx minFillProbability with
      | none => s
      | some i =>
        routeLoop side regime bestPx minFillProbability venues fuel
          (appendChildOrder side venues s i)

/-- `route`: a turn takes a venue, so four turns are enough. -/
def route (memory : RouterMemory) (side : Side) (quantity : ℚ) (venues : VenueQuotes)
    (cfg : SmartOrderRouterConfig) : RoutingDecision :=
  let out := RoutingDecision.found memory
  let regime := inferRegime memory.regime venues cfg
  let bestPx := findBestPrice side venues
  if bestPx ≥ missingBestPrice then out
  else
    (routeLoop side regime bestPx cfg.minFillProbability venues maxVenues
      { remaining := quantity, out := out }).out

/-- **A regime that a rule sets** does not depend on memory. -/
theorem inferRegime_congr {m n : RoutingRegime} {venues : VenueQuotes}
    {cfg : SmartOrderRouterConfig} (h : SetsRegime venues cfg ∨ m = n) :
    inferRegime m venues cfg = inferRegime n venues cfg := by
  rcases h with h | rfl
  · obtain ⟨hcount, hrule⟩ := h
    simp only [inferRegime, not_le.mpr hcount, if_false]
    split_ifs with htoxic hlow hhigh
    · rfl
    · rfl
    · rfl
    · rcases hrule with h | h | h
      · exact absurd h htoxic
      · exact absurd h hlow
      · exact absurd h hhigh
  · rfl

end SmartOrderRouter

end TradingInfrastructure
