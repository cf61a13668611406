import TradingInfrastructure.Router.ParentOrderManager
import TradingInfrastructure.Router.SmartOrderRouter

/-!
# The portfolio intent

`core/execution/common/portfolio/portfolio_intent_engine.hpp`: the signal, the regime, the position
and the quotes become a target and an urgency.

A `PortfolioIntent` that the code declares has no initializers for most of its fields, and an early
exit leaves the target as it was found in memory. That memory is an argument.
-/

namespace TradingInfrastructure

/-- `PortfolioIntentReasonCode`. -/
inductive PortfolioIntentReasonCode
  | none | alphaPositive | alphaNegative | alphaDecay | negativeReversal | positiveReversal
  | riskOff | shockRegime | illiquidRegime | staleInventory | staleSignal | basisTooWide
  | healthDegraded | noHealthyVenues
  deriving DecidableEq, Inhabited, Repr

/-- `AlphaSignal`. -/
structure AlphaSignal where
  signalBps : ℚ
  riskScore : ℚ
  sizeFraction : ℚ
  horizonTicks : ℤ
  deriving DecidableEq

/-- `RegimeSignal`. -/
structure RegimeSignal where
  pShock : ℚ
  pIlliquid : ℚ
  deriving DecidableEq

/-- What the engine reads of a `PositionLedgerSnapshot`. -/
structure PositionLedgerSnapshot where
  globalPosition : ℚ
  oldestInventoryAgeMs : ℤ
  deriving DecidableEq

/-- `PortfolioIntentConfig`. -/
structure PortfolioIntentConfig where
  maxPosition : ℚ
  minEntrySignalBps : ℚ
  negativeReversalSignalBps : ℚ
  positiveReversalSignalBps : ℚ
  deadbandSignalBps : ℚ
  maxRiskScore : ℚ
  shockEnterThreshold : ℚ
  shockExitThreshold : ℚ
  illiquidEnterThreshold : ℚ
  illiquidExitThreshold : ℚ
  regimePersistenceTicks : ℤ
  staleInventoryMs : ℤ
  staleSignalMs : ℤ
  maxBasisDivergenceBps : ℚ
  staleInventoryAlphaHoldBps : ℚ
  healthReduceRatio : ℚ
  deriving DecidableEq

/-- `PortfolioIntentContext`. -/
structure PortfolioIntentContext where
  spotMidPrice : ℚ := 0
  futuresMidPrice : ℚ := 0
  signalAgeMs : ℤ := 0
  deriving DecidableEq

/-- `PortfolioIntent`, with the reason codes in use. -/
structure PortfolioIntent where
  targetGlobalPosition : ℚ
  positionDelta : ℚ
  urgency : ShadowUrgency
  flattenNow : Bool
  maxShortfallBps : ℚ
  expectedCostBps : ℚ
  basisSlippageBps : ℚ
  alphaEdgeBps : ℚ
  reasonCodes : List PortfolioIntentReasonCode := []
  deriving DecidableEq

/-- What `evaluate` is given. -/
structure IntentInputs where
  alphaSignal : AlphaSignal
  regimeSignal : RegimeSignal
  ledger : PositionLedgerSnapshot
  venues : VenueQuotes
  ctx : PortfolioIntentContext

/-- `PortfolioIntentEngine`. -/
structure PortfolioIntentEngine where
  cfg : PortfolioIntentConfig
  illiquidRegimeActive : Bool := false
  illiquidTicks : ℤ := 0
  shockRegimeActive : Bool := false
  shockTicks : ℤ := 0
  deriving DecidableEq

/-! ## The helpers -/

/-- `_update_regime_hysteresis`: whether the regime is active, and its ticks. -/
def updateRegimeHysteresis (p enterThresh exitThresh : ℚ) (persistence : ℤ) (active : Bool)
    (ticks : ℤ) : Bool × ℤ :=
  if !active then
    let ticks := if p ≥ enterThresh then ticks + 1 else 0
    if ticks ≥ persistence then (true, 0) else (false, ticks)
  else
    let ticks := if p < exitThresh then ticks + 1 else 0
    if ticks ≥ persistence then (false, 0) else (true, ticks)

/-- The cost of a venue, as far as the engine is concerned. -/
def VenueQuote.costBps (venue : VenueQuote) : ℚ :=
  venue.takerFeeBps + venue.latencyPenaltyBps + venue.riskPenaltyBps + venue.toxicityBps +
    max 0 (1 - venue.fillProbability) * 2

/-- `estimate_expected_cost_bps`: the least cost of a healthy venue with depth, or zero. -/
def estimateExpectedCostBps (venues : VenueQuotes) : ℚ :=
  (((List.finRange 4).map venues).foldl (fun best venue =>
    if !venue.healthy ∨ venue.depthQty ≤ 0 then best
    else
      match best with
      | none => some venue.costBps
      | some cost => if venue.costBps < cost then some venue.costBps else best) none).getD 0

/-- `compute_basis_bps`. -/
def computeBasisBps (spotMid futuresMid : ℚ) : ℚ :=
  if spotMid ≤ 0 ∨ futuresMid ≤ 0 then 0 else |futuresMid - spotMid| / spotMid * 10000

/-- `count_healthy_venues`. -/
def countHealthyVenues (venues : VenueQuotes) : ℕ :=
  ((List.finRange 4).map venues).countP fun venue =>
    venue.enabled && venue.healthy && decide (venue.depthQty > 0)

/-- `count_enabled_venues`. -/
def countEnabledVenues (venues : VenueQuotes) : ℕ :=
  ((List.finRange 4).map venues).countP (·.enabled)

/-- `append_reason`, for at most eight reasons. -/
def PortfolioIntent.appendReason (intent : PortfolioIntent) (code : PortfolioIntentReasonCode) :
    PortfolioIntent :=
  if code = .none ∨ code ∈ intent.reasonCodes then intent
  else if intent.reasonCodes.length < 8 then
    { intent with reasonCodes := intent.reasonCodes ++ [code] }
  else intent

/-- A reason that is appended when it applies. -/
def PortfolioIntent.appendReasonIf (intent : PortfolioIntent)
    (reason : Bool × PortfolioIntentReasonCode) : PortfolioIntent :=
  if reason.1 then intent.appendReason reason.2 else intent

/-- `clamp_position`. -/
def PortfolioIntentConfig.clampPosition (cfg : PortfolioIntentConfig) (position : ℚ) : ℚ :=
  clamp position (-cfg.maxPosition) cfg.maxPosition

/-- `clamp_reduce_target`. -/
def clampReduceTarget (current target : ℚ) : ℚ :=
  if |current| ≤ 1 / 10 ^ 9 then target
  else if (current > 0 ∧ target < 0) ∨ (current < 0 ∧ target > 0) then 0
  else if |target| > |current| then current * (1 / 2) else target

/-- `urgency_buffer_bps`. -/
def urgencyBufferBps (alphaSignal : AlphaSignal) (positionDelta : ℚ) : ℚ :=
  if alphaSignal.horizonTicks ≤ 2 ∨ |positionDelta| ≥ 3 / 10 then 1
  else if alphaSignal.horizonTicks ≥ 8 ∧ |positionDelta| ≤ 1 / 10 then 3
  else 2

/-- `choose_urgency`. -/
def chooseUrgency (alphaSignal : AlphaSignal) (currentPosition targetPosition : ℚ)
    (staleInventory : Bool) (healthyVenues : ℕ) : ShadowUrgency :=
  let delta := |targetPosition - currentPosition|
  if staleInventory = true ∨ healthyVenues ≤ 1 ∨ alphaSignal.horizonTicks ≤ 2 ∨ delta ≥ 3 / 10 ∨
      alphaSignal.riskScore ≥ 55 / 100 then .aggressive
  else if alphaSignal.horizonTicks ≥ 8 ∧ delta ≤ 1 / 10 ∧ alphaSignal.riskScore < 35 / 100 then
    .passive
  else .balanced

/-! ## What `evaluate` computes first -/

namespace IntentInputs

variable (x : IntentInputs) (cfg : PortfolioIntentConfig)

/-- `current_position`. -/
def currentPosition : ℚ := cfg.clampPosition x.ledger.globalPosition

/-- `expected_cost_bps`. -/
def expectedCostBps : ℚ := estimateExpectedCostBps x.venues

/-- `basis_slippage_bps`. -/
def basisSlippageBps : ℚ := computeBasisBps x.ctx.spotMidPrice x.ctx.futuresMidPrice

/-- `risk_off`. -/
def riskOff : Bool := decide (x.alphaSignal.riskScore ≥ cfg.maxRiskScore)

/-- `negative_reversal`, which does not ask for a position. -/
def negativeReversal : Bool := decide (x.alphaSignal.signalBps ≤ cfg.negativeReversalSignalBps)

/-- `positive_reversal`, for a short position. -/
def positiveReversal : Bool :=
  decide (x.currentPosition cfg < 0) &&
    decide (x.alphaSignal.signalBps ≥ cfg.positiveReversalSignalBps)

/-- `stale_inventory`. -/
def staleInventory : Bool :=
  decide (x.ledger.oldestInventoryAgeMs ≥ cfg.staleInventoryMs) &&
    decide (|x.currentPosition cfg| > 0)

/-- `stale_signal`. -/
def staleSignal : Bool :=
  decide (cfg.staleSignalMs > 0) && decide (x.ctx.signalAgeMs > cfg.staleSignalMs)

/-- `basis_too_wide`. -/
def basisTooWide : Bool :=
  decide (cfg.maxBasisDivergenceBps > 0) && decide (x.basisSlippageBps > cfg.maxBasisDivergenceBps)

/-- Some venue that is enabled is not healthy. -/
def healthDegraded : Bool :=
  decide (countEnabledVenues x.venues > 0) &&
    decide (countHealthyVenues x.venues < countEnabledVenues x.venues)

/-- `in_deadband`. -/
def inDeadband : Bool := decide (|x.alphaSignal.signalBps| ≤ cfg.deadbandSignalBps)

/-- `positive_entry`. -/
def positiveEntry : Bool :=
  !x.inDeadband cfg && decide (x.alphaSignal.signalBps ≥ cfg.minEntrySignalBps) &&
    decide (x.alphaSignal.signalBps > x.expectedCostBps)

/-- `negative_entry`. -/
def negativeEntry : Bool :=
  !x.inDeadband cfg && decide (x.alphaSignal.signalBps ≤ -cfg.minEntrySignalBps) &&
    decide (-x.alphaSignal.signalBps > x.expectedCostBps)

/-- `magnitude`. -/
def magnitude : ℚ :=
  let alphaScale :=
    clamp ((|x.alphaSignal.signalBps| - x.expectedCostBps) / max cfg.minEntrySignalBps 1) 0 1
  let riskScale := clamp (1 - x.alphaSignal.riskScore) 0 1
  let healthScale := if x.healthDegraded then cfg.healthReduceRatio else 1
  let regimeScale :=
    clamp (1 - (1 / 2 * x.regimeSignal.pIlliquid + 35 / 100 * x.regimeSignal.pShock)) 0 1
  cfg.maxPosition * clamp x.alphaSignal.sizeFraction 0 1 * alphaScale * riskScale * healthScale *
    regimeScale

/-- The target that the signal asks for, with its reason. -/
def entryTarget : ℚ × PortfolioIntentReasonCode :=
  if x.positiveEntry cfg then (x.magnitude cfg, .alphaPositive)
  else if x.negativeEntry cfg then (-x.magnitude cfg, .alphaNegative)
  else (0, .alphaDecay)

/-- `alpha_strong`. -/
def alphaStrong : Bool := decide (|x.alphaSignal.signalBps| ≥ cfg.staleInventoryAlphaHoldBps)

end IntentInputs

/-! ## `evaluate` -/

namespace PortfolioIntentEngine

variable (e : PortfolioIntentEngine) (memory : PortfolioIntent) (x : IntentInputs)

/-- Both regimes, updated. -/
def updateRegimes (regimeSignal : RegimeSignal) : PortfolioIntentEngine :=
  let illiquid := updateRegimeHysteresis regimeSignal.pIlliquid e.cfg.illiquidEnterThreshold
    e.cfg.illiquidExitThreshold e.cfg.regimePersistenceTicks e.illiquidRegimeActive e.illiquidTicks
  let shock := updateRegimeHysteresis regimeSignal.pShock e.cfg.shockEnterThreshold
    e.cfg.shockExitThreshold e.cfg.regimePersistenceTicks e.shockRegimeActive e.shockTicks
  { e with
    illiquidRegimeActive := illiquid.1, illiquidTicks := illiquid.2
    shockRegimeActive := shock.1, shockTicks := shock.2 }

/-- The condition of the exit for risk, a reversal, a shock, a stale signal or a wide basis. -/
def exits : Bool :=
  x.riskOff e.cfg || x.negativeReversal e.cfg || x.positiveReversal e.cfg || e.shockRegimeActive ||
    x.staleSignal e.cfg || x.basisTooWide e.cfg

/-- The reasons that are appended before that exit. -/
def reasons : List (Bool × PortfolioIntentReasonCode) :=
  [(x.riskOff e.cfg, .riskOff), (x.negativeReversal e.cfg, .negativeReversal),
    (x.positiveReversal e.cfg, .positiveReversal), (e.shockRegimeActive, .shockRegime),
    (e.illiquidRegimeActive, .illiquidRegime), (x.staleInventory e.cfg, .staleInventory),
    (x.staleSignal e.cfg, .staleSignal), (x.basisTooWide e.cfg, .basisTooWide),
    (x.healthDegraded, .healthDegraded)]

/-- What is set before the first exit. -/
def started : PortfolioIntent :=
  { memory with
    expectedCostBps := x.expectedCostBps
    basisSlippageBps := x.basisSlippageBps
    alphaEdgeBps := x.alphaSignal.signalBps - x.expectedCostBps
    reasonCodes := [] }

/-- An exit, which leaves the target as it is. -/
def flatten (out : PortfolioIntent) (shortfallBps : ℚ) : PortfolioIntent :=
  { out with
    flattenNow := decide (|x.currentPosition e.cfg| > 0)
    maxShortfallBps := x.expectedCostBps + shortfallBps
    urgency := .aggressive
    positionDelta := -x.currentPosition e.cfg }

/-- The target, before it is clamped. -/
def wanted : ℚ :=
  if e.illiquidRegimeActive || (x.staleInventory e.cfg && !x.alphaStrong e.cfg) then
    clampReduceTarget (x.currentPosition e.cfg) (x.entryTarget e.cfg).1
  else (x.entryTarget e.cfg).1

/-- The last part of `evaluate`. -/
def settle (out : PortfolioIntent) : PortfolioIntent :=
  let current := x.currentPosition e.cfg
  let target := e.cfg.clampPosition (e.wanted x)
  let delta := target - current
  { out with
    targetGlobalPosition := target
    positionDelta := delta
    maxShortfallBps := x.expectedCostBps + urgencyBufferBps x.alphaSignal delta
    urgency := chooseUrgency x.alphaSignal current target (x.staleInventory e.cfg)
      (countHealthyVenues x.venues)
    flattenNow := decide (|target| ≤ 1 / 10 ^ 9) && decide (|current| > 1 / 10 ^ 9) &&
      decide (|delta| > 1 / 10 ^ 9) }

/-- The intent, once the regimes are updated. -/
def intent : PortfolioIntent :=
  let out := started memory x
  if countHealthyVenues x.venues = 0 then e.flatten x (out.appendReason .noHealthyVenues) 3
  else
    let out := (e.reasons x).foldl PortfolioIntent.appendReasonIf out
    if e.exits x then e.flatten x out (5 / 2)
    else e.settle x (out.appendReason (x.entryTarget e.cfg).2)

/-- `evaluate`. -/
def evaluate : PortfolioIntentEngine × PortfolioIntent :=
  (e.updateRegimes x.regimeSignal, (e.updateRegimes x.regimeSignal).intent memory x)

end PortfolioIntentEngine

end TradingInfrastructure
