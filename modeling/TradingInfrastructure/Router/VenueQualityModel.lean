import TradingInfrastructure.Router.SmartOrderRouter

/-!
# The quality of a venue

The model of `core/execution/common/quality/venue_quality_model.hpp`: six components for each
venue, smoothed over what is observed of it, and the snapshot that decorates its quotes. The four
states are an array, so a function of the index.

The scales of the passive and of the taker markout are read nowhere and left out.
-/

namespace TradingInfrastructure

/-- `VenueQualitySnapshot`. -/
structure VenueQualitySnapshot where
  exchange : Exchange := .unknown
  fillProbability : ℚ := 1 / 2
  passiveMarkoutBps : ℚ := 0
  takerMarkoutBps : ℚ := 0
  rejectRate : ℚ := 0
  cancelLatencyPenaltyBps : ℚ := 0
  healthPenaltyBps : ℚ := 0
  stabilityPenaltyBps : ℚ := 0
  compositePenaltyBps : ℚ := 0
  compositeFillProbability : ℚ := 1 / 2
  sampleCount : UInt64 := 0
  deriving DecidableEq

/-- `VenueQualityModel::Config`. -/
structure VenueQualityConfig where
  minFillProbability : ℚ := 10 / 100
  maxFillProbability : ℚ := 98 / 100
  fillProbabilityAlpha : ℚ := 18 / 100
  markoutAlpha : ℚ := 12 / 100
  rejectRateAlpha : ℚ := 10 / 100
  cancelLatencyAlpha : ℚ := 15 / 100
  healthAlpha : ℚ := 20 / 100
  maxFillStep : ℚ := 8 / 100
  maxMarkoutStepBps : ℚ := 40 / 100
  maxRejectStep : ℚ := 6 / 100
  maxCancelLatencyStepBps : ℚ := 35 / 100
  maxHealthStepBps : ℚ := 50 / 100
  rejectRatePenaltyBps : ℚ := 6
  cancelLatencyPenaltyScaleBps : ℚ := 3
  healthPenaltyScaleBps : ℚ := 8
  stabilityPenaltyScale : ℚ := 75 / 100
  deriving DecidableEq

/-- `VenueQualityModel::VenueState`. -/
structure VenueQualityState where
  fillProbability : ℚ := 1 / 2
  passiveMarkoutBps : ℚ := 0
  takerMarkoutBps : ℚ := 0
  rejectRate : ℚ := 0
  cancelLatencyPenaltyBps : ℚ := 0
  healthPenaltyBps : ℚ := 0
  snapshot : VenueQualitySnapshot := {}
  sampleCount : UInt64 := 0
  deriving DecidableEq

/-- `VenueQualityModel`. -/
structure VenueQualityModel where
  cfg : VenueQualityConfig
  states : ℕ → VenueQualityState := fun _ => {}

/-- `update_clamped`, the value it leaves. -/
def updateClamped (value sample alpha maxStep minValue maxValue : ℚ) : ℚ :=
  let delta := clamp (alpha * (sample - value)) (-maxStep) maxStep
  clamp (value + delta) minValue maxValue

/-- `refresh_snapshot`. -/
def VenueQualityConfig.refreshSnapshot (cfg : VenueQualityConfig) (state : VenueQualityState)
    (exchange : Exchange) : VenueQualityState :=
  let rejectPenalty := state.rejectRate * cfg.rejectRatePenaltyBps
  let cancelPenalty := state.cancelLatencyPenaltyBps * cfg.cancelLatencyPenaltyScaleBps
  let healthPenalty := state.healthPenaltyBps * cfg.healthPenaltyScaleBps
  let stabilityPenalty :=
    |state.passiveMarkoutBps - state.takerMarkoutBps| * cfg.stabilityPenaltyScale
  let fillDrag := clamp (1 - state.fillProbability) 0 1
  let compositeFillProbability :=
    clamp (state.fillProbability * (1 - 35 / 100 * state.rejectRate) *
      (1 - 15 / 100 * state.healthPenaltyBps)) cfg.minFillProbability cfg.maxFillProbability
  { state with
    snapshot :=
      { exchange := exchange
        fillProbability := state.fillProbability
        passiveMarkoutBps := state.passiveMarkoutBps
        takerMarkoutBps := state.takerMarkoutBps
        rejectRate := state.rejectRate
        cancelLatencyPenaltyBps := cancelPenalty
        healthPenaltyBps := healthPenalty
        stabilityPenaltyBps := stabilityPenalty
        compositePenaltyBps :=
          rejectPenalty + cancelPenalty + healthPenalty + fillDrag * 4 + stabilityPenalty
        compositeFillProbability := compositeFillProbability
        sampleCount := state.sampleCount } }

namespace VenueQualityModel

/-- `index_for`. -/
def indexFor : Exchange → ℕ
  | .binance => 0
  | .okx => 1
  | .coinbase => 2
  | .kraken => 3
  | .unknown => 0

/-- `state_for`. -/
def stateFor (m : VenueQualityModel) (exchange : Exchange) : VenueQualityState :=
  m.states (indexFor exchange)

/-- What an observation does: it updates the state of the venue and refreshes its snapshot. -/
def observe (m : VenueQualityModel) (exchange : Exchange)
    (update : VenueQualityState → VenueQualityState) : VenueQualityModel :=
  { m with
    states := Function.update m.states (indexFor exchange)
      (m.cfg.refreshSnapshot (update (m.stateFor exchange)) exchange) }

/-- `observe_fill_probability`. -/
def observeFillProbability (m : VenueQualityModel) (exchange : Exchange)
    (realizedFillProbability : ℚ) : VenueQualityModel :=
  m.observe exchange fun state =>
    { state with
      fillProbability :=
        updateClamped state.fillProbability realizedFillProbability m.cfg.fillProbabilityAlpha
          m.cfg.maxFillStep m.cfg.minFillProbability m.cfg.maxFillProbability
      sampleCount := state.sampleCount + 1 }

/-- `observe_markout`. -/
def observeMarkout (m : VenueQualityModel) (exchange : Exchange) (passive : Bool)
    (markoutBps : ℚ) : VenueQualityModel :=
  m.observe exchange fun state =>
    if passive then
      { state with
        passiveMarkoutBps :=
          updateClamped state.passiveMarkoutBps markoutBps m.cfg.markoutAlpha
            m.cfg.maxMarkoutStepBps (-10) 10
        sampleCount := state.sampleCount + 1 }
    else
      { state with
        takerMarkoutBps :=
          updateClamped state.takerMarkoutBps markoutBps m.cfg.markoutAlpha
            m.cfg.maxMarkoutStepBps (-10) 10
        sampleCount := state.sampleCount + 1 }

/-- `observe_reject`. -/
def observeReject (m : VenueQualityModel) (exchange : Exchange) (rejected : Bool) :
    VenueQualityModel :=
  m.observe exchange fun state =>
    { state with
      rejectRate :=
        updateClamped state.rejectRate (if rejected then 1 else 0) m.cfg.rejectRateAlpha
          m.cfg.maxRejectStep 0 1
      sampleCount := state.sampleCount + 1 }

/-- `observe_cancel_latency`, the latency in microseconds. -/
def observeCancelLatency (m : VenueQualityModel) (exchange : Exchange) (latency : ℤ) :
    VenueQualityModel :=
  let ms := max 0 ((latency : ℚ) / 1000)
  let normalizedPenalty := clamp (ms / 10) 0 5
  m.observe exchange fun state =>
    { state with
      cancelLatencyPenaltyBps :=
        updateClamped state.cancelLatencyPenaltyBps normalizedPenalty m.cfg.cancelLatencyAlpha
          m.cfg.maxCancelLatencyStepBps 0 5
      sampleCount := state.sampleCount + 1 }

/-- `observe_health`. It counts no sample. -/
def observeHealth (m : VenueQualityModel) (exchange : Exchange) (healthy : Bool) :
    VenueQualityModel :=
  m.observe exchange fun state =>
    { state with
      healthPenaltyBps :=
        updateClamped state.healthPenaltyBps (if healthy then 0 else 1) m.cfg.healthAlpha
          (m.cfg.maxHealthStepBps / max 1 m.cfg.healthPenaltyScaleBps) 0 1 }

/-- `snapshot`. -/
def snapshot (m : VenueQualityModel) (exchange : Exchange) : VenueQualitySnapshot :=
  (m.stateFor exchange).snapshot

/-- `apply` on one quote. -/
def apply (m : VenueQualityModel) (venue : VenueQuote) : VenueQuote :=
  if venue.exchange = .unknown then venue
  else
    let snap := m.snapshot venue.exchange
    { venue with
      adaptiveFillProbability := snap.compositeFillProbability
      passiveMarkoutBps := snap.passiveMarkoutBps
      takerMarkoutBps := snap.takerMarkoutBps
      rejectRate := snap.rejectRate
      cancelLatencyPenaltyBps := snap.cancelLatencyPenaltyBps
      healthPenaltyBps := snap.healthPenaltyBps
      stabilityPenaltyBps := snap.stabilityPenaltyBps
      qualityPenaltyBps := snap.compositePenaltyBps }

end VenueQualityModel

end TradingInfrastructure
