import Mathlib.Tactic
import TradingInfrastructure.Foundations.Runs
import TradingInfrastructure.Foundations.Smoothing
import TradingInfrastructure.Router.VenueQualityModel

/-!
# The quality of a venue stays in its bounds

An observation smooths one component of a venue (`get_take_self`, `get_take_of_ne`). With shares
between zero and one and steps and scales that are not negative, every component stays in its
range, and the penalty that they make up is between zero and the sum of what they can come to
(`bounded_run`).
-/

namespace TradingInfrastructure

/-- What is smoothed of a venue. -/
inductive QualityComponent
  | fillProbability | passiveMarkout | takerMarkout | rejectRate | cancelLatency | health
  deriving DecidableEq

/-- What is observed of a venue. -/
inductive VenueObservation
  | fillProbability (realized : ℚ)
  | markout (passive : Bool) (bps : ℚ)
  | reject (rejected : Bool)
  | cancelLatency (micros : ℤ)
  | health (healthy : Bool)
  deriving DecidableEq

namespace VenueObservation

/-- The component that an observation is about. -/
def component : VenueObservation → QualityComponent
  | fillProbability _ => .fillProbability
  | markout passive _ => if passive then .passiveMarkout else .takerMarkout
  | reject _ => .rejectRate
  | cancelLatency _ => .cancelLatency
  | health _ => .health

/-- The sample that an observation is. -/
def sample : VenueObservation → ℚ
  | fillProbability realized => realized
  | markout _ bps => bps
  | reject rejected => if rejected then 1 else 0
  | cancelLatency micros => clamp (max 0 ((micros : ℚ) / 1000) / 10) 0 5
  | health healthy => if healthy then 0 else 1

end VenueObservation

namespace VenueQualityConfig

variable (cfg : VenueQualityConfig)

/-- The share of the distance to a sample that a component goes. -/
def alpha : QualityComponent → ℚ
  | .fillProbability => cfg.fillProbabilityAlpha
  | .passiveMarkout | .takerMarkout => cfg.markoutAlpha
  | .rejectRate => cfg.rejectRateAlpha
  | .cancelLatency => cfg.cancelLatencyAlpha
  | .health => cfg.healthAlpha

/-- The most that a component moves at once. -/
def maxStep : QualityComponent → ℚ
  | .fillProbability => cfg.maxFillStep
  | .passiveMarkout | .takerMarkout => cfg.maxMarkoutStepBps
  | .rejectRate => cfg.maxRejectStep
  | .cancelLatency => cfg.maxCancelLatencyStepBps
  | .health => cfg.maxHealthStepBps / max 1 cfg.healthPenaltyScaleBps

/-- The least that a component can be. -/
def least : QualityComponent → ℚ
  | .fillProbability => cfg.minFillProbability
  | .passiveMarkout | .takerMarkout => -10
  | .rejectRate | .cancelLatency | .health => 0

/-- The most that a component can be. -/
def most : QualityComponent → ℚ
  | .fillProbability => cfg.maxFillProbability
  | .passiveMarkout | .takerMarkout => 10
  | .rejectRate => 1
  | .cancelLatency => 5
  | .health => 1

/-- What the components can come to: of what does not fill, four basis points, and the two markouts
may be twenty apart. -/
def maxPenaltyBps : ℚ :=
  1 * cfg.rejectRatePenaltyBps + 5 * cfg.cancelLatencyPenaltyScaleBps +
    1 * cfg.healthPenaltyScaleBps + (1 - cfg.minFillProbability) * 4 +
    20 * cfg.stabilityPenaltyScale

/-- A configuration in its bounds. -/
structure Valid : Prop where
  alpha_mem : ∀ c, cfg.alpha c ∈ Set.Icc (0 : ℚ) 1
  maxFillStep_nonneg : 0 ≤ cfg.maxFillStep
  maxMarkoutStep_nonneg : 0 ≤ cfg.maxMarkoutStepBps
  maxRejectStep_nonneg : 0 ≤ cfg.maxRejectStep
  maxCancelLatencyStep_nonneg : 0 ≤ cfg.maxCancelLatencyStepBps
  maxHealthStep_nonneg : 0 ≤ cfg.maxHealthStepBps
  rejectRatePenalty_nonneg : 0 ≤ cfg.rejectRatePenaltyBps
  cancelLatencyPenaltyScale_nonneg : 0 ≤ cfg.cancelLatencyPenaltyScaleBps
  healthPenaltyScale_nonneg : 0 ≤ cfg.healthPenaltyScaleBps
  stabilityPenaltyScale_nonneg : 0 ≤ cfg.stabilityPenaltyScale
  minFillProbability_nonneg : 0 ≤ cfg.minFillProbability
  minFillProbability_le : cfg.minFillProbability ≤ 1 / 2
  le_maxFillProbability : 1 / 2 ≤ cfg.maxFillProbability
  maxFillProbability_le : cfg.maxFillProbability ≤ 1

variable {cfg}

theorem Valid.maxStep_nonneg (h : cfg.Valid) (c : QualityComponent) : 0 ≤ cfg.maxStep c := by
  cases c with
  | fillProbability => exact h.maxFillStep_nonneg
  | passiveMarkout | takerMarkout => exact h.maxMarkoutStep_nonneg
  | rejectRate => exact h.maxRejectStep_nonneg
  | cancelLatency => exact h.maxCancelLatencyStep_nonneg
  | health =>
    exact div_nonneg h.maxHealthStep_nonneg (zero_le_one.trans (le_max_left ..))

theorem Valid.least_le_most (h : cfg.Valid) (c : QualityComponent) : cfg.least c ≤ cfg.most c := by
  cases c with
  | fillProbability => exact h.minFillProbability_le.trans h.le_maxFillProbability
  | passiveMarkout | takerMarkout | rejectRate | cancelLatency | health =>
    norm_num [least, most]

end VenueQualityConfig

/-- A component of a venue. -/
def VenueQualityState.get (state : VenueQualityState) : QualityComponent → ℚ
  | .fillProbability => state.fillProbability
  | .passiveMarkout => state.passiveMarkoutBps
  | .takerMarkout => state.takerMarkoutBps
  | .rejectRate => state.rejectRate
  | .cancelLatency => state.cancelLatencyPenaltyBps
  | .health => state.healthPenaltyBps

/-- The clamped update is a smoothing with limited steps. -/
theorem updateClamped_eq_smooth {value sample alpha maxStep minValue maxValue : ℚ}
    (hstep : 0 ≤ maxStep) (hrange : minValue ≤ maxValue) :
    updateClamped value sample alpha maxStep minValue maxValue =
      smooth alpha maxStep minValue maxValue value sample := by
  rw [updateClamped, smooth, clamp_eq_max_min hrange, clamp_eq_max_min (neg_le_self hstep)]
  rfl

namespace VenueQualityModel

variable {m : VenueQualityModel} {cfg : VenueQualityConfig} {exchange other : Exchange}
  {c : QualityComponent}

/-- What an observation makes of the model. -/
def take (m : VenueQualityModel) (exchange : Exchange) : VenueObservation → VenueQualityModel
  | .fillProbability realized => m.observeFillProbability exchange realized
  | .markout passive bps => m.observeMarkout exchange passive bps
  | .reject rejected => m.observeReject exchange rejected
  | .cancelLatency micros => m.observeCancelLatency exchange micros
  | .health healthy => m.observeHealth exchange healthy

/-! ## One observation -/

theorem stateFor_observe {update : VenueQualityState → VenueQualityState} :
    (m.observe exchange update).stateFor exchange =
      m.cfg.refreshSnapshot (update (m.stateFor exchange)) exchange := by
  simp [observe, stateFor]

theorem stateFor_observe_of_ne {update : VenueQualityState → VenueQualityState}
    (h : indexFor other ≠ indexFor exchange) :
    (m.observe exchange update).stateFor other = m.stateFor other := by
  simp [observe, stateFor, h]

@[simp] theorem cfg_take (o : VenueObservation) : (m.take exchange o).cfg = m.cfg := by
  cases o <;> rfl

theorem get_refreshSnapshot (state : VenueQualityState) :
    (cfg.refreshSnapshot state exchange).get c = state.get c := by
  cases c <;> rfl

/-- What an observation does: it smooths its component, leaves the others, and refreshes the
snapshot. -/
theorem exists_update (m : VenueQualityModel) (exchange : Exchange) (o : VenueObservation) :
    ∃ update : VenueQualityState → VenueQualityState,
      m.take exchange o = m.observe exchange update ∧
      (∀ state, (update state).get o.component =
        updateClamped (state.get o.component) o.sample (m.cfg.alpha o.component)
          (m.cfg.maxStep o.component) (m.cfg.least o.component) (m.cfg.most o.component)) ∧
      ∀ state c, c ≠ o.component → (update state).get c = state.get c := by
  cases o with
  | fillProbability realized =>
    refine ⟨_, by rw [take, observeFillProbability], fun _ => rfl, fun state c hc => ?_⟩
    cases c <;> first | rfl | exact absurd rfl hc
  | markout passive bps =>
    refine ⟨_, by rw [take, observeMarkout], fun _ => ?_, fun state c hc => ?_⟩
    · cases passive <;> rfl
    · cases passive <;> cases c <;> first | rfl | exact absurd rfl hc
  | reject rejected =>
    refine ⟨_, by rw [take, observeReject], fun _ => rfl, fun state c hc => ?_⟩
    cases c <;> first | rfl | exact absurd rfl hc
  | cancelLatency micros =>
    refine ⟨_, by rw [take, observeCancelLatency], fun _ => rfl, fun state c hc => ?_⟩
    cases c <;> first | rfl | exact absurd rfl hc
  | health healthy =>
    refine ⟨_, by rw [take, observeHealth], fun _ => rfl, fun state c hc => ?_⟩
    cases c <;> first | rfl | exact absurd rfl hc

/-- **An observation smooths its component**. -/
theorem get_take_self (o : VenueObservation) :
    ((m.take exchange o).stateFor exchange).get o.component =
      updateClamped ((m.stateFor exchange).get o.component) o.sample (m.cfg.alpha o.component)
        (m.cfg.maxStep o.component) (m.cfg.least o.component) (m.cfg.most o.component) := by
  obtain ⟨update, htake, hself, -⟩ := exists_update m exchange o
  rw [htake, stateFor_observe, get_refreshSnapshot, hself]

/-- The other components stay. -/
theorem get_take_of_ne {o : VenueObservation} (h : c ≠ o.component) :
    ((m.take exchange o).stateFor exchange).get c = (m.stateFor exchange).get c := by
  obtain ⟨update, htake, -, hothers⟩ := exists_update m exchange o
  rw [htake, stateFor_observe, get_refreshSnapshot, hothers _ c h]

end VenueQualityModel

/-- **A state in its bounds**: the components in their ranges, the penalty between zero and what
the components can come to. -/
structure VenueQualityState.Bounded (cfg : VenueQualityConfig) (state : VenueQualityState) :
    Prop where
  mem : ∀ c, state.get c ∈ Set.Icc (cfg.least c) (cfg.most c)
  penalty_mem : state.snapshot.compositePenaltyBps ∈ Set.Icc 0 cfg.maxPenaltyBps

namespace VenueQualityConfig

variable {cfg : VenueQualityConfig} {state : VenueQualityState} {exchange : Exchange}

/-! ## The bounds of a state -/

/-- A component times its scale. -/
theorem scaled_mem {x most scale : ℚ} (h : x ∈ Set.Icc 0 most) (hscale : 0 ≤ scale) :
    x * scale ∈ Set.Icc 0 (most * scale) :=
  ⟨mul_nonneg h.1 hscale, mul_le_mul_of_nonneg_right h.2 hscale⟩

/-- Components in their ranges make up a penalty in its range. -/
theorem Valid.penalty_mem (h : cfg.Valid)
    (hmem : ∀ c, state.get c ∈ Set.Icc (cfg.least c) (cfg.most c)) :
    (cfg.refreshSnapshot state exchange).snapshot.compositePenaltyBps ∈
      Set.Icc 0 cfg.maxPenaltyBps := by
  have hreject := scaled_mem (hmem .rejectRate) h.rejectRatePenalty_nonneg
  have hcancel := scaled_mem (hmem .cancelLatency) h.cancelLatencyPenaltyScale_nonneg
  have hhealth := scaled_mem (hmem .health) h.healthPenaltyScale_nonneg
  have hdrag : clamp (1 - state.fillProbability) 0 1 * 4 ∈
      Set.Icc 0 ((1 - cfg.minFillProbability) * 4) := by
    have hfill : state.fillProbability ∈ Set.Icc _ _ := hmem .fillProbability
    have hmost : state.fillProbability ≤ 1 := hfill.2.trans h.maxFillProbability_le
    have hleast : cfg.minFillProbability ≤ state.fillProbability := hfill.1
    rw [clamp_of_mem (by linarith) (by linarith [h.minFillProbability_nonneg])]
    exact scaled_mem ⟨by linarith, by linarith⟩ (by norm_num)
  have hapart : |state.passiveMarkoutBps - state.takerMarkoutBps| ∈ Set.Icc (0 : ℚ) 20 := by
    have hpassive : state.passiveMarkoutBps ∈ Set.Icc (-10 : ℚ) 10 := hmem .passiveMarkout
    have htaker : state.takerMarkoutBps ∈ Set.Icc (-10 : ℚ) 10 := hmem .takerMarkout
    refine ⟨abs_nonneg _, abs_le.mpr ⟨?_, ?_⟩⟩
    · linarith [hpassive.1, htaker.2]
    · linarith [hpassive.2, htaker.1]
  have hstability := scaled_mem hapart h.stabilityPenaltyScale_nonneg
  constructor
  · exact add_nonneg (add_nonneg (add_nonneg (add_nonneg hreject.1 hcancel.1) hhealth.1) hdrag.1)
      hstability.1
  · exact add_le_add (add_le_add (add_le_add (add_le_add hreject.2 hcancel.2) hhealth.2) hdrag.2)
      hstability.2

theorem Valid.maxPenalty_nonneg (h : cfg.Valid) : 0 ≤ cfg.maxPenaltyBps := by
  have hfill : 0 ≤ 1 - cfg.minFillProbability := by linarith [h.minFillProbability_le]
  have hreject := h.rejectRatePenalty_nonneg
  have hcancel := h.cancelLatencyPenaltyScale_nonneg
  have hhealth := h.healthPenaltyScale_nonneg
  have hstability := h.stabilityPenaltyScale_nonneg
  unfold maxPenaltyBps
  positivity

/-- A state that nothing was observed of is in its bounds. -/
theorem Valid.bounded_default (h : cfg.Valid) : VenueQualityState.Bounded cfg {} where
  mem := by
    intro c
    cases c with
    | fillProbability => exact ⟨h.minFillProbability_le, h.le_maxFillProbability⟩
    | passiveMarkout | takerMarkout | rejectRate | cancelLatency | health =>
      norm_num [VenueQualityState.get, least, most]
  penalty_mem := ⟨le_rfl, h.maxPenalty_nonneg⟩

end VenueQualityConfig

namespace VenueQualityModel

variable {m : VenueQualityModel} {cfg : VenueQualityConfig} {exchange : Exchange}

/-- Every venue is in its bounds. -/
def Bounded (m : VenueQualityModel) : Prop :=
  ∀ exchange, (m.stateFor exchange).Bounded m.cfg

/-- **An observation moves its component alone**, towards the sample as far as that is in the range
and not past it, by at most the step. -/
structure Moves (m : VenueQualityModel) (exchange : Exchange) (o : VenueObservation) : Prop where
  towards : ((m.take exchange o).stateFor exchange).get o.component ∈
    Set.uIcc ((m.stateFor exchange).get o.component)
      (clamp o.sample (m.cfg.least o.component) (m.cfg.most o.component))
  within_step : |((m.take exchange o).stateFor exchange).get o.component -
    (m.stateFor exchange).get o.component| ≤ m.cfg.maxStep o.component
  others : ∀ c, c ≠ o.component →
    ((m.take exchange o).stateFor exchange).get c = (m.stateFor exchange).get c
  elsewhere : ∀ other, indexFor other ≠ indexFor exchange →
    (m.take exchange o).stateFor other = m.stateFor other

theorem Bounded.moves (h : m.Bounded) (hcfg : m.cfg.Valid) (o : VenueObservation) :
    m.Moves exchange o := by
  have hmem := (h exchange).mem o.component
  have hrange := hcfg.least_le_most o.component
  have hstep := hcfg.maxStep_nonneg o.component
  have hself := (@get_take_self m exchange o).trans
    (updateClamped_eq_smooth hstep hrange)
  constructor
  case towards =>
    rw [hself, clamp_eq_max_min hrange]
    exact smooth_mem_uIcc (hcfg.alpha_mem o.component) hstep hmem
  case within_step =>
    rw [hself]
    exact abs_smooth_sub_le hstep hmem
  case others => exact fun c hc => get_take_of_ne hc
  case elsewhere =>
    intro other hother
    obtain ⟨update, hupdate, -⟩ := exists_update m exchange o
    rw [hupdate, stateFor_observe_of_ne hother]

/-- **An observation keeps the bounds**. -/
theorem Bounded.take (h : m.Bounded) (hcfg : m.cfg.Valid) (o : VenueObservation) :
    (m.take exchange o).Bounded := by
  intro other
  rw [cfg_take]
  by_cases hother : indexFor other = indexFor exchange
  · have hmem : ∀ c, ((m.take exchange o).stateFor exchange).get c ∈
        Set.Icc (m.cfg.least c) (m.cfg.most c) := by
      intro c
      by_cases hc : c = o.component
      · have hrange := hcfg.least_le_most o.component
        rw [hc, get_take_self, updateClamped_eq_smooth (hcfg.maxStep_nonneg _) hrange]
        exact smooth_mem hrange
      · rw [get_take_of_ne hc]
        exact (h exchange).mem c
    have hsame : (m.take exchange o).stateFor other = (m.take exchange o).stateFor exchange := by
      rw [stateFor, stateFor, hother]
    obtain ⟨update, hupdate, -⟩ := exists_update m exchange o
    rw [hsame]
    rw [hupdate, stateFor_observe] at hmem ⊢
    simp only [get_refreshSnapshot] at hmem
    exact ⟨fun c => (get_refreshSnapshot _).symm ▸ hmem c, hcfg.penalty_mem hmem⟩
  · rw [(h.moves hcfg o).elsewhere other hother]
    exact h other

/-! ## A history -/

/-- The model after a history of observations. -/
def run (cfg : VenueQualityConfig) (history : List (Exchange × VenueObservation)) :
    VenueQualityModel :=
  history.foldl (fun m o => m.take o.1 o.2) { cfg := cfg }

/-- **After every history** every venue is in its bounds, and the next observation moves its
component alone. -/
theorem bounded_run (cfg : VenueQualityConfig) (hcfg : cfg.Valid)
    (history : List (Exchange × VenueObservation)) :
    (∀ exchange, ((run cfg history).stateFor exchange).Bounded cfg) ∧
      ∀ exchange o, (run cfg history).Moves exchange o := by
  have hrun : (run cfg history).cfg = cfg ∧ (run cfg history).Bounded :=
    foldl_induction (P := fun m : VenueQualityModel => m.cfg = cfg ∧ m.Bounded)
      (fun m o h (_ : True) =>
        ⟨(cfg_take o.2).trans h.1, h.2.take (h.1.symm ▸ hcfg) o.2⟩)
      ⟨rfl, fun _ => hcfg.bounded_default⟩ fun _ _ => trivial
  obtain ⟨hsame, hbounded⟩ := hrun
  refine ⟨fun exchange => ?_, fun exchange o => hbounded.moves (hsame.symm ▸ hcfg) o⟩
  have := hbounded exchange
  rwa [hsame] at this

/-- The default configuration is in its bounds. -/
theorem valid_default : ({} : VenueQualityConfig).Valid := by
  refine ⟨fun c => ?_, ?_, ?_, ?_, ?_, ?_, ?_, ?_, ?_, ?_, ?_, ?_, ?_, ?_⟩
  · cases c <;> norm_num [VenueQualityConfig.alpha]
  all_goals norm_num

/-- A venue with a fill, a markout, a rejection and a slow cancel. -/
def observedOnce : List (Exchange × VenueObservation) :=
  [(.okx, .fillProbability 1), (.okx, .markout false (-10)), (.kraken, .reject true),
    (.okx, .cancelLatency 90000), (.okx, .health false)]

theorem bounded_observedOnce :
    ({} : VenueQualityConfig).Valid ∧
      (∀ exchange, ((run {} observedOnce).stateFor exchange).Bounded {}) ∧
        ∀ exchange o, (run {} observedOnce).Moves exchange o :=
  ⟨valid_default, bounded_run {} valid_default observedOnce⟩

end VenueQualityModel

end TradingInfrastructure
