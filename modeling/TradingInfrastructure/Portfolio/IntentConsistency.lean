import TradingInfrastructure.Portfolio.PortfolioIntentEngine

/-!
# What an intent says of the position

An intent has a target and the way to it. The way is measured from the position after it has been
clamped, and the early exits leave the target as it was in memory. So the two belong together
exactly when the position is within the cap and an early exit finds zero in that place
(`evaluate_consistent_iff`).
-/

namespace TradingInfrastructure

namespace PortfolioIntentConfig

variable {cfg : PortfolioIntentConfig} {position : ℚ}

theorem clampPosition_of_abs_le (h : |position| ≤ cfg.maxPosition) :
    cfg.clampPosition position = position :=
  clamp_of_mem (abs_le.mp h).1 (abs_le.mp h).2

theorem abs_clampPosition_le (h : 0 ≤ cfg.maxPosition) (position : ℚ) :
    |cfg.clampPosition position| ≤ cfg.maxPosition :=
  abs_le.mpr ⟨le_clamp (by linarith) position, clamp_le (by linarith) position⟩

/-- A cap leaves the positions within it, and no others, as they are. -/
theorem clampPosition_eq_self_iff (h : 0 ≤ cfg.maxPosition) :
    cfg.clampPosition position = position ↔ |position| ≤ cfg.maxPosition :=
  ⟨fun heq => heq ▸ abs_clampPosition_le h position, clampPosition_of_abs_le⟩

end PortfolioIntentConfig

/-! ## The two ways out -/

/-- Reasons are only appended. -/
theorem PortfolioIntent.appendReason_eq (intent : PortfolioIntent)
    (code : PortfolioIntentReasonCode) :
    ∃ codes, intent.appendReason code = { intent with reasonCodes := codes } := by
  unfold appendReason
  split_ifs
  · exact ⟨_, rfl⟩
  · exact ⟨_, rfl⟩
  · exact ⟨_, rfl⟩

theorem PortfolioIntent.appendReasons_eq (reasons : List (Bool × PortfolioIntentReasonCode))
    (intent : PortfolioIntent) :
    ∃ codes, reasons.foldl appendReasonIf intent = { intent with reasonCodes := codes } := by
  induction reasons generalizing intent with
  | nil => exact ⟨_, rfl⟩
  | cons reason reasons ih =>
    obtain ⟨codes, hcodes⟩ : ∃ codes, intent.appendReasonIf reason =
        { intent with reasonCodes := codes } := by
      unfold appendReasonIf
      split_ifs
      · exact intent.appendReason_eq reason.2
      · exact ⟨_, rfl⟩
    rw [List.foldl_cons, hcodes]
    exact ih _

namespace PortfolioIntentEngine

variable (e : PortfolioIntentEngine) (memory : PortfolioIntent) (x : IntentInputs)

/-- **An early exit**: no healthy venue, risk, a reversal, a shock, a stale signal or a wide
basis. -/
def ExitsEarly : Prop :=
  countHealthyVenues x.venues = 0 ∨ (e.updateRegimes x.regimeSignal).exits x = true

instance : Decidable (e.ExitsEarly x) := inferInstanceAs (Decidable (_ ∨ _))

/-- An early exit closes the position, and leaves the target as it was in memory. -/
theorem evaluate_of_exits (h : e.ExitsEarly x) :
    ∃ codes shortfallBps, (e.evaluate memory x).2 = e.flatten x
      { started memory x with reasonCodes := codes } shortfallBps ∧
      (shortfallBps = if countHealthyVenues x.venues = 0 then 3 else 5 / 2) := by
  unfold evaluate intent
  by_cases hhealthy : countHealthyVenues x.venues = 0
  · obtain ⟨codes, hcodes⟩ := (started memory x).appendReason_eq .noHealthyVenues
    simp only [hhealthy, if_true, hcodes]
    exact ⟨codes, 3, rfl, rfl⟩
  · have hexits := h.resolve_left hhealthy
    obtain ⟨codes, hcodes⟩ := PortfolioIntent.appendReasons_eq
      ((e.updateRegimes x.regimeSignal).reasons x) (started memory x)
    simp only [hhealthy, if_false, hexits, if_true, hcodes]
    exact ⟨codes, 5 / 2, rfl, rfl⟩

/-- Without an early exit the target is the clamped one. -/
theorem evaluate_of_not_exits (h : ¬ e.ExitsEarly x) :
    ∃ codes, (e.evaluate memory x).2 = (e.updateRegimes x.regimeSignal).settle x
      { started memory x with reasonCodes := codes } := by
  unfold ExitsEarly at h
  rw [not_or, Bool.not_eq_true] at h
  obtain ⟨codes, hcodes⟩ := PortfolioIntent.appendReasons_eq
    ((e.updateRegimes x.regimeSignal).reasons x) (started memory x)
  obtain ⟨codes', hcodes'⟩ := PortfolioIntent.appendReason_eq
    { started memory x with reasonCodes := codes }
    (x.entryTarget (e.updateRegimes x.regimeSignal).cfg).2
  unfold evaluate intent
  simp only [h.1, if_false, h.2, Bool.false_eq_true, hcodes, hcodes']
  exact ⟨codes', rfl⟩

/-! ## Consistency -/

/-- **The intent belongs to the position**: the way leads from the position to the target, which is
within the cap, and zero after an early exit. -/
structure Consistent (intent : PortfolioIntent) : Prop where
  leads : x.ledger.globalPosition + intent.positionDelta = intent.targetGlobalPosition
  capped : |intent.targetGlobalPosition| ≤ e.cfg.maxPosition
  flat : e.ExitsEarly x → intent.targetGlobalPosition = 0

/-- **An intent is consistent** exactly when the position is within the cap and an early exit finds
a target of zero in memory. -/
theorem evaluate_consistent_iff (e : PortfolioIntentEngine) (memory : PortfolioIntent)
    (x : IntentInputs) :
    e.Consistent x (e.evaluate memory x).2 ↔
      |x.ledger.globalPosition| ≤ e.cfg.maxPosition ∧
        (e.ExitsEarly x → memory.targetGlobalPosition = 0) := by
  have hcfg : (e.updateRegimes x.regimeSignal).cfg = e.cfg := rfl
  by_cases hexits : e.ExitsEarly x
  · obtain ⟨codes, shortfallBps, hflatten, -⟩ := e.evaluate_of_exits memory x hexits
    rw [hflatten]
    constructor
    · rintro ⟨hleads, hcapped, hflat⟩
      have hzero : memory.targetGlobalPosition = 0 := hflat hexits
      have hmax : 0 ≤ e.cfg.maxPosition := (abs_nonneg _).trans hcapped
      refine ⟨(PortfolioIntentConfig.clampPosition_eq_self_iff hmax).mp ?_, fun _ => hzero⟩
      change x.ledger.globalPosition + -e.cfg.clampPosition x.ledger.globalPosition =
        memory.targetGlobalPosition at hleads
      linarith
    · rintro ⟨hwithin, hzero⟩
      have hmemory := hzero hexits
      refine ⟨?_, ?_, fun _ => hmemory⟩
      · change x.ledger.globalPosition + -e.cfg.clampPosition x.ledger.globalPosition =
          memory.targetGlobalPosition
        rw [PortfolioIntentConfig.clampPosition_of_abs_le hwithin, hmemory, add_neg_cancel]
      · change |memory.targetGlobalPosition| ≤ _
        rw [hmemory, abs_zero]
        exact (abs_nonneg _).trans hwithin
  · obtain ⟨codes, hsettle⟩ := e.evaluate_of_not_exits memory x hexits
    rw [hsettle]
    set target := e.cfg.clampPosition ((e.updateRegimes x.regimeSignal).wanted x) with htarget
    constructor
    · rintro ⟨hleads, hcapped, -⟩
      have hmax : 0 ≤ e.cfg.maxPosition := (abs_nonneg _).trans hcapped
      refine ⟨(PortfolioIntentConfig.clampPosition_eq_self_iff hmax).mp ?_,
        fun h => absurd h hexits⟩
      change x.ledger.globalPosition + (target - e.cfg.clampPosition x.ledger.globalPosition) =
        target at hleads
      linarith
    · rintro ⟨hwithin, -⟩
      refine ⟨?_, ?_, fun h => absurd h hexits⟩
      · change x.ledger.globalPosition + (target - e.cfg.clampPosition x.ledger.globalPosition) =
          target
        rw [PortfolioIntentConfig.clampPosition_of_abs_le hwithin, add_sub_cancel]
      · exact PortfolioIntentConfig.abs_clampPosition_le ((abs_nonneg _).trans hwithin) _

/-- An engine with a cap of one. -/
def unitCap : PortfolioIntentEngine where
  cfg := {
    maxPosition := 1, minEntrySignalBps := 2, negativeReversalSignalBps := -10
    positiveReversalSignalBps := 10, deadbandSignalBps := 1, maxRiskScore := 9 / 10
    shockEnterThreshold := 1, shockExitThreshold := 1 / 2, illiquidEnterThreshold := 1
    illiquidExitThreshold := 1 / 2, regimePersistenceTicks := 1, staleInventoryMs := 1000
    staleSignalMs := 0, maxBasisDivergenceBps := 0, staleInventoryAlphaHoldBps := 5
    healthReduceRatio := 1 / 2 }

/-- One healthy venue, and no signal, for a position. -/
def noSignal (position signalBps : ℚ) : IntentInputs where
  alphaSignal := ⟨signalBps, 0, 1, 5⟩
  regimeSignal := ⟨0, 0⟩
  ledger := ⟨position, 0⟩
  venues := fun _ => { depthQty := 1, fillProbability := 1, healthy := true, enabled := true }
  ctx := {}

/-- A result that memory fills with a target. -/
def withTarget (target : ℚ) : PortfolioIntent := ⟨target, 0, .passive, false, 0, 0, 0, 0, []⟩

/-- **A position over the cap** is closed as far as the cap only, and **an early exit** returns the
target that was in memory. -/
theorem unitCap_not_consistent :
    ¬ unitCap.Consistent (noSignal 3 0) (unitCap.evaluate (withTarget 0) (noSignal 3 0)).2 ∧
      ¬ unitCap.Consistent (noSignal (1 / 2) (-10))
        (unitCap.evaluate (withTarget 1) (noSignal (1 / 2) (-10))).2 := by
  constructor
  · rintro ⟨hleads, -, -⟩
    exact absurd hleads (by decide +kernel)
  · rintro ⟨hleads, -, -⟩
    exact absurd hleads (by decide +kernel)

end PortfolioIntentEngine

end TradingInfrastructure
