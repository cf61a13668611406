import TradingInfrastructure.Foundations.Streaks
import TradingInfrastructure.Portfolio.PortfolioIntentEngine

/-!
# The hysteresis of a regime

`_update_regime_hysteresis` counts the samples in a row at or above the threshold of entry while the
regime is inactive, and the samples in a row below the threshold of exit while it is active. The
count starts anew with every switch, so it is the length of the run of qualifying samples since the
last switch (`updateRegimeHysteresis_run`), and the regime switches exactly with the sample that
makes that run as long as the persistence (`updateRegimeHysteresis_switches`). The engine keeps two
such regimes side by side (`PortfolioIntentEngine.foldl_updateRegimes`).
-/

namespace TradingInfrastructure

variable (enterThresh exitThresh : ℚ) (persistence : ℤ)

/-- Whether a sample counts towards the next switch. -/
def qualifies (active : Bool) (p : ℚ) : Bool :=
  if active then decide (p < exitThresh) else decide (enterThresh ≤ p)

/-- One sample, on the flag and the ticks. -/
def hysteresisStep (s : Bool × ℤ) (p : ℚ) : Bool × ℤ :=
  updateRegimeHysteresis p enterThresh exitThresh persistence s.1 s.2

/-- The flag and the ticks after the samples, from an inactive regime without ticks. -/
def hysteresisAfter (samples : List ℚ) : Bool × ℤ :=
  samples.foldl (hysteresisStep enterThresh exitThresh persistence) (false, 0)

/-- The samples since the last switch. -/
def samplesSinceSwitch (samples : List ℚ) : List ℚ :=
  sinceSwitch (hysteresisStep enterThresh exitThresh persistence) Prod.fst (false, 0) samples

/-! ## One sample -/

variable {enterThresh exitThresh persistence} in
/-- What a sample does: the run of qualifying samples grows or ends, and a run as long as the
persistence switches the regime. -/
theorem hysteresisStep_eq (active : Bool) (since : List ℚ) (p : ℚ) :
    hysteresisStep enterThresh exitThresh persistence
        (active, runLength (qualifies enterThresh exitThresh active) since) p =
      if persistence ≤ runLength (qualifies enterThresh exitThresh active) (since ++ [p]) then
        (!active, 0)
      else (active, ↑(runLength (qualifies enterThresh exitThresh active) (since ++ [p]))) := by
  rw [runLength_concat]
  cases active with
  | false => simp [hysteresisStep, updateRegimeHysteresis, qualifies]
  | true => simp [hysteresisStep, updateRegimeHysteresis, qualifies]

theorem hysteresisAfter_concat (samples : List ℚ) (p : ℚ) :
    hysteresisAfter enterThresh exitThresh persistence (samples ++ [p]) =
      hysteresisStep enterThresh exitThresh persistence
        (hysteresisAfter enterThresh exitThresh persistence samples) p := by
  rw [hysteresisAfter, List.foldl_concat]
  rfl

theorem samplesSinceSwitch_concat (samples : List ℚ) (p : ℚ) :
    samplesSinceSwitch enterThresh exitThresh persistence (samples ++ [p]) =
      if (hysteresisStep enterThresh exitThresh persistence
            (hysteresisAfter enterThresh exitThresh persistence samples) p).1 =
          (hysteresisAfter enterThresh exitThresh persistence samples).1 then
        samplesSinceSwitch enterThresh exitThresh persistence samples ++ [p]
      else [] :=
  sinceSwitch_concat _ _ _ _ _

/-! ## The whole history -/

variable {persistence}

/-- The ticks are the length of the run of qualifying samples since the last switch, and stay below
the persistence. -/
theorem hysteresisAfter_ticks (hpersistence : 1 ≤ persistence) (samples : List ℚ) :
    (hysteresisAfter enterThresh exitThresh persistence samples).2 =
        runLength (qualifies enterThresh exitThresh
          (hysteresisAfter enterThresh exitThresh persistence samples).1)
          (samplesSinceSwitch enterThresh exitThresh persistence samples) ∧
      (hysteresisAfter enterThresh exitThresh persistence samples).2 < persistence := by
  induction samples using List.reverseRecOn with
  | nil => exact ⟨by simp [hysteresisAfter, samplesSinceSwitch], by simpa [hysteresisAfter]⟩
  | append_singleton samples p ih =>
    rw [samplesSinceSwitch_concat, hysteresisAfter_concat]
    generalize hysteresisAfter enterThresh exitThresh persistence samples = s at ih ⊢
    obtain ⟨active, ticks⟩ := s
    dsimp only at ih ⊢
    obtain ⟨rfl, -⟩ := ih
    rw [hysteresisStep_eq]
    split_ifs with hcomplete hsame hsame
    · exact absurd hsame (by simp)
    · -- the regime switches, and the count starts anew
      exact ⟨by simp, zero_lt_one.trans_le hpersistence⟩
    · exact ⟨rfl, not_le.mp hcomplete⟩
    · exact absurd rfl hsame

/-- A sample switches the regime exactly if it makes the run of qualifying samples as long as the
persistence. -/
theorem hysteresisAfter_switches_iff (hpersistence : 1 ≤ persistence) (samples : List ℚ) (p : ℚ) :
    (hysteresisAfter enterThresh exitThresh persistence (samples ++ [p])).1 =
        !(hysteresisAfter enterThresh exitThresh persistence samples).1 ↔
      runLength (qualifies enterThresh exitThresh
          (hysteresisAfter enterThresh exitThresh persistence samples).1)
        (samplesSinceSwitch enterThresh exitThresh persistence samples ++ [p]) = persistence := by
  obtain ⟨hticks, hlt⟩ := hysteresisAfter_ticks enterThresh exitThresh hpersistence samples
  rw [hysteresisAfter_concat]
  generalize hysteresisAfter enterThresh exitThresh persistence samples = s at hticks hlt ⊢
  obtain ⟨active, ticks⟩ := s
  dsimp only at hticks hlt ⊢
  subst hticks
  -- the run was shorter, and one sample makes it one longer at most
  have hle : (runLength (qualifies enterThresh exitThresh active)
      (samplesSinceSwitch enterThresh exitThresh persistence samples ++ [p]) : ℤ) ≤
      persistence := by
    rw [runLength_concat]
    split <;> push_cast <;> omega
  rw [hysteresisStep_eq]
  split_ifs with hcomplete
  · exact iff_of_true rfl (le_antisymm hle hcomplete)
  · exact iff_of_false (by simp) (by omega)

variable (persistence) in
/-- **The hysteresis counts runs.** An inactive regime becomes active exactly with the sample that
completes as many samples in a row at or above the threshold of entry since the last switch, an
active one inactive exactly with the sample that completes as many below the threshold of exit, and
the ticks are the length of the current run, always below the persistence. -/
theorem updateRegimeHysteresis_counts_runs (hpersistence : 1 ≤ persistence) (samples : List ℚ)
    (p : ℚ) :
    ((hysteresisAfter enterThresh exitThresh persistence samples).1 = false →
        ((hysteresisAfter enterThresh exitThresh persistence (samples ++ [p])).1 = true ↔
          runLength (fun q => decide (enterThresh ≤ q))
            (samplesSinceSwitch enterThresh exitThresh persistence samples ++ [p]) =
              persistence)) ∧
      ((hysteresisAfter enterThresh exitThresh persistence samples).1 = true →
        ((hysteresisAfter enterThresh exitThresh persistence (samples ++ [p])).1 = false ↔
          runLength (fun q => decide (q < exitThresh))
            (samplesSinceSwitch enterThresh exitThresh persistence samples ++ [p]) =
              persistence)) ∧
      (hysteresisAfter enterThresh exitThresh persistence samples).2 =
        runLength (qualifies enterThresh exitThresh
          (hysteresisAfter enterThresh exitThresh persistence samples).1)
          (samplesSinceSwitch enterThresh exitThresh persistence samples) ∧
      (hysteresisAfter enterThresh exitThresh persistence samples).2 < persistence := by
  have hswitch := hysteresisAfter_switches_iff enterThresh exitThresh hpersistence samples p
  refine ⟨fun hinactive => ?_, fun hactive => ?_,
    hysteresisAfter_ticks enterThresh exitThresh hpersistence samples⟩
  · rw [hinactive] at hswitch
    exact hswitch
  · rw [hactive] at hswitch
    exact hswitch

/-- Three samples in a row make the regime active, a fourth in between does not. -/
theorem updateRegimeHysteresis_counts_runs_three :
    1 ≤ (3 : ℤ) ∧ (hysteresisAfter (7 / 10) (5 / 10) 3 [8 / 10, 6 / 10, 9 / 10, 1, 8 / 10]).1 :=
  ⟨by decide,
    ((updateRegimeHysteresis_counts_runs (7 / 10) (5 / 10) 3 (by decide)
      [8 / 10, 6 / 10, 9 / 10, 1] (8 / 10)).1 (by decide +kernel)).mpr (by decide +kernel)⟩

/-! ## The regimes of the engine -/

/-- **The engine's regimes** are two of these, fed with the two probabilities of every signal. -/
theorem PortfolioIntentEngine.regimes_eq (cfg : PortfolioIntentConfig) (memory : PortfolioIntent)
    (inputs : List IntentInputs) :
    inputs.foldl (fun e x => (PortfolioIntentEngine.evaluate e memory x).1) { cfg := cfg } =
      let illiquid := hysteresisAfter cfg.illiquidEnterThreshold cfg.illiquidExitThreshold
        cfg.regimePersistenceTicks (inputs.map (·.regimeSignal.pIlliquid))
      let shock := hysteresisAfter cfg.shockEnterThreshold cfg.shockExitThreshold
        cfg.regimePersistenceTicks (inputs.map (·.regimeSignal.pShock))
      { cfg := cfg
        illiquidRegimeActive := illiquid.1, illiquidTicks := illiquid.2
        shockRegimeActive := shock.1, shockTicks := shock.2 } := by
  induction inputs using List.reverseRecOn with
  | nil => rfl
  | append_singleton inputs x ih =>
    rw [List.foldl_concat, ih]
    simp only [List.map_append, List.map_cons, List.map_nil, hysteresisAfter_concat]
    rfl

end TradingInfrastructure
