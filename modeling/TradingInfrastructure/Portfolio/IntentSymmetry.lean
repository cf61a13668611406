import TradingInfrastructure.Portfolio.IntentConsistency

/-!
# Long and short intents

The mirrored input has the opposite signal and the opposite position. What `evaluate` computes from
it is the opposite, with two exceptions: a negative reversal does not ask for a long position as a
positive one asks for a short position, and when the signal calls for an entry on both sides the
positive one is taken. The target that an early exit leaves in memory has no mirror at all. So the
intent is mirrored exactly when none of this matters (`evaluate_mirrors_iff`).
-/

namespace TradingInfrastructure

/-- The mirrored input. -/
def IntentInputs.mirrored (x : IntentInputs) : IntentInputs :=
  { x with
    alphaSignal := { x.alphaSignal with signalBps := -x.alphaSignal.signalBps }
    ledger := { x.ledger with globalPosition := -x.ledger.globalPosition } }

/-- **The mirrored intent.** -/
structure PortfolioIntent.Mirrors (intent mirrored : PortfolioIntent) : Prop where
  target : mirrored.targetGlobalPosition = -intent.targetGlobalPosition
  delta : mirrored.positionDelta = -intent.positionDelta
  flattenNow : mirrored.flattenNow = intent.flattenNow
  urgency : mirrored.urgency = intent.urgency
  expectedCost : mirrored.expectedCostBps = intent.expectedCostBps
  maxShortfall : mirrored.maxShortfallBps = intent.maxShortfallBps

/-! ## The helpers, mirrored -/

theorem clampReduceTarget_neg (current target : ℚ) :
    clampReduceTarget (-current) (-target) = -clampReduceTarget current target := by
  have hopposed : (-current > 0 ∧ -target < 0 ∨ -current < 0 ∧ -target > 0) ↔
      (current > 0 ∧ target < 0 ∨ current < 0 ∧ target > 0) := by
    constructor
    · rintro (⟨hc, ht⟩ | ⟨hc, ht⟩)
      · exact Or.inr ⟨by linarith, by linarith⟩
      · exact Or.inl ⟨by linarith, by linarith⟩
    · rintro (⟨hc, ht⟩ | ⟨hc, ht⟩)
      · exact Or.inr ⟨by linarith, by linarith⟩
      · exact Or.inl ⟨by linarith, by linarith⟩
  unfold clampReduceTarget
  simp only [abs_neg, hopposed]
  split_ifs
  · rfl
  · exact neg_zero.symm
  · ring
  · rfl

/-- A positive target is reduced to a positive one, or given up for a short position. -/
theorem clampReduceTarget_of_pos {current target : ℚ} (h : 0 < target) :
    0 < clampReduceTarget current target ∨
      current < 0 ∧ clampReduceTarget current target = 0 := by
  unfold clampReduceTarget
  split_ifs with hflat hopposed hlarge
  · exact Or.inl h
  · exact Or.inr ⟨(hopposed.resolve_left fun hc => absurd hc.2 (not_lt.mpr h.le)).1, rfl⟩
  · left
    rcases lt_trichotomy current 0 with hneg | hzero | hpos
    · exact absurd (Or.inr ⟨hneg, h⟩) hopposed
    · rw [hzero, abs_zero] at hflat
      exact absurd (by norm_num) hflat
    · linarith
  · exact Or.inl h

/-- A negative target likewise. -/
theorem clampReduceTarget_of_neg {current target : ℚ} (h : target < 0) :
    clampReduceTarget current target < 0 ∨
      0 < current ∧ clampReduceTarget current target = 0 := by
  have hmirrored := clampReduceTarget_neg (-current) (-target)
  rw [neg_neg, neg_neg] at hmirrored
  rw [hmirrored]
  rcases @clampReduceTarget_of_pos (-current) (-target) (by linarith) with hpos | ⟨hcur, hzero⟩
  · exact Or.inl (by linarith)
  · exact Or.inr ⟨by linarith, by rw [hzero, neg_zero]⟩

namespace PortfolioIntentConfig

variable {cfg : PortfolioIntentConfig}

theorem clampPosition_neg (h : 0 ≤ cfg.maxPosition) (position : ℚ) :
    cfg.clampPosition (-position) = -cfg.clampPosition position :=
  clamp_neg h position

theorem clampPosition_zero (h : 0 ≤ cfg.maxPosition) : cfg.clampPosition 0 = 0 :=
  clampPosition_of_abs_le (by rwa [abs_zero])

theorem clampPosition_pos {position : ℚ} (h : 0 < cfg.maxPosition) (hpos : 0 < position) :
    0 < cfg.clampPosition position := by
  rw [clampPosition, clamp_eq_max_min (by linarith)]
  exact lt_max_of_lt_right (lt_min hpos h)

theorem clampPosition_neg_of_neg {position : ℚ} (h : 0 < cfg.maxPosition) (hneg : position < 0) :
    cfg.clampPosition position < 0 := by
  have hpos := @clampPosition_pos cfg (-position) h (by linarith)
  rw [clampPosition_neg h.le] at hpos
  linarith

/-- Opposite targets do not come to the same. -/
theorem clampPosition_neg_lt {target : ℚ} (h : 0 < cfg.maxPosition) (hpos : 0 < target) :
    cfg.clampPosition (-target) < cfg.clampPosition target :=
  (clampPosition_neg_of_neg h (by linarith)).trans (clampPosition_pos h hpos)

/-- Nor do they when they are reduced. -/
theorem clampPosition_reduce_neg_lt {target : ℚ} (h : 0 < cfg.maxPosition) (hpos : 0 < target)
    (current : ℚ) : cfg.clampPosition (clampReduceTarget current (-target)) <
      cfg.clampPosition (clampReduceTarget current target) := by
  have hzero := clampPosition_zero h.le
  rcases @clampReduceTarget_of_pos current target hpos with hup | ⟨hshort, hup⟩
  · have hup := clampPosition_pos h hup
    rcases @clampReduceTarget_of_neg current (-target) (by linarith) with hdown | ⟨-, hdown⟩
    · exact (clampPosition_neg_of_neg h hdown).trans hup
    · rwa [hdown, hzero]
  · rcases @clampReduceTarget_of_neg current (-target) (by linarith) with hdown | ⟨hlong, -⟩
    · rw [hup, hzero]
      exact clampPosition_neg_of_neg h hdown
    · linarith

end PortfolioIntentConfig

namespace IntentInputs

variable {x : IntentInputs} {cfg : PortfolioIntentConfig}

theorem currentPosition_mirrored (h : 0 ≤ cfg.maxPosition) :
    x.mirrored.currentPosition cfg = -x.currentPosition cfg :=
  PortfolioIntentConfig.clampPosition_neg h _

theorem staleInventory_mirrored (h : 0 ≤ cfg.maxPosition) :
    x.mirrored.staleInventory cfg = x.staleInventory cfg := by
  unfold staleInventory
  rw [currentPosition_mirrored h, abs_neg]
  rfl

theorem inDeadband_mirrored : x.mirrored.inDeadband cfg = x.inDeadband cfg := by
  simp only [inDeadband, mirrored, abs_neg]

theorem alphaStrong_mirrored : x.mirrored.alphaStrong cfg = x.alphaStrong cfg := by
  simp only [alphaStrong, mirrored, abs_neg]

theorem magnitude_mirrored : x.mirrored.magnitude cfg = x.magnitude cfg := by
  simp only [magnitude, mirrored, abs_neg]
  rfl

theorem positiveEntry_mirrored : x.mirrored.positiveEntry cfg = x.negativeEntry cfg := by
  unfold positiveEntry negativeEntry
  rw [inDeadband_mirrored]
  simp only [mirrored, ge_iff_le, le_neg]
  rfl

theorem negativeEntry_mirrored : x.mirrored.negativeEntry cfg = x.positiveEntry cfg := by
  unfold positiveEntry negativeEntry
  rw [inDeadband_mirrored]
  simp only [mirrored, neg_le_neg_iff, neg_neg, ge_iff_le]
  rfl

end IntentInputs

namespace PortfolioIntentEngine

variable {e : PortfolioIntentEngine} {memory memory' : PortfolioIntent} {x : IntentInputs}

/-! ## The exits -/

/-- The exits that do not look at the signal's side. -/
def exitsAnyway (e : PortfolioIntentEngine) (x : IntentInputs) : Bool :=
  x.riskOff e.cfg || e.shockRegimeActive || x.staleSignal e.cfg || x.basisTooWide e.cfg

/-- A reversal of the signal finds a position to reverse, unless the signal is beyond the
thresholds of both sides. -/
def ReversesPosition (e : PortfolioIntentEngine) (x : IntentInputs) : Prop :=
  (x.alphaSignal.signalBps ≤ -e.cfg.positiveReversalSignalBps →
    e.cfg.positiveReversalSignalBps ≤ x.alphaSignal.signalBps ∨ 0 < x.currentPosition e.cfg) ∧
  (e.cfg.positiveReversalSignalBps ≤ x.alphaSignal.signalBps →
    x.alphaSignal.signalBps ≤ -e.cfg.positiveReversalSignalBps ∨ x.currentPosition e.cfg < 0)

theorem exits_iff (hneg : e.cfg.negativeReversalSignalBps = -e.cfg.positiveReversalSignalBps) :
    e.exits x = true ↔ e.exitsAnyway x = true ∨
      x.alphaSignal.signalBps ≤ -e.cfg.positiveReversalSignalBps ∨
      x.currentPosition e.cfg < 0 ∧ e.cfg.positiveReversalSignalBps ≤ x.alphaSignal.signalBps := by
  simp only [exits, exitsAnyway, IntentInputs.negativeReversal, IntentInputs.positiveReversal, hneg,
    Bool.or_eq_true, Bool.and_eq_true, decide_eq_true_eq, ge_iff_le]
  grind

theorem exits_mirrored_iff (hmax : 0 ≤ e.cfg.maxPosition)
    (hneg : e.cfg.negativeReversalSignalBps = -e.cfg.positiveReversalSignalBps) :
    e.exits x.mirrored = true ↔ e.exitsAnyway x = true ∨
      e.cfg.positiveReversalSignalBps ≤ x.alphaSignal.signalBps ∨
      0 < x.currentPosition e.cfg ∧
        x.alphaSignal.signalBps ≤ -e.cfg.positiveReversalSignalBps := by
  rw [exits_iff hneg, IntentInputs.currentPosition_mirrored hmax, neg_lt_zero]
  change _ ∨ -x.alphaSignal.signalBps ≤ _ ∨ _ ∧ _ ≤ -x.alphaSignal.signalBps ↔ _
  rw [neg_le_neg_iff, le_neg]
  rfl

/-- **The same exits** are taken when a reversal finds a position, or another exit is taken. -/
theorem exits_mirrored_congr (hmax : 0 ≤ e.cfg.maxPosition)
    (hneg : e.cfg.negativeReversalSignalBps = -e.cfg.positiveReversalSignalBps) :
    (e.exits x = true ↔ e.exits x.mirrored = true) ↔
      e.exitsAnyway x = true ∨ e.ReversesPosition x := by
  rw [exits_iff hneg, exits_mirrored_iff hmax hneg, ReversesPosition]
  have hside : ¬ (x.currentPosition e.cfg < 0 ∧ 0 < x.currentPosition e.cfg) :=
    fun h => absurd h.1 (not_lt.mpr h.2.le)
  generalize (x.currentPosition e.cfg < 0) = short at *
  generalize (0 < x.currentPosition e.cfg) = long at *
  generalize (x.alphaSignal.signalBps ≤ -e.cfg.positiveReversalSignalBps) = low
  generalize (e.cfg.positiveReversalSignalBps ≤ x.alphaSignal.signalBps) = high
  grind

/-! ## The target -/

/-- The entries, unless both sides call for one. -/
theorem entryTarget_mirrored {cfg : PortfolioIntentConfig}
    (h : x.positiveEntry cfg = true → x.negativeEntry cfg = true → x.magnitude cfg = 0) :
    (x.mirrored.entryTarget cfg).1 = -(x.entryTarget cfg).1 := by
  unfold IntentInputs.entryTarget
  rw [IntentInputs.positiveEntry_mirrored, IntentInputs.negativeEntry_mirrored,
    IntentInputs.magnitude_mirrored]
  cases hpos : x.positiveEntry cfg with
  | true =>
    cases hneg : x.negativeEntry cfg with
    | true => simp [h hpos hneg]
    | false => simp
  | false => cases x.negativeEntry cfg <;> simp

theorem wanted_mirrored (hmax : 0 ≤ e.cfg.maxPosition)
    (h : x.positiveEntry e.cfg = true → x.negativeEntry e.cfg = true → x.magnitude e.cfg = 0) :
    e.wanted x.mirrored = -e.wanted x := by
  unfold wanted
  rw [IntentInputs.staleInventory_mirrored hmax, IntentInputs.alphaStrong_mirrored,
    IntentInputs.currentPosition_mirrored hmax, entryTarget_mirrored h]
  split_ifs
  · exact clampReduceTarget_neg _ _
  · rfl

/-- When both sides call for an entry, the target is mirrored only if it is empty. -/
theorem magnitude_eq_zero_of_mirrored (hmax : 0 ≤ e.cfg.maxPosition)
    (hpos : x.positiveEntry e.cfg = true) (hneg : x.negativeEntry e.cfg = true)
    (h : e.cfg.clampPosition (e.wanted x.mirrored) = -e.cfg.clampPosition (e.wanted x)) :
    x.magnitude e.cfg = 0 := by
  rcases hmax.eq_or_lt with hzero | hcap
  · simp [IntentInputs.magnitude, ← hzero]
  have hentry : (x.entryTarget e.cfg).1 = x.magnitude e.cfg := by
    simp [IntentInputs.entryTarget, hpos]
  have hentry' : (x.mirrored.entryTarget e.cfg).1 = x.magnitude e.cfg := by
    simp [IntentInputs.entryTarget, IntentInputs.positiveEntry_mirrored, hneg,
      IntentInputs.magnitude_mirrored]
  unfold wanted at h
  rw [IntentInputs.staleInventory_mirrored hmax, IntentInputs.alphaStrong_mirrored,
    IntentInputs.currentPosition_mirrored hmax, hentry, hentry',
    ← PortfolioIntentConfig.clampPosition_neg hmax] at h
  generalize x.magnitude e.cfg = m at *
  generalize x.currentPosition e.cfg = current at *
  rcases lt_trichotomy m 0 with hm | hm | hm
  · exfalso
    split_ifs at h
    · rw [← clampReduceTarget_neg] at h
      have hlt := PortfolioIntentConfig.clampPosition_reduce_neg_lt hcap (neg_pos.mpr hm) (-current)
      rw [neg_neg] at hlt
      exact hlt.ne h
    · have hlt := PortfolioIntentConfig.clampPosition_neg_lt hcap (neg_pos.mpr hm)
      rw [neg_neg] at hlt
      exact hlt.ne h
  · exact hm
  · exfalso
    split_ifs at h
    · rw [← clampReduceTarget_neg] at h
      exact (PortfolioIntentConfig.clampPosition_reduce_neg_lt hcap hm (-current)).ne' h
    · exact (PortfolioIntentConfig.clampPosition_neg_lt hcap hm).ne' h

/-! ## The intent -/

/-- The last part of `evaluate` is mirrored when its target is. -/
theorem settle_mirrors_iff (hmax : 0 ≤ e.cfg.maxPosition) {out out' : PortfolioIntent}
    (hcost : out'.expectedCostBps = out.expectedCostBps) :
    (e.settle x out).Mirrors (e.settle x.mirrored out') ↔
      (x.positiveEntry e.cfg = true → x.negativeEntry e.cfg = true → x.magnitude e.cfg = 0) := by
  constructor
  · exact fun h hpos hneg => magnitude_eq_zero_of_mirrored hmax hpos hneg h.target
  · intro h
    have htarget : e.cfg.clampPosition (e.wanted x.mirrored) =
        -e.cfg.clampPosition (e.wanted x) := by
      rw [wanted_mirrored hmax h, PortfolioIntentConfig.clampPosition_neg hmax]
    have hdelta : e.cfg.clampPosition (e.wanted x.mirrored) - x.mirrored.currentPosition e.cfg =
        -(e.cfg.clampPosition (e.wanted x) - x.currentPosition e.cfg) := by
      rw [htarget, IntentInputs.currentPosition_mirrored hmax]
      ring
    refine ⟨htarget, hdelta, ?_, ?_, hcost, ?_⟩
    · simp only [settle, hdelta]
      simp only [htarget, IntentInputs.currentPosition_mirrored hmax, abs_neg]
    · simp only [settle, chooseUrgency, hdelta, abs_neg, IntentInputs.staleInventory_mirrored hmax]
      rfl
    · simp only [settle, urgencyBufferBps, hdelta, abs_neg]
      rfl

/-- Two early exits mirror each other when what is in memory does. -/
theorem flatten_mirrors_iff (hmax : 0 ≤ e.cfg.maxPosition) {out out' : PortfolioIntent}
    (hcost : out'.expectedCostBps = out.expectedCostBps) (shortfallBps : ℚ) :
    (e.flatten x out shortfallBps).Mirrors (e.flatten x.mirrored out' shortfallBps) ↔
      out'.targetGlobalPosition = -out.targetGlobalPosition := by
  refine ⟨fun h => h.target, fun htarget => ⟨htarget, ?_, ?_, rfl, hcost, rfl⟩⟩
  · simp only [flatten, IntentInputs.currentPosition_mirrored hmax]
  · simp only [flatten, IntentInputs.currentPosition_mirrored hmax, abs_neg]

/-- No buffer is that of an early exit. -/
theorem urgencyBufferBps_ne (alphaSignal : AlphaSignal) (delta : ℚ) :
    urgencyBufferBps alphaSignal delta ≠ 5 / 2 := by
  unfold urgencyBufferBps
  split_ifs <;> norm_num

theorem exitsEarly_congr (hmax : 0 ≤ e.cfg.maxPosition)
    (hneg : e.cfg.negativeReversalSignalBps = -e.cfg.positiveReversalSignalBps) :
    (e.ExitsEarly x ↔ e.ExitsEarly x.mirrored) ↔ countHealthyVenues x.venues = 0 ∨
      (e.updateRegimes x.regimeSignal).exitsAnyway x = true ∨ e.ReversesPosition x := by
  have hexits := @exits_mirrored_congr (e.updateRegimes x.regimeSignal) x hmax hneg
  by_cases hhealthy : countHealthyVenues x.venues = 0
  · exact iff_of_true (iff_of_true (Or.inl hhealthy) (Or.inl hhealthy)) (Or.inl hhealthy)
  · have hboth : countHealthyVenues x.mirrored.venues ≠ 0 := hhealthy
    unfold ExitsEarly
    rw [or_iff_right hhealthy, or_iff_right hhealthy, or_iff_right hboth]
    exact hexits

/-- **The mirrored input has the mirrored intent** exactly when a reversal finds a position to
reverse or another exit is taken anyway, an early exit finds opposite targets in memory, and
otherwise both sides do not call for an entry at once. A cap is not negative: `std::clamp` asks for
that. -/
theorem evaluate_mirrors_iff (e : PortfolioIntentEngine) (memory memory' : PortfolioIntent)
    (x : IntentInputs)
    (hneg : e.cfg.negativeReversalSignalBps = -e.cfg.positiveReversalSignalBps)
    (hmax : 0 ≤ e.cfg.maxPosition) :
    (e.evaluate memory x).2.Mirrors (e.evaluate memory' x.mirrored).2 ↔
      (countHealthyVenues x.venues = 0 ∨
        (e.updateRegimes x.regimeSignal).exitsAnyway x = true ∨ e.ReversesPosition x) ∧
      (e.ExitsEarly x → memory'.targetGlobalPosition = -memory.targetGlobalPosition) ∧
      (¬ e.ExitsEarly x → x.positiveEntry e.cfg = true → x.negativeEntry e.cfg = true →
        x.magnitude e.cfg = 0) := by
  rw [← exitsEarly_congr hmax hneg]
  by_cases hx : e.ExitsEarly x
  · obtain ⟨codes, shortfallBps, hflatten, hshortfall⟩ := e.evaluate_of_exits memory x hx
    by_cases hx' : e.ExitsEarly x.mirrored
    · obtain ⟨codes', shortfallBps', hflatten', hshortfall'⟩ :=
        e.evaluate_of_exits memory' x.mirrored hx'
      obtain rfl : shortfallBps' = shortfallBps := hshortfall'.trans hshortfall.symm
      have hmirrors := @flatten_mirrors_iff e x hmax { started memory x with reasonCodes := codes }
        { started memory' x.mirrored with reasonCodes := codes' } rfl shortfallBps'
      rw [hflatten, hflatten']
      exact hmirrors.trans ⟨fun h => ⟨iff_of_true hx hx', fun _ => h, fun h => absurd hx h⟩,
        fun h => h.2.1 hx⟩
    · -- one side exits: the shortfalls tell them apart
      obtain ⟨codes', hsettle'⟩ := e.evaluate_of_not_exits memory' x.mirrored hx'
      refine iff_of_false (fun h => ?_) fun h => hx' (h.1.mp hx)
      have hhealthy : countHealthyVenues x.venues ≠ 0 := fun h => hx' (Or.inl h)
      rw [if_neg hhealthy] at hshortfall
      have hsame := h.maxShortfall
      rw [hflatten, hsettle', hshortfall] at hsame
      exact urgencyBufferBps_ne _ _ (add_left_cancel hsame)
  · obtain ⟨codes, hsettle⟩ := e.evaluate_of_not_exits memory x hx
    by_cases hx' : e.ExitsEarly x.mirrored
    · obtain ⟨codes', shortfallBps', hflatten', hshortfall'⟩ :=
        e.evaluate_of_exits memory' x.mirrored hx'
      refine iff_of_false (fun h => ?_) fun h => hx (h.1.mpr hx')
      have hhealthy : countHealthyVenues x.mirrored.venues ≠ 0 := fun h => hx (Or.inl h)
      rw [if_neg hhealthy] at hshortfall'
      have hsame := h.maxShortfall
      rw [hsettle, hflatten', hshortfall'] at hsame
      exact urgencyBufferBps_ne _ _ (add_left_cancel hsame).symm
    · obtain ⟨codes', hsettle'⟩ := e.evaluate_of_not_exits memory' x.mirrored hx'
      have hmirrors := @settle_mirrors_iff (e.updateRegimes x.regimeSignal) x hmax
        { started memory x with reasonCodes := codes }
        { started memory' x.mirrored with reasonCodes := codes' } rfl
      rw [hsettle, hsettle']
      refine hmirrors.trans ⟨fun h => ⟨iff_of_false hx hx', fun h => absurd h hx, fun _ => h⟩,
        fun h => h.2.2 hx⟩

/-- A signal for an entry, without a position, has a mirrored one. -/
theorem entry_mirrors :
    (unitCap.evaluate (withTarget 0) (noSignal 0 5)).2.Mirrors
      (unitCap.evaluate (withTarget 0) (noSignal 0 5).mirrored).2 := by
  refine (evaluate_mirrors_iff unitCap (withTarget 0) (withTarget 0) (noSignal 0 5) rfl
    (by decide +kernel)).mpr ⟨Or.inr (Or.inr ⟨?_, ?_⟩), fun _ => rfl, fun _ _ h => ?_⟩
  · exact fun h => absurd h (by decide +kernel)
  · exact fun h => absurd h (by decide +kernel)
  · exact absurd h (by decide +kernel)

/-- **A strong signal without a position** is an entry when it is positive, and an exit when it is
negative. -/
theorem strongShort_not_mirrored :
    ¬ (unitCap.evaluate (withTarget 0) (noSignal 0 (-12))).2.Mirrors
      (unitCap.evaluate (withTarget 0) (noSignal 0 (-12)).mirrored).2 := by
  intro h
  exact absurd h.delta (by decide +kernel)

end PortfolioIntentEngine

end TradingInfrastructure
