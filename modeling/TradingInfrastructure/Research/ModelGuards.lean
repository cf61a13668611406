import Mathlib.Data.List.ReduceOption
import TradingInfrastructure.Foundations.Rearming

/-!
# The guards of a live model

`research/neural_alpha/operations/governance.py`: `DriftGuard` watches the correlation of the
signals with the outcomes over a window (the IC), `EnsembleCanary` compares the IC of an ensemble
with that of the primary model. Each is an alarm that has to be armed again (`RearmingAlarm`).

The drift guard passes over an undefined IC (`DriftGuardConfig.hysteresis`). The canary takes an
undefined one for a healthy one, so it is armed again by windows that show nothing: it re-arms on
evidence if both ICs are defined while it is disarmed (`CanaryConfig.rearms_on_evidence`).
-/

namespace TradingInfrastructure

/-! ## The windows -/

/-- What the guards have computed of their windows. -/
structure WindowStatistics (K : Type*) where
  mean : List K → K
  std : List K → K
  /-- The standard deviation with `ddof=1`. -/
  sampleStd : List K → K
  corrcoef : List K → List K → K

/-- `append` of a `deque(maxlen)`. -/
def boundedAppend {α : Type*} (maxlen : ℕ) (items : List α) (a : α) : List α :=
  (items ++ [a]).rtake maxlen

/-- `max(1, int(n))`. -/
def streakRequired (n : ℤ) : ℕ := (max 1 n).toNat

theorem one_le_streakRequired (n : ℤ) : 1 ≤ streakRequired n := by
  unfold streakRequired
  omega

theorem reduceOption_concat_some {α : Type*} (items : List (Option α)) (a : α) :
    (items ++ [some a]).reduceOption = items.reduceOption ++ [a] := by
  rw [List.reduceOption_append, List.reduceOption_singleton, Option.toList_some]

theorem reduceOption_concat_none {α : Type*} (items : List (Option α)) :
    (items ++ [none]).reduceOption = items.reduceOption := by
  rw [List.reduceOption_append, List.reduceOption_singleton, Option.toList_none, List.append_nil]

/-! ## The drift guard -/

structure DriftGuardConfig (K : Type*) where
  window : ℕ
  minSamples : ℤ
  icFloor : K
  breachStreakRequired : ℤ
  recoveryStreakRequired : ℤ
  rearmIcMargin : K

/-- `_breach_streak`, `_healthy_streak` and `_armed`. -/
structure DriftStreaks where
  breachStreak : ℕ := 0
  healthyStreak : ℕ := 0
  armed : Bool := true
  deriving DecidableEq

namespace DriftGuardConfig

-- No law of the order is used, so a NaN is a value like any other here.
variable {K : Type*} [Add K] [LT K] [LE K] [DecidableLT K] [DecidableLE K]
variable (cfg : DriftGuardConfig K)

/-- `update`, from the current IC on: the streaks, and whether the alarm is raised. -/
def observe (s : DriftStreaks) : Option K → DriftStreaks × Bool
  | none => (s, false)
  | some ic =>
    if ic < cfg.icFloor then
      let s := { s with breachStreak := s.breachStreak + 1, healthyStreak := 0 }
      if s.armed ∧ streakRequired cfg.breachStreakRequired ≤ s.breachStreak then
        ({ s with armed := false, breachStreak := 0 }, true)
      else (s, false)
    else
      let s := { s with breachStreak := 0 }
      if cfg.icFloor + cfg.rearmIcMargin ≤ ic then
        let s := { s with healthyStreak := s.healthyStreak + 1 }
        if !s.armed ∧ streakRequired cfg.recoveryStreakRequired ≤ s.healthyStreak then
          ({ s with armed := true }, false)
        else (s, false)
      else ({ s with healthyStreak := 0 }, false)

/-- The streaks after the ICs of some updates. -/
def after (ics : List (Option K)) : DriftStreaks :=
  ics.foldl (fun s ic => (cfg.observe s ic).1) {}

/-- Whether the update with an IC returns true, after those with other ICs. -/
def raises (ics : List (Option K)) (ic : Option K) : Bool := (cfg.observe (cfg.after ics) ic).2

/-- The alarm of the guard, on the ICs that are defined. -/
def alarm : RearmingAlarm K where
  bad ic := decide (ic < cfg.icFloor)
  good ic := decide (cfg.icFloor + cfg.rearmIcMargin ≤ ic)
  triggerRequired := streakRequired cfg.breachStreakRequired
  rearmRequired := streakRequired cfg.recoveryStreakRequired

end DriftGuardConfig

/-- The streaks as those of an alarm. -/
def DriftStreaks.toAlarm (s : DriftStreaks) : AlarmStreaks where
  bad := s.breachStreak
  good := s.healthyStreak
  armed := s.armed

/-- `DriftGuard`. -/
structure DriftGuard (K : Type*) where
  cfg : DriftGuardConfig K
  signals : List K := []
  outcomes : List K := []
  streaks : DriftStreaks := {}

namespace DriftGuard

variable {K : Type*} [Field K] [LinearOrder K] (np : WindowStatistics K) (g : DriftGuard K)

/-- `current_ic`. -/
def currentIc : Option K :=
  if (g.signals.length : ℤ) < g.cfg.minSamples then none
  else if np.std g.signals < 1e-9 ∨ np.std g.outcomes < 1e-9 then none
  else some (np.corrcoef g.signals g.outcomes)

/-- The two appends of `update`. -/
def append (sample : K × K) : DriftGuard K :=
  { g with
    signals := boundedAppend g.cfg.window g.signals sample.1
    outcomes := boundedAppend g.cfg.window g.outcomes sample.2 }

/-- `update`. -/
def update (sample : K × K) : DriftGuard K × Bool :=
  let g := g.append sample
  let (streaks, alarm) := g.cfg.observe g.streaks (g.currentIc np)
  ({ g with streaks := streaks }, alarm)

end DriftGuard

namespace DriftGuardConfig

variable {K : Type*} [Add K] [LT K] [LE K] [DecidableLT K] [DecidableLE K]
variable (cfg : DriftGuardConfig K)

/-- With a defined IC the guard does what its alarm does. -/
theorem observe_some (s : DriftStreaks) (ic : K) :
    (cfg.observe s (some ic)).1.toAlarm = cfg.alarm.step s.toAlarm ic ∧
      (cfg.observe s (some ic)).2 = cfg.alarm.raises s.toAlarm ic := by
  obtain ⟨breachStreak, healthyStreak, armed⟩ := s
  by_cases hbreach : ic < cfg.icFloor
  · by_cases hlong : streakRequired cfg.breachStreakRequired ≤ breachStreak + 1
    · cases armed <;> simp [observe, alarm, RearmingAlarm.step, RearmingAlarm.raises,
        DriftStreaks.toAlarm, hbreach, hlong]
    · simp [observe, alarm, RearmingAlarm.step, RearmingAlarm.raises, DriftStreaks.toAlarm,
        hbreach, hlong]
  · by_cases hhealthy : cfg.icFloor + cfg.rearmIcMargin ≤ ic
    · by_cases hlong : streakRequired cfg.recoveryStreakRequired ≤ healthyStreak + 1
      · cases armed <;> simp [observe, alarm, RearmingAlarm.step, RearmingAlarm.raises,
          DriftStreaks.toAlarm, hbreach, hhealthy, hlong]
      · simp [observe, alarm, RearmingAlarm.step, RearmingAlarm.raises, DriftStreaks.toAlarm,
          hbreach, hhealthy, hlong]
    · simp [observe, alarm, RearmingAlarm.step, RearmingAlarm.raises, DriftStreaks.toAlarm,
        hbreach, hhealthy]

theorem after_concat (ics : List (Option K)) (ic : Option K) :
    cfg.after (ics ++ [ic]) = (cfg.observe (cfg.after ics) ic).1 :=
  List.foldl_concat ..

/-- Its alarm is fed with the ICs that are defined. -/
theorem toAlarm_after (ics : List (Option K)) :
    (cfg.after ics).toAlarm = cfg.alarm.after ics.reduceOption := by
  induction ics using List.reverseRecOn with
  | nil => rfl
  | append_singleton ics ic ih =>
    rw [after_concat]
    cases ic with
    | none => rw [reduceOption_concat_none, ← ih, observe]
    | some ic =>
      rw [reduceOption_concat_some, RearmingAlarm.after_concat, ← ih]
      exact (cfg.observe_some _ ic).1

/-- It returns true if the IC is defined and raises the alarm. -/
theorem raises_iff (ics : List (Option K)) (ic : Option K) :
    cfg.raises ics ic = true ↔
      ∃ v, ic = some v ∧ cfg.alarm.raises (cfg.alarm.after ics.reduceOption) v = true := by
  cases ic with
  | none => exact iff_of_false (by simp [raises, observe]) (by simp)
  | some v =>
    rw [raises, (cfg.observe_some _ v).2, toAlarm_after]
    constructor
    · exact fun h => ⟨v, rfl, h⟩
    · rintro ⟨w, hw, h⟩
      cases hw
      exact h

/-- **The hysteresis of the drift guard.** An update that returns true ends a run of breaching ICs,
as long as it takes; between two of them there is a run of ICs that have recovered, as long as that
takes; and while it is armed the guard returns true with the IC that completes a breaching run. The
undefined ICs interrupt nothing. -/
theorem hysteresis (ics : List (Option K)) (ic : Option K) :
    (cfg.raises ics ic = true → (∃ v, ic = some v) ∧
        ∃ run, run <:+ (ics ++ [ic]).reduceOption ∧
          streakRequired cfg.breachStreakRequired ≤ run.length ∧
          ∀ v ∈ run, v < cfg.icFloor) ∧
      (cfg.raises ics ic = true → ∀ mid ic', cfg.raises (ics ++ ic :: mid) ic' = true →
        ∃ run, run <:+: mid.reduceOption ∧
          streakRequired cfg.recoveryStreakRequired ≤ run.length ∧
          ∀ v ∈ run, cfg.icFloor + cfg.rearmIcMargin ≤ v) ∧
      ((cfg.after ics).armed = true →
        (∃ run, run <:+ (ics ++ [ic]).reduceOption ∧
          streakRequired cfg.breachStreakRequired ≤ run.length ∧ ∀ v ∈ run, v < cfg.icFloor) →
        cfg.raises ics ic = true) := by
  refine ⟨fun h => ?_, fun h mid ic' h' => ?_, fun harmed hrun => ?_⟩
  · obtain ⟨v, rfl, hraises⟩ := (cfg.raises_iff ics ic).mp h
    obtain ⟨run, hsuffix, hlength, hbad⟩ :=
      (le_runLength_iff _ _ _).mp (cfg.alarm.le_runLength_of_raises hraises)
    rw [← reduceOption_concat_some] at hsuffix
    exact ⟨⟨v, rfl⟩, run, hsuffix, hlength, fun w hw => of_decide_eq_true (hbad w hw)⟩
  · obtain ⟨v, rfl, hraises⟩ := (cfg.raises_iff ics ic).mp h
    obtain ⟨w, rfl, hraises'⟩ := (cfg.raises_iff _ ic').mp h'
    rw [List.reduceOption_append, List.reduceOption_cons_of_some] at hraises'
    have hproves : AllSteps cfg.alarm.step (cfg.alarm.Proves cfg.alarm.good) {}
        (ics.reduceOption ++ v :: mid.reduceOption) :=
      allSteps_iff_forall_split.mpr fun _ _ _ _ _ _ hgood => hgood
    obtain ⟨run, hinside, hlength, hgood⟩ :=
      RearmingAlarm.exists_rearming_run hproves hraises hraises'
    exact ⟨run, hinside, hlength, fun w hw => of_decide_eq_true (hgood w hw)⟩
  · obtain ⟨run, hsuffix, hlength, hbreach⟩ := hrun
    have hlong : cfg.alarm.triggerRequired ≤
        runLength cfg.alarm.bad (ics ++ [ic]).reduceOption :=
      (le_runLength_iff _ _ _).mpr
        ⟨run, hsuffix, hlength, fun v hv => decide_eq_true (hbreach v hv)⟩
    have hrequired : 1 ≤ cfg.alarm.triggerRequired := one_le_streakRequired _
    have harmed' : (cfg.alarm.after ics.reduceOption).armed = true := by
      rw [← toAlarm_after]
      exact harmed
    rw [raises_iff]
    cases ic with
    | none =>
      -- an armed guard has no complete run behind it
      obtain ⟨hrunLength, hshort⟩ := cfg.alarm.bad_after_of_armed hrequired _ harmed'
      rw [reduceOption_concat_none] at hlong
      omega
    | some v =>
      rw [reduceOption_concat_some] at hlong
      exact ⟨v, rfl, cfg.alarm.raises_of_armed hrequired harmed' hlong⟩

end DriftGuardConfig

/-- The third breach in a row raises the alarm, with an undefined IC in between. -/
example :
    (⟨200, 60, -1 / 20, 3, 8, 1 / 50⟩ : DriftGuardConfig ℚ).raises
      [some (-1), some (-1), none] (some (-1)) = true := by
  decide +kernel

/-! ## The ensemble canary -/

structure CanaryConfig (K : Type*) where
  window : ℕ
  minSamples : ℤ
  icMargin : K
  icirFloor : K
  triggerStreakRequired : ℤ
  rearmStreakRequired : ℤ

/-- What an update finds in the windows. -/
structure CanaryStatistics (K : Type*) where
  primaryIc : Option K
  ensembleIc : Option K
  ensembleIcir : Option K
  deriving DecidableEq

/-- Whether both ICs are defined. -/
def CanaryStatistics.defined {K : Type*} (x : CanaryStatistics K) : Bool :=
  x.primaryIc.isSome && x.ensembleIc.isSome

/-- `_degradation_streak`, `_healthy_streak` and `_armed`. -/
structure CanaryStreaks where
  degradationStreak : ℕ := 0
  healthyStreak : ℕ := 0
  armed : Bool := true
  deriving DecidableEq

/-- The streaks as those of an alarm. -/
def CanaryStreaks.toAlarm (s : CanaryStreaks) : AlarmStreaks where
  bad := s.degradationStreak
  good := s.healthyStreak
  armed := s.armed

namespace CanaryConfig

variable {K : Type*} [Sub K] [LT K] [DecidableLT K] (cfg : CanaryConfig K)

/-- `_degradation_detected`. -/
def degradationDetected (x : CanaryStatistics K) : Bool :=
  match x.primaryIc, x.ensembleIc with
  | some pIc, some eIc =>
    if eIc < pIc - cfg.icMargin then true
    else
      match x.ensembleIcir with
      | some eIcir => decide (eIcir < cfg.icirFloor)
      | none => false
  | _, _ => false

/-- `update`, from the statistics on: the streaks, and whether the alarm is raised. -/
def observe (s : CanaryStreaks) (x : CanaryStatistics K) : CanaryStreaks × Bool :=
  if cfg.degradationDetected x then
    let s := { s with degradationStreak := s.degradationStreak + 1, healthyStreak := 0 }
    if s.armed ∧ streakRequired cfg.triggerStreakRequired ≤ s.degradationStreak then
      ({ s with armed := false, degradationStreak := 0 }, true)
    else (s, false)
  else
    let s := { s with healthyStreak := s.healthyStreak + 1, degradationStreak := 0 }
    if !s.armed ∧ streakRequired cfg.rearmStreakRequired ≤ s.healthyStreak then
      ({ s with armed := true }, false)
    else (s, false)

/-- The streaks after an update. -/
def step (s : CanaryStreaks) (x : CanaryStatistics K) : CanaryStreaks := (cfg.observe s x).1

/-- Whether the update with some statistics returns true, after others. -/
def raises (before : List (CanaryStatistics K)) (x : CanaryStatistics K) : Bool :=
  (cfg.observe (before.foldl cfg.step {}) x).2

/-- The alarm of the canary: whatever is no degradation is good. -/
def alarm : RearmingAlarm (CanaryStatistics K) where
  bad := cfg.degradationDetected
  good _ := true
  triggerRequired := streakRequired cfg.triggerStreakRequired
  rearmRequired := streakRequired cfg.rearmStreakRequired

end CanaryConfig

/-- `EnsembleCanary`. -/
structure EnsembleCanary (K : Type*) where
  cfg : CanaryConfig K
  primary : List K := []
  ensemble : List K := []
  outcomes : List K := []
  streaks : CanaryStreaks := {}

namespace EnsembleCanary

variable {K : Type*} [Field K] [LinearOrder K] (np : WindowStatistics K) (c : EnsembleCanary K)

/-- `_ic`. -/
def ic (signals : List K) : Option K :=
  let n := min signals.length c.outcomes.length
  if (n : ℤ) < c.cfg.minSamples then none
  else
    let sig := signals.rtake n
    let out := c.outcomes.rtake n
    if np.std sig < 1e-9 ∨ np.std out < 1e-9 then none else some (np.corrcoef sig out)

/-- `_icir`. -/
def icir (signals : List K) : Option K :=
  let n := min signals.length c.outcomes.length
  let chunk := n / 4
  if chunk < 10 then none
  else
    let ics := (List.range 4).filterMap fun i =>
      let s := ((signals.rtake n).drop (i * chunk)).take chunk
      let o := ((c.outcomes.rtake n).drop (i * chunk)).take chunk
      if np.std s > 1e-9 ∧ np.std o > 1e-9 then some (np.corrcoef s o) else none
    if ics.length < 2 then none
    else if np.sampleStd ics > 1e-9 then some (np.mean ics / np.sampleStd ics)
    else none

/-- What `_degradation_detected` looks at. -/
def statistics : CanaryStatistics K where
  primaryIc := c.ic np c.primary
  ensembleIc := c.ic np c.ensemble
  ensembleIcir := c.icir np c.ensemble

/-- The three appends of `update`. -/
def append (sample : K × K × K) : EnsembleCanary K :=
  { c with
    primary := boundedAppend c.cfg.window c.primary sample.1
    ensemble := boundedAppend c.cfg.window c.ensemble sample.2.1
    outcomes := boundedAppend c.cfg.window c.outcomes sample.2.2 }

/-- `update`. -/
def update (sample : K × K × K) : EnsembleCanary K × Bool :=
  let c := c.append sample
  let (streaks, alarm) := c.cfg.observe c.streaks (c.statistics np)
  ({ c with streaks := streaks }, alarm)

end EnsembleCanary

namespace CanaryConfig

variable {K : Type*} [Sub K] [LT K] [DecidableLT K] (cfg : CanaryConfig K)

/-- The canary does what its alarm does. -/
theorem observe_eq (s : CanaryStreaks) (x : CanaryStatistics K) :
    (cfg.observe s x).1.toAlarm = cfg.alarm.step s.toAlarm x ∧
      (cfg.observe s x).2 = cfg.alarm.raises s.toAlarm x := by
  obtain ⟨degradationStreak, healthyStreak, armed⟩ := s
  by_cases hdegraded : cfg.degradationDetected x = true
  · by_cases hlong : streakRequired cfg.triggerStreakRequired ≤ degradationStreak + 1
    · cases armed <;> simp [observe, alarm, RearmingAlarm.step, RearmingAlarm.raises,
        CanaryStreaks.toAlarm, hdegraded, hlong]
    · simp [observe, alarm, RearmingAlarm.step, RearmingAlarm.raises, CanaryStreaks.toAlarm,
        hdegraded, hlong]
  · by_cases hlong : streakRequired cfg.rearmStreakRequired ≤ healthyStreak + 1
    · cases armed <;> simp [observe, alarm, RearmingAlarm.step, RearmingAlarm.raises,
        CanaryStreaks.toAlarm, hdegraded, hlong]
    · simp [observe, alarm, RearmingAlarm.step, RearmingAlarm.raises, CanaryStreaks.toAlarm,
        hdegraded, hlong]

theorem toAlarm_foldl (inputs : List (CanaryStatistics K)) :
    (inputs.foldl cfg.step {}).toAlarm = cfg.alarm.after inputs := by
  induction inputs using List.reverseRecOn with
  | nil => rfl
  | append_singleton inputs x ih =>
    rw [List.foldl_concat, RearmingAlarm.after_concat, ← ih]
    exact (cfg.observe_eq _ x).1

theorem raises_eq (before : List (CanaryStatistics K)) (x : CanaryStatistics K) :
    cfg.raises before x = cfg.alarm.raises (cfg.alarm.after before) x := by
  rw [← toAlarm_foldl]
  exact (cfg.observe_eq _ x).2

/-- Every alarm ends a run of degraded updates, as long as it takes, and between two of them there
is a run of updates that find both ICs defined and no degradation, as long as that takes. -/
def RearmsOnEvidence (inputs : List (CanaryStatistics K)) : Prop :=
  (∀ before x after, inputs = before ++ x :: after → cfg.raises before x = true →
    ∃ run, run <:+ before ++ [x] ∧ streakRequired cfg.triggerStreakRequired ≤ run.length ∧
      ∀ y ∈ run, cfg.degradationDetected y = true) ∧
  ∀ before x mid y after, inputs = before ++ x :: mid ++ y :: after →
    cfg.raises before x = true → cfg.raises (before ++ x :: mid) y = true →
    ∃ run, run <:+: mid ∧ streakRequired cfg.rearmStreakRequired ≤ run.length ∧
      ∀ z ∈ run, z.defined = true ∧ cfg.degradationDetected z = false

/-- While the canary is disarmed, both ICs are defined. -/
def SeesWhileDisarmed (s : CanaryStreaks) (x : CanaryStatistics K) : Prop :=
  s.armed = false → x.defined = true

instance (s : CanaryStreaks) (x : CanaryStatistics K) : Decidable (SeesWhileDisarmed s x) :=
  inferInstanceAs (Decidable (_ → _))

/-- **The canary re-arms on evidence** along every run on which both ICs are defined whenever it is
disarmed. -/
theorem rearms_on_evidence {inputs : List (CanaryStatistics K)}
    (h : AllSteps cfg.step SeesWhileDisarmed {} inputs) : cfg.RearmsOnEvidence inputs := by
  have hproves : AllSteps cfg.alarm.step
      (cfg.alarm.Proves fun z => z.defined && !cfg.degradationDetected z) {} inputs := by
    rw [allSteps_iff_forall_split] at h ⊢
    intro before x after hinputs harmed hbad _
    change (cfg.alarm.after before).armed = false at harmed
    rw [← toAlarm_foldl] at harmed
    have hdefined := h before x after hinputs harmed
    have hnot : cfg.degradationDetected x = false := hbad
    simp [hdefined, hnot]
  constructor
  · intro before x after _ hx
    rw [raises_eq] at hx
    exact (le_runLength_iff _ _ _).mp (cfg.alarm.le_runLength_of_raises hx)
  · intro before x mid y after hinputs hx hy
    rw [raises_eq] at hx hy
    rw [hinputs, allSteps_append] at hproves
    obtain ⟨run, hinside, hlength, hrun⟩ :=
      RearmingAlarm.exists_rearming_run hproves.1 hx hy
    exact ⟨run, hinside, hlength, fun z hz => by simpa using hrun z hz⟩

/-- A degradation, a healthy update, and another degradation. -/
theorem rearms_on_evidence_once :
    AllSteps (step (⟨200, 60, 1 / 50, 0, 1, 1⟩ : CanaryConfig ℚ)) SeesWhileDisarmed {}
        [⟨some 1, some 0, none⟩, ⟨some 1, some 1, none⟩, ⟨some 1, some 0, none⟩] ∧
      RearmsOnEvidence (⟨200, 60, 1 / 50, 0, 1, 1⟩ : CanaryConfig ℚ)
        [⟨some 1, some 0, none⟩, ⟨some 1, some 1, none⟩, ⟨some 1, some 0, none⟩] := by
  have h : AllSteps (step (⟨200, 60, 1 / 50, 0, 1, 1⟩ : CanaryConfig ℚ)) SeesWhileDisarmed {}
      [⟨some 1, some 0, none⟩, ⟨some 1, some 1, none⟩, ⟨some 1, some 0, none⟩] := by
    decide +kernel
  exact ⟨h, rearms_on_evidence _ h⟩

/-- Eight updates with windows that have gone constant arm the canary again. -/
theorem canary_rearms_on_undefined :
    ¬ RearmsOnEvidence (⟨200, 60, 1 / 50, 0, 3, 8⟩ : CanaryConfig ℚ)
      (List.replicate 3 ⟨some 1, some 0, none⟩ ++ List.replicate 8 ⟨none, none, none⟩ ++
        List.replicate 3 ⟨some 1, some 0, none⟩) := by
  intro h
  -- whatever lies between the two alarms is undefined or degraded
  have hnone : ∀ z ∈ (List.replicate 8 ⟨none, none, none⟩ ++
      List.replicate 2 ⟨some 1, some 0, none⟩ : List (CanaryStatistics ℚ)),
      ¬ (z.defined = true ∧
        degradationDetected (⟨200, 60, 1 / 50, 0, 3, 8⟩ : CanaryConfig ℚ) z = false) := by
    decide +kernel
  obtain ⟨run, hinside, hlength, hrun⟩ := h.2 (List.replicate 2 ⟨some 1, some 0, none⟩)
    ⟨some 1, some 0, none⟩
    (List.replicate 8 ⟨none, none, none⟩ ++ List.replicate 2 ⟨some 1, some 0, none⟩)
    ⟨some 1, some 0, none⟩ [] (by decide +kernel) (by decide +kernel) (by decide +kernel)
  have hpos : 0 < run.length := (by decide +kernel : 0 < streakRequired 8).trans_le hlength
  obtain ⟨z, hz⟩ := List.exists_mem_of_length_pos hpos
  exact hnone z (hinside.subset hz) (hrun z hz)

end CanaryConfig

end TradingInfrastructure
