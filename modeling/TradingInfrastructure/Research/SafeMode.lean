import TradingInfrastructure.Foundations.Lockout
import TradingInfrastructure.Research.ShadowSession

/-!
# The safe mode of the shadow session

An alarm of a guard puts the session into safe mode for `safe_mode_ticks` inferences and rolls the
registry back, and for `safe_mode_cooldown_ticks` inferences no other alarm does. That is a lockout
(`lockout`): a tick that infers is a round of it, whose requests are the alarms of the drift guard
and of the canary (`judge_lockout`).

So a record is in safe mode exactly when one of the `safe_mode_ticks` ticks before it has rolled the
registry back, nothing is published then, and roll-backs are a cool-down apart
(`safeMode_iff_rollback`). A roll-back costs exactly `safe_mode_ticks` records in safe mode when the
cool-down is no shorter (`safeMode_cost`).
-/

namespace TradingInfrastructure

namespace NeuralAlphaShadowSession

variable {K : Type*}

/-! ## What the first half of a tick leaves alone -/

/-- The same configuration, records and counters of them. -/
structure SameLog (s t : NeuralAlphaShadowSession K) : Prop where
  cfg : t.cfg = s.cfg
  signalRecords : t.signalRecords = s.signalRecords
  sessionEventIndex : t.sessionEventIndex = s.sessionEventIndex
  gatingReasonCounts : t.gatingReasonCounts = s.gatingReasonCounts

/-- What neither fetching nor training touches. -/
structure SameRecords (s t : NeuralAlphaShadowSession K) : Prop extends SameLog s t where
  driftGuard : t.driftGuard = s.driftGuard
  safeModeTicksRemaining : t.safeModeTicksRemaining = s.safeModeTicksRemaining
  safeModeCooldownTicksRemaining :
    t.safeModeCooldownTicksRemaining = s.safeModeCooldownTicksRemaining

/-- What decides when a training is due. -/
structure TrainingSchedule where
  processedTicks : ℕ
  lastContinuous : ℕ × ℤ
  lastRegime : ℕ × ℤ
  steadyStartNs : ℤ

/-- The schedule of a session. -/
def schedule (s : NeuralAlphaShadowSession K) : TrainingSchedule where
  processedTicks := s.processedTicks
  lastContinuous := (s.lastContinuousTrainTick, s.lastContinuousTrainSteadyNs)
  lastRegime := (s.lastRegimeTrainTick, s.lastRegimeTrainSteadyNs)
  steadyStartNs := s.sessionSteadyStartNs

/-- What the guards do not touch. -/
structure SameSchedule (s t : NeuralAlphaShadowSession K) : Prop extends SameLog s t where
  schedule : t.schedule = s.schedule

variable {s t u : NeuralAlphaShadowSession K}

theorem SameLog.refl (s : NeuralAlphaShadowSession K) : SameLog s s := ⟨rfl, rfl, rfl, rfl⟩

theorem SameLog.trans (h : SameLog s t) (h' : SameLog t u) : SameLog s u where
  cfg := h'.cfg.trans h.cfg
  signalRecords := h'.signalRecords.trans h.signalRecords
  sessionEventIndex := h'.sessionEventIndex.trans h.sessionEventIndex
  gatingReasonCounts := h'.gatingReasonCounts.trans h.gatingReasonCounts

theorem SameSchedule.refl (s : NeuralAlphaShadowSession K) : SameSchedule s s :=
  ⟨SameLog.refl s, rfl⟩

theorem SameSchedule.trans (h : SameSchedule s t) (h' : SameSchedule t u) : SameSchedule s u where
  toSameLog := h.toSameLog.trans h'.toSameLog
  schedule := h'.schedule.trans h.schedule

theorem SameRecords.trans (h : SameRecords s t) (h' : SameRecords t u) : SameRecords s u where
  toSameLog := h.toSameLog.trans h'.toSameLog
  driftGuard := h'.driftGuard.trans h.driftGuard
  safeModeTicksRemaining := h'.safeModeTicksRemaining.trans h.safeModeTicksRemaining
  safeModeCooldownTicksRemaining :=
    h'.safeModeCooldownTicksRemaining.trans h.safeModeCooldownTicksRemaining

theorem trainOnRecent_same (s : NeuralAlphaShadowSession K) (outcome : TrainingOutcome) :
    SameRecords s (s.trainOnRecent outcome) := by
  unfold trainOnRecent
  cases outcome.secondary <;> exact ⟨⟨rfl, rfl, rfl, rfl⟩, rfl, rfl, rfl⟩

section Prepare

variable [Field K] [LinearOrder K] (np : WindowStatistics K)

theorem maybeContinuousTrain_same (s : NeuralAlphaShadowSession K) (now : ℤ)
    (outcome : TrainingOutcome) : SameRecords s (s.maybeContinuousTrain np now outcome).1 := by
  have h := s.trainOnRecent_same outcome
  unfold maybeContinuousTrain
  split_ifs with hdue
  · cases outcome.raised <;>
      exact ⟨⟨h.cfg, h.signalRecords, h.sessionEventIndex, h.gatingReasonCounts⟩, h.driftGuard,
        h.safeModeTicksRemaining, h.safeModeCooldownTicksRemaining⟩
  · exact ⟨⟨rfl, rfl, rfl, rfl⟩, rfl, rfl, rfl⟩

theorem maybeRegimeRetrain_same (s : NeuralAlphaShadowSession K) (now : ℤ)
    (raised : Option CString) : SameRecords s (s.maybeRegimeRetrain now raised).1 := by
  unfold maybeRegimeRetrain
  split_ifs with hdue
  · cases raised <;> exact ⟨⟨rfl, rfl, rfl, rfl⟩, rfl, rfl, rfl⟩
  · exact ⟨⟨rfl, rfl, rfl, rfl⟩, rfl, rfl, rfl⟩

/-- Fetching and training keep the records and what the guards have made of them. -/
theorem prepare_same (s : NeuralAlphaShadowSession K) (x : SessionTick K) :
    SameRecords s (s.prepare np x).1 := by
  have hring : SameRecords s (s.extendRing x.ticks) :=
    ⟨⟨rfl, rfl, rfl, rfl⟩, rfl, rfl, rfl⟩
  exact (hring.trans (maybeContinuousTrain_same np _ _ _)).trans (maybeRegimeRetrain_same _ _ _)

end Prepare

/-! ## The lockout -/

/-- The holds of the session. -/
def lockout (cfg : ShadowSessionConfig K) : Lockout where
  hold := cfg.safeModeTicks.toNat
  coolDown := cfg.safeModeCooldownTicks.toNat

/-- Its two counters. -/
def lockoutState (s : NeuralAlphaShadowSession K) : LockoutState where
  holdLeft := s.safeModeTicksRemaining.toNat
  coolLeft := s.safeModeCooldownTicksRemaining.toNat

theorem SameRecords.lockoutState_eq (h : SameRecords s t) : t.lockoutState = s.lockoutState := by
  rw [lockoutState, lockoutState, h.safeModeTicksRemaining, h.safeModeCooldownTicksRemaining]

/-- A session after some requests for safe mode, with the number of those granted. -/
def Requested (s : NeuralAlphaShadowSession K) (r : NeuralAlphaShadowSession K × ℕ) : Prop :=
  SameSchedule s r.1 ∧ ∃ n, (r.1.lockoutState, r.2) = (lockout s.cfg).requests s.lockoutState n

theorem requested_none (h : SameSchedule s t) (hstate : t.lockoutState = s.lockoutState) :
    Requested s (t, 0) :=
  ⟨h, 0, by rw [hstate]; rfl⟩

/-- Requests after others. -/
theorem Requested.add {m n : ℕ} (h : Requested s (t, m)) (h' : Requested t (u, n)) :
    Requested s (u, m + n) := by
  obtain ⟨hlog, j, hj⟩ := h
  obtain ⟨hlog', k, hk⟩ := h'
  refine ⟨hlog.trans hlog', j + k, ?_⟩
  rw [hlog.cfg] at hk
  rw [Lockout.requests_add, ← hj, ← hk]

/-- Requests of a session that differs in nothing that they touch. -/
theorem Requested.of_same {r : NeuralAlphaShadowSession K × ℕ} (h : Requested t r)
    (hlog : SameSchedule s t) (hstate : t.lockoutState = s.lockoutState) : Requested s r := by
  obtain ⟨hlog', n, hn⟩ := h
  rw [hlog.cfg, hstate] at hn
  exact ⟨hlog.trans hlog', n, hn⟩

theorem triggerSafeMode_requested (s : NeuralAlphaShadowSession K) (reason : SafeModeReason K) :
    Requested s ((s.triggerSafeMode reason).1, (s.triggerSafeMode reason).2.toNat) := by
  unfold triggerSafeMode
  by_cases hcool : 0 < s.safeModeCooldownTicksRemaining
  · rw [if_pos hcool]
    refine ⟨SameSchedule.refl s, 1, ?_⟩
    simp [hcool, Lockout.requests, Lockout.request, lockoutState]
  · rw [if_neg hcool]
    refine ⟨⟨⟨rfl, rfl, rfl, rfl⟩, rfl⟩, 1, ?_⟩
    simp [hcool, Lockout.requests, Lockout.request, lockoutState, lockout]
    omega

theorem keep_lockoutState (s : NeuralAlphaShadowSession K) (info : SessionRecord K) :
    (s.keep info).lockoutState = s.lockoutState := rfl

theorem keep_cfg (s : NeuralAlphaShadowSession K) (info : SessionRecord K) :
    (s.keep info).cfg = s.cfg := rfl

section Guards

variable [Field K] [LinearOrder K] (np : WindowStatistics K)

/-- The gates count both counters down. -/
theorem applySignalGates_lockoutState (s : NeuralAlphaShadowSession K) (raw ret1tickBps : K)
    (out : NetworkOutput K) :
    (s.applySignalGates raw ret1tickBps out).1.lockoutState = s.lockoutState.tick := by
  simp only [applySignalGates, lockoutState, LockoutState.tick,
    LockoutState.mk.injEq]
  constructor <;> split <;> simp_all <;> omega

/-- The drift guard makes at most one request. -/
theorem updateDriftGuard_requested (s : NeuralAlphaShadowSession K) (signal realised : K) :
    Requested s (s.updateDriftGuard np signal realised) := by
  unfold updateDriftGuard
  generalize s.driftGuard.update np (signal, realised) = r
  obtain ⟨guard, alarm⟩ := r
  cases alarm with
  | false => exact requested_none ⟨⟨rfl, rfl, rfl, rfl⟩, rfl⟩ rfl
  | true =>
    exact (triggerSafeMode_requested { s with driftGuard := guard } _).of_same
      ⟨⟨rfl, rfl, rfl, rfl⟩, rfl⟩ rfl

/-- So does the canary. -/
theorem updateCanary_requested (s : NeuralAlphaShadowSession K) (realised : K) :
    Requested s (s.updateCanary np realised) := by
  unfold updateCanary
  split
  · rename_i canary primary ensemble _ _ _
    generalize canary.update np (primary, ensemble, realised) = r
    obtain ⟨canary, alarm⟩ := r
    cases alarm with
    | false => exact requested_none ⟨⟨rfl, rfl, rfl, rfl⟩, rfl⟩ rfl
    | true =>
      exact (triggerSafeMode_requested { s with
        secondaryModel := false
        canary := none
        prevPrimarySignal := none
        prevEnsembleSignal := none } _).of_same ⟨⟨rfl, rfl, rfl, rfl⟩, rfl⟩ rfl
  · exact requested_none ⟨⟨rfl, rfl, rfl, rfl⟩, rfl⟩ rfl

theorem updateQualityGuards_requested (s : NeuralAlphaShadowSession K) (info : SessionRecord K) :
    Requested s (s.updateQualityGuards np info) := by
  unfold updateQualityGuards
  cases s.signalRecords.getLast? with
  | none => exact requested_none ⟨⟨rfl, rfl, rfl, rfl⟩, rfl⟩ rfl
  | some previous =>
    by_cases hmid : previous.midPrice ≤ 0
    · simp only [hmid, if_true]
      exact requested_none ⟨⟨rfl, rfl, rfl, rfl⟩, rfl⟩ rfl
    · simp only [hmid, if_false]
      exact (updateDriftGuard_requested np s _ _).add (updateCanary_requested np _ _)

/-- What the guards are given by a tick that infers. -/
theorem judge_fst (s : NeuralAlphaShadowSession K) (tick : FetchedTick K) (x : SessionTick K) :
    (s.judge np tick x).1 = ((s.infer tick x.output x.inferNowNs).1.updateQualityGuards np
      (s.infer tick x.output x.inferNowNs).2.2).1.keep (s.infer tick x.output x.inferNowNs).2.2 :=
  rfl

theorem infer_cfg (s : NeuralAlphaShadowSession K) (tick : FetchedTick K) (out : NetworkOutput K)
    (now : ℤ) : (s.infer tick out now).1.cfg = s.cfg := rfl

theorem infer_lockoutState (s : NeuralAlphaShadowSession K) (tick : FetchedTick K)
    (out : NetworkOutput K) (now : ℤ) :
    (s.infer tick out now).1.lockoutState = s.lockoutState.tick :=
  applySignalGates_lockoutState s (s.rawSignalBps out) (out.ret1tick * 10000.0) out

theorem infer_safeMode (s : NeuralAlphaShadowSession K) (tick : FetchedTick K)
    (out : NetworkOutput K) (now : ℤ) :
    (s.infer tick out now).2.2.safeMode = decide (0 < s.safeModeTicksRemaining) := rfl

/-- **A tick that infers is a round of the lockout**, and it is held when the record says so. -/
theorem judge_lockout (s : NeuralAlphaShadowSession K) (tick : FetchedTick K)
    (x : SessionTick K) : ∃ n,
      ((s.judge np tick x).1.lockoutState, (s.judge np tick x).2.rollbacks) =
          (lockout s.cfg).round s.lockoutState n ∧
        (s.judge np tick x).2.record.safeMode = decide (0 < s.lockoutState.holdLeft) := by
  obtain ⟨-, n, hn⟩ := updateQualityGuards_requested np (s.infer tick x.output x.inferNowNs).1
    (s.infer tick x.output x.inferNowNs).2.2
  rw [infer_cfg, infer_lockoutState] at hn
  refine ⟨n, ?_, ?_⟩
  · rw [judge_fst, keep_lockoutState]
    exact hn
  · show (s.infer tick x.output x.inferNowNs).2.2.safeMode = _
    rw [infer_safeMode, decide_eq_decide]
    show 0 < s.safeModeTicksRemaining ↔ 0 < s.safeModeTicksRemaining.toNat
    omega

/-- Nothing is published in safe mode. -/
theorem infer_of_safeMode (s : NeuralAlphaShadowSession K) (tick : FetchedTick K)
    (out : NetworkOutput K) (now : ℤ) (h : (s.infer tick out now).2.2.safeMode = true) :
    (s.infer tick out now).2.1.signalBps = 0 ∧ (s.infer tick out now).2.1.sizeFraction = 0 := by
  rw [infer_safeMode, decide_eq_true_iff] at h
  constructor <;> simp [infer, applySignalGates, h]

theorem judge_cfg (s : NeuralAlphaShadowSession K) (tick : FetchedTick K) (x : SessionTick K) :
    (s.judge np tick x).1.cfg = s.cfg := by
  rw [judge_fst, keep_cfg, (updateQualityGuards_requested np _ _).1.cfg, infer_cfg]

/-! ## A session -/

/-- The log of a session. -/
def log (s : NeuralAlphaShadowSession K) (xs : List (SessionTick K)) : List (LoggedTick K) :=
  (transcript (processTick np) s xs).2.filterMap TickReport.entry

/-- The session after some ticks. -/
def after (s : NeuralAlphaShadowSession K) (xs : List (SessionTick K)) :
    NeuralAlphaShadowSession K :=
  (transcript (processTick np) s xs).1

/-- What holds of a session and its log, whatever fetching and training do, and is kept by a tick
that infers, is kept along a session. -/
theorem session_induction {P : NeuralAlphaShadowSession K → List (LoggedTick K) → Prop}
    (hsame : ∀ s t log, SameRecords s t → P s log → P t log)
    (hjudge : ∀ s log tick x, P s log →
      P (s.judge np tick x).1 (log ++ [(s.judge np tick x).2]))
    {s : NeuralAlphaShadowSession K} (hs : P s []) (xs : List (SessionTick K)) :
    P (s.after np xs) (s.log np xs) := by
  refine transcript_induction (P := fun s reports => P s (reports.filterMap TickReport.entry))
    (fun s reports x h (_ : True) => ?_) hs fun _ _ => trivial
  have hprepared := hsame s _ _ (prepare_same np s x) h
  rw [List.filterMap_append]
  cases htick : (s.prepare np x).1.inferenceTick with
  | none =>
    rw [processTick_eq_none np s x htick]
    simpa using hprepared
  | some tick =>
    rw [processTick_eq_some np s x htick]
    exact hjudge _ _ tick x hprepared

/-- The number of roll-backs of each entry. -/
def rollbacks (log : List (LoggedTick K)) : List ℕ := log.map LoggedTick.rollbacks

/-- What safe mode looks like in the log: an entry is in safe mode exactly when one of the
`safe_mode_ticks` entries before it has rolled the registry back, and then it publishes nothing;
none of the entries in the cool-down before a roll-back has another one. -/
def SafeModeLog (cfg : ShadowSessionConfig K) : List (LoggedTick K) → Prop :=
  AtEach fun before entry =>
    (entry.record.safeMode = true ↔
      ∃ n ∈ (rollbacks before).rtake cfg.safeModeTicks.toNat, n ≠ 0) ∧
    (entry.record.safeMode = true →
      entry.published.signalBps = 0 ∧ entry.published.sizeFraction = 0) ∧
    (entry.rollbacks ≠ 0 → Quiet (cfg.safeModeCooldownTicks.toNat - 1) (rollbacks before))

/-- A session is at a round of its lockout, and its log shows the rounds before. -/
theorem session_lockout (cfg : ShadowSessionConfig K) (registry : ChampionChallengerRegistry)
    (steadyNs : ℤ) (model secondaryModel : Bool) (xs : List (SessionTick K)) :
    ∃ rounds,
      ((init cfg registry steadyNs model secondaryModel).after np xs).lockoutState =
          (lockout cfg).after rounds ∧
        rollbacks ((init cfg registry steadyNs model secondaryModel).log np xs) =
          (lockout cfg).granted rounds ∧
        SafeModeLog cfg ((init cfg registry steadyNs model secondaryModel).log np xs) := by
  refine (session_induction np (P := fun s log => s.cfg = cfg ∧ ∃ rounds,
    s.lockoutState = (lockout cfg).after rounds ∧ rollbacks log = (lockout cfg).granted rounds ∧
      SafeModeLog cfg log) ?_ ?_ ⟨rfl, [], rfl, rfl, atEach_nil⟩ xs).2
  · rintro s t log hsame ⟨hcfg, rounds, hstate, hgranted, hlog⟩
    exact ⟨hsame.cfg.trans hcfg, rounds, hsame.lockoutState_eq.trans hstate, hgranted, hlog⟩
  · rintro s log tick x ⟨rfl, rounds, hstate, hgranted, hlog⟩
    obtain ⟨n, hround, hheld⟩ := judge_lockout np s tick x
    rw [hstate, Lockout.after_eq, Lockout.round_counters] at hround
    obtain ⟨hnext, hrollbacks⟩ := Prod.mk.inj hround
    have hgranted' : rollbacks (log ++ [(s.judge np tick x).2]) =
        (lockout s.cfg).granted (rounds ++ [n]) := by
      rw [Lockout.granted_concat, ← hrollbacks, ← hgranted]
      exact List.map_append
    refine ⟨judge_cfg np s tick x, rounds ++ [n], ?_, hgranted',
      atEach_concat.mpr ⟨hlog, ?_, infer_of_safeMode s tick x.output x.inferNowNs, fun hne => ?_⟩⟩
    · rw [hnext, Lockout.after_eq, Lockout.granted_concat]
    · rw [hheld, decide_eq_true_iff, hstate, Lockout.after_eq, hgranted]
      exact lt_left_iff
    · have hapart := Lockout.granted_apart (l := lockout s.cfg) (rounds ++ [n])
      rw [← hgranted', rollbacks, List.map_append] at hapart
      exact (atEach_concat.mp hapart).2 hne

variable (cfg : ShadowSessionConfig K) (registry : ChampionChallengerRegistry) (steadyNs : ℤ)
variable (model secondaryModel : Bool) (xs : List (SessionTick K))

/-- **What a roll-back costs.** When the cool-down is no shorter than safe mode, every tick that
rolls the registry back costs exactly `safe_mode_ticks` records in safe mode, but for those that are
still to come. -/
theorem safeMode_cost (xs : List (SessionTick K))
    (hcool : cfg.safeModeTicks ≤ cfg.safeModeCooldownTicks) :
    let s := init cfg registry steadyNs model secondaryModel
    (s.log np xs).countP (fun entry => entry.record.safeMode) +
        (s.after np xs).safeModeTicksRemaining.toNat =
      cfg.safeModeTicks.toNat * (s.log np xs).countP fun entry => entry.rollbacks ≠ 0 := by
  intro s
  obtain ⟨rounds, hstate, hgranted, hlog⟩ :=
    session_lockout np cfg registry steadyNs model secondaryModel xs
  let rounds' : List (Bool × ℕ) :=
    (s.log np xs).map fun entry => (entry.record.safeMode, entry.rollbacks)
  have hrollbacks : rounds'.map Prod.snd = rollbacks (s.log np xs) := List.map_map
  have hheld : HeldByCounter cfg.safeModeTicks.toNat rounds' := by
    refine (atEach_map _).mpr (hlog.imp fun before entry h => ?_)
    rw [List.map_map, Bool.eq_iff_iff, h.1, decide_eq_true_iff]
    exact (@lt_left_iff cfg.safeModeTicks.toNat 0 (rollbacks before)).symm
  have hend : AtEach (fun before round => round.2 ≠ 0 →
      Quiet (cfg.safeModeTicks.toNat - 1) (before.map Prod.snd)) rounds' := by
    refine (atEach_map _).mpr (hlog.imp fun before entry h hne => ?_)
    rw [List.map_map]
    exact (h.2.2 hne).mono (by omega)
  have hcost := held_add_left hheld hend
  have hleft : (s.after np xs).safeModeTicksRemaining.toNat =
      left cfg.safeModeTicks.toNat (rounds'.map Prod.snd) := by
    rw [hrollbacks, hgranted]
    have := congrArg LockoutState.holdLeft hstate
    rw [Lockout.after_eq] at this
    exact this
  rw [hleft]
  rw [List.countP_map, List.countP_map] at hcost
  exact hcost

end Guards

/-- A configuration whose drift guard takes any window for a breach. -/
def alarmedConfig : ShadowSessionConfig ℚ where
  seqLen := 1
  drift := ⟨5, 0, 0, 1, 1, 0⟩
  canary := ⟨5, 0, 0, 0, 1, 1⟩
  safeModeTicks := 2
  safeModeCooldownTicks := 2
  extremeRiskThreshold := 1
  continuousTrainEveryTicks := 0
  continuousTrainWindowTicks := 1
  minContinuousTrainIntervalS := 0
  regimeRetrainEveryTicks := 0
  minRegimeTrainIntervalS := 0
  regimeStartupWarmupS := 0
  maxRegimeSwitchesPerMinuteForRetrain := 6
  maxIlliquidConcentrationForRetrain := 1

/-- The statistics of any window of it. -/
def alarmedWindows : WindowStatistics ℚ := ⟨fun _ => 0, fun _ => 1, fun _ => 1, fun _ _ => -1⟩

/-- A tick with a row and a signal. -/
def alarmedTick : SessionTick ℚ where
  ticks := [{ timestampNs := some 7, bestBid := some 99, bestAsk := some 101 }]
  continuousNowNs := 7
  training := ⟨false, .kept, none⟩
  regimeNowNs := 7
  regimeRaised := none
  output := ⟨1, 1, 1, 1, 0, 0, 0, 1, 0, ⟨1, 0, 0, 0⟩⟩
  inferNowNs := 7

/-- The second tick rolls the registry back, and the next two are in safe mode. -/
theorem safeMode_cost_once :
    let s := init alarmedConfig {} 0 true false
    let log := s.log alarmedWindows (List.replicate 4 alarmedTick)
    log.countP (fun entry => entry.rollbacks ≠ 0) = 1 ∧
      log.countP (fun entry => entry.record.safeMode) +
        (s.after alarmedWindows
          (List.replicate 4 alarmedTick)).safeModeTicksRemaining.toNat = 2 := by
  intro s log
  have hcost := safeMode_cost alarmedWindows alarmedConfig {} 0 true false
    (List.replicate 4 alarmedTick) (by decide)
  have honce : log.countP (fun entry => entry.rollbacks ≠ 0) = 1 := by decide +kernel
  exact ⟨honce, hcost.trans (by rw [honce]; rfl)⟩

end NeuralAlphaShadowSession

end TradingInfrastructure
