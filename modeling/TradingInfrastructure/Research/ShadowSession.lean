import TradingInfrastructure.Research.Governance
import TradingInfrastructure.Research.ModelGuards
import TradingInfrastructure.Research.RegimeInference
import TradingInfrastructure.Research.TimestampQuality

/-!
# The shadow session

`NeuralAlphaShadowSession` of `research/neural_alpha/runtime/shadow_session.py`: the body of the
loop of `run`. A tick of it extends the ring, trains when that is due, infers a signal, gates and
publishes it, hands the outcome of the signal before to the two guards, and keeps the record. A
guard that raises its alarm puts the session into safe mode and rolls the registry back.

What the networks return on the ring, the readings of the steady clock and the end of a training
are arguments of a tick, and what has been fetched is one too. The numbers have passed
`_finite_float` and `nan_to_num`, so they are finite.
-/

namespace TradingInfrastructure

/-! ## Rows and records -/

/-- A row of `_fetch_tick`, as far as the session reads it. -/
structure FetchedTick (K : Type*) where
  timestampNs : Option ℤ := none
  timestampExchangeNs : Option ℤ := none
  exchangeTimestampNs : Option ℤ := none
  timestampLocalNs : Option ℤ := none
  localTimestampNs : Option ℤ := none
  exchange : Option CString := none
  bestBid : Option K := none
  bidPrice1 : Option K := none
  bestAsk : Option K := none
  askPrice1 : Option K := none

/-- `_extract_tick_timestamps`. -/
def extractTickTimestamps {K : Type*} (tick : FetchedTick K) : ℤ × ℤ :=
  (tick.timestampExchangeNs.getD (tick.exchangeTimestampNs.getD (tick.timestampNs.getD 0)),
    tick.timestampLocalNs.getD (tick.localTimestampNs.getD (tick.timestampNs.getD 0)))

/-- `mid_price` of `_infer`. -/
def FetchedTick.midPrice {K : Type*} [Field K] (tick : FetchedTick K) : K :=
  (tick.bestBid.getD (tick.bidPrice1.getD 0) + tick.bestAsk.getD (tick.askPrice1.getD 0)) / 2.0

/-- `_GATING_KEYS`. -/
inductive GatingReason
  | confidenceGate | horizonDisagreementGate | safeModeGate
  deriving DecidableEq, Repr

/-- The reasons that `_trigger_safe_mode` is called with. -/
inductive SafeModeReason (K : Type*)
  | driftIcBreach (ic floor : Option K)
  | ensembleCanary (ensembleIc primaryIc : Option K) (margin : K)

/-- A record of `_signal_records`. -/
structure SessionRecord (K : Type*) extends SignalRecord where
  midPrice : K
  ret1tickBps : K
  ret10tickBps : K
  retMidBps : K
  retLongBps : K
  effectiveSignalBps : K
  riskScore : K
  sizeFraction : K
  horizonTicks : ℕ
  signal : K
  dirPDown : K
  dirPFlat : K
  dirPUp : K
  gated : Bool
  safeMode : Bool
  safeModeReason : Option (SafeModeReason K)
  gatingReasons : List GatingReason
  primarySignal : K
  ensembleSignal : K
  regime : RegimeProbabilities K

/-- `_ordered_records`. -/
def orderedSessionRecords {K : Type*} (records : List (SessionRecord K)) :
    List (SessionRecord K) :=
  records.mergeSort fun a b => decide (a.eventIndex < b.eventIndex ∨
    (a.eventIndex = b.eventIndex ∧ a.sessionElapsedNs ≤ b.sessionElapsedNs))

/-- What `publish` is called with. -/
structure PublishedSignal (K : Type*) where
  signalBps : K
  riskScore : K
  sizeFraction : K
  horizonTicks : ℕ

/-! ## The configuration and the session -/

/-- `ShadowSessionConfig`, as far as the loop reads it. -/
structure ShadowSessionConfig (K : Type*) where
  seqLen : ℕ
  drift : DriftGuardConfig K
  canary : CanaryConfig K
  safeModeTicks : ℤ
  safeModeCooldownTicks : ℤ
  extremeRiskThreshold : K
  continuousTrainEveryTicks : ℤ
  continuousTrainWindowTicks : ℤ
  minContinuousTrainIntervalS : ℤ
  regimeRetrainEveryTicks : ℤ
  minRegimeTrainIntervalS : ℤ
  regimeStartupWarmupS : ℤ
  maxRegimeSwitchesPerMinuteForRetrain : K
  maxIlliquidConcentrationForRetrain : K

/-- `NeuralAlphaShadowSession`. -/
structure NeuralAlphaShadowSession (K : Type*) where
  cfg : ShadowSessionConfig K
  /-- Whether `_model` is there. -/
  model : Bool
  /-- Whether `_secondary_model` is there. -/
  secondaryModel : Bool
  ring : List (FetchedTick K) := []
  signalRecords : List (SessionRecord K) := []
  driftGuard : DriftGuard K
  canary : Option (EnsembleCanary K)
  registry : ChampionChallengerRegistry
  safeModeTicksRemaining : ℤ := 0
  safeModeCooldownTicksRemaining : ℤ := 0
  safeModeReason : Option (SafeModeReason K) := none
  processedTicks : ℕ := 0
  lastContinuousTrainTick : ℕ := 0
  lastRegimeTrainTick : ℕ := 0
  sessionEventIndex : ℕ := 0
  sessionSteadyStartNs : ℤ
  lastContinuousTrainSteadyNs : ℤ
  lastRegimeTrainSteadyNs : ℤ
  prevPrimarySignal : Option K := none
  prevEnsembleSignal : Option K := none
  gatingReasonCounts : GatingReason → ℕ := fun _ => 0
  retrainFailureCounts : CString → ℕ := fun _ => 0
  regimeRetrainFailureCounts : CString → ℕ := fun _ => 0

/-- What the networks return on the ring. -/
structure NetworkOutput (K : Type*) where
  ret1tick : K
  ret10tick : K
  retMid : K
  retLong : K
  risk : K
  pDown : K
  pFlat : K
  pUp : K
  /-- The return of the secondary model for the middle horizon. -/
  secondaryRetMid : K
  /-- What `_infer_regime_probabilities` returns. -/
  regime : RegimeProbabilities K

/-- What `_train_secondary_on_data` ends with. -/
inductive SecondaryTraining
  | kept | loaded | disabled
  deriving DecidableEq

/-- How `train_on_recent` ends: whether `_model` has been replaced, what has become of the
secondary one, and the class of the exception, if there is one. -/
structure TrainingOutcome where
  primary : Bool
  secondary : SecondaryTraining
  raised : Option CString

/-- What a tick of the loop is given. -/
structure SessionTick (K : Type*) where
  /-- What `_fetch_tick` returns. -/
  ticks : List (FetchedTick K)
  /-- The clock as `_maybe_continuous_train` reads it. -/
  continuousNowNs : ℤ
  training : TrainingOutcome
  /-- The clock as `_maybe_regime_retrain` reads it. -/
  regimeNowNs : ℤ
  /-- The class of the exception of the training of the regimes, if there is one. -/
  regimeRaised : Option CString
  output : NetworkOutput K
  /-- The clock as `_infer` reads it. -/
  inferNowNs : ℤ

/-- A tick that has inferred a signal: its record, what it has published, and the calls of
`rollback_to_previous_champion`. -/
structure LoggedTick (K : Type*) where
  record : SessionRecord K
  published : PublishedSignal K
  rollbacks : ℕ

/-- What a tick does that others see. -/
structure TickReport (K : Type*) where
  published : PublishedSignal K
  entry : Option (LoggedTick K)
  /-- The ticks and the clock of a training that has ended well. -/
  trained : Option (ℕ × ℤ)
  /-- The same for a training of the regimes. -/
  regimeTrained : Option (ℕ × ℤ)

namespace NeuralAlphaShadowSession

section Model

variable {K : Type*} [Field K] [LinearOrder K]

/-- `max(items, key=f)` and `np.argmax`: the first of the largest. -/
def firstArgmax {α : Type*} (f : α → K) (x : α) (items : List α) : α :=
  items.foldl (fun best y => if f best < f y then y else best) x

/-- `_DIRECTION_GATE`. -/
def directionGate : K := 0.55

/-- `_NOTIONAL_SCALE_BUCKETS`. -/
def notionalScaleBuckets : List (K × K) := [(0.90, 1.0), (0.75, 0.35), (0.60, 0.15), (0.0, 0.05)]

/-- `_confidence_scale`. -/
def confidenceScale (confidence : K) : K :=
  ((notionalScaleBuckets.find? fun bucket => decide (bucket.1 ≤ confidence)).map
    Prod.snd).getD 0.05

/-- The session of `__init__`. The session has a canary when `load_secondary_model` has run. -/
def init (cfg : ShadowSessionConfig K) (registry : ChampionChallengerRegistry) (steadyNs : ℤ)
    (model secondaryModel : Bool) : NeuralAlphaShadowSession K where
  cfg
  model
  secondaryModel
  driftGuard := { cfg := cfg.drift }
  canary := if secondaryModel then some { cfg := cfg.canary } else none
  registry
  sessionSteadyStartNs := steadyNs
  lastContinuousTrainSteadyNs := steadyNs
  lastRegimeTrainSteadyNs := steadyNs

variable (np : WindowStatistics K) (s : NeuralAlphaShadowSession K)

/-- `_max_ring`. -/
def maxRing (cfg : ShadowSessionConfig K) : ℕ := max 500 (cfg.seqLen * 2)

/-- The ring and the count of the ticks, at the head of the loop. -/
def extendRing (ticks : List (FetchedTick K)) : NeuralAlphaShadowSession K :=
  let ring := s.ring ++ ticks
  { s with
    ring := if maxRing s.cfg < ring.length then ring.rtake (maxRing s.cfg) else ring
    processedTicks := s.processedTicks + ticks.length }

/-! ## Training -/

/-- The most likely regime of a record, by its place among the four. -/
def dominantRegime (record : SessionRecord K) : ℕ :=
  firstArgmax (fun i => record.regime.values.getD i 0) 0 [1, 2, 3]

/-- `change_count` of `_summarise_regime_churn`. -/
def regimeChanges (records : List (SessionRecord K)) : ℕ :=
  (records.foldl (fun (r : Option ℕ × ℕ) record =>
    (some (dominantRegime record),
      if r.1.any fun previous => dominantRegime record ≠ previous then r.2 + 1 else r.2))
    (none, 0)).2

/-- `switches_per_minute` of `_summarise_regime_churn`. -/
def switchesPerMinute (records : List (SessionRecord K)) : K :=
  let ordered := orderedSessionRecords records
  match ordered.head?, ordered.getLast? with
  | some first, some last =>
    let elapsedMin :=
      max (((last.sessionElapsedNs - first.sessionElapsedNs : ℤ) : K) / 60000000000.0) 1e-9
    regimeChanges ordered / elapsedMin
  | _, _ => 0

/-- `train_window`. -/
def trainWindow (cfg : ShadowSessionConfig K) : ℤ :=
  max (cfg.seqLen * 4) cfg.continuousTrainWindowTicks

/-- Why `_continuous_retrain_guard` refuses. -/
inductive RetrainRefusal
  | tsQualityWarn | regimeSwitchRateHigh | illiquidConcentrationHigh
  deriving DecidableEq

/-- `_continuous_retrain_guard`. -/
def continuousRetrainGuard : Option RetrainRefusal :=
  let diagnostics := (summariseTimestampQuality (s.signalRecords.map (·.toSignalRecord))).1
  if 0 < diagnostics.exchangeMissing ∨ 0 < diagnostics.localMissing ∨
      0 < diagnostics.exchangeNonMonotonic ∨ 0 < diagnostics.localNonMonotonic ∨
      0 < diagnostics.eventIndexNonMonotonic then some .tsQualityWarn
  else if s.cfg.maxRegimeSwitchesPerMinuteForRetrain < switchesPerMinute s.signalRecords then
    some .regimeSwitchRateHigh
  else
    let windowRecords :=
      if 0 < trainWindow s.cfg then s.signalRecords.rtake (trainWindow s.cfg).toNat
      else s.signalRecords
    if windowRecords ≠ [] ∧ s.cfg.maxIlliquidConcentrationForRetrain <
        np.mean (windowRecords.map fun record => record.regime.pIlliquid) then
      some .illiquidConcentrationHigh
    else none

/-- `_reset_canary`. -/
def resetCanary : NeuralAlphaShadowSession K :=
  { s with
    canary := some { cfg := s.cfg.canary }
    prevPrimarySignal := none
    prevEnsembleSignal := none }

/-- The models after `train_on_recent`. -/
def trainOnRecent (outcome : TrainingOutcome) : NeuralAlphaShadowSession K :=
  let s := { s with model := s.model || outcome.primary }
  match outcome.secondary with
  | .kept => s
  | .loaded => resetCanary { s with secondaryModel := true }
  | .disabled => { s with secondaryModel := false, canary := none }

/-- Whole seconds since a reading of the clock have passed. -/
def elapsed (now last seconds : ℤ) : Bool :=
  decide (((now - last : ℤ) : K) / 1000000000.0 ≥ (seconds : K))

/-- Whether `_maybe_continuous_train` gets to the training. -/
def continuousTrainDue (now : ℤ) : Bool :=
  decide (0 < s.cfg.continuousTrainEveryTicks) &&
    decide (s.cfg.continuousTrainEveryTicks ≤
      (s.processedTicks : ℤ) - s.lastContinuousTrainTick) &&
    elapsed (K := K) now s.lastContinuousTrainSteadyNs s.cfg.minContinuousTrainIntervalS &&
    (s.continuousRetrainGuard np).isNone

/-- `_maybe_continuous_train`, with the training that has ended well. -/
def maybeContinuousTrain (now : ℤ) (outcome : TrainingOutcome) :
    NeuralAlphaShadowSession K × Option (ℕ × ℤ) :=
  if s.continuousTrainDue np now then
    let t := s.trainOnRecent outcome
    match outcome.raised with
    | none =>
      ({ t with
        lastContinuousTrainTick := t.processedTicks
        lastContinuousTrainSteadyNs := now }, some (t.processedTicks, now))
    | some exc =>
      ({ t with
        retrainFailureCounts :=
          Function.update t.retrainFailureCounts exc (t.retrainFailureCounts exc + 1) }, none)
  else (s, none)

/-- Whether `_maybe_regime_retrain` gets to the training. -/
def regimeRetrainDue (now : ℤ) : Bool :=
  decide (0 < s.cfg.regimeRetrainEveryTicks) &&
    decide (s.cfg.regimeRetrainEveryTicks ≤ (s.processedTicks : ℤ) - s.lastRegimeTrainTick) &&
    elapsed (K := K) now s.sessionSteadyStartNs s.cfg.regimeStartupWarmupS &&
    elapsed (K := K) now s.lastRegimeTrainSteadyNs s.cfg.minRegimeTrainIntervalS

/-- `_maybe_regime_retrain`, with the training that has ended well. -/
def maybeRegimeRetrain (now : ℤ) (raised : Option CString) :
    NeuralAlphaShadowSession K × Option (ℕ × ℤ) :=
  if s.regimeRetrainDue now then
    match raised with
    | none =>
      ({ s with
        lastRegimeTrainTick := s.processedTicks
        lastRegimeTrainSteadyNs := now }, some (s.processedTicks, now))
    | some exc =>
      ({ s with
        regimeRetrainFailureCounts :=
          Function.update s.regimeRetrainFailureCounts exc
            (s.regimeRetrainFailureCounts exc + 1) }, none)
  else (s, none)

/-! ## Inference -/

/-- The gate of the direction: the signal is on a side that is not likely enough. -/
def confidenceGated (signalBps : K) (out : NetworkOutput K) : Bool :=
  decide (0 < signalBps ∧ out.pUp ≤ directionGate) ||
    decide (signalBps < 0 ∧ out.pDown ≤ directionGate)

/-- The gate of the horizons: the next tick goes against the signal. -/
def horizonGated (signalBps ret1tickBps : K) : Bool :=
  decide (0 < signalBps ∧ ret1tickBps < 0) || decide (signalBps < 0 ∧ 0 < ret1tickBps)

/-- What `_apply_signal_gates` returns. -/
structure GatedSignal (K : Type*) where
  signalBps : K
  sizeScale : K
  gatingReasons : List GatingReason
  safeModeActive : Bool

/-- `_apply_signal_gates`. -/
def applySignalGates (rawSignalBps ret1tickBps : K) (out : NetworkOutput K) :
    NeuralAlphaShadowSession K × GatedSignal K :=
  let confidence := confidenceGated rawSignalBps out
  let horizon := horizonGated rawSignalBps ret1tickBps
  let safeMode := decide (0 < s.safeModeTicksRemaining)
  let extreme := decide (s.cfg.extremeRiskThreshold ≤ out.risk)
  let confidenceFactor :=
    if confidence then confidenceScale (if 0 < rawSignalBps then out.pUp else out.pDown) else 1
  let horizonFactor : K := if horizon then 0.35 else 1
  let gatingReasons := (if confidence then [GatingReason.confidenceGate] else []) ++
    (if horizon then [GatingReason.horizonDisagreementGate] else []) ++
    (if safeMode then [GatingReason.safeModeGate] else [])
  ({ s with
      safeModeTicksRemaining :=
        if safeMode then s.safeModeTicksRemaining - 1 else s.safeModeTicksRemaining
      safeModeCooldownTicksRemaining :=
        if 0 < s.safeModeCooldownTicksRemaining then s.safeModeCooldownTicksRemaining - 1
        else s.safeModeCooldownTicksRemaining
      gatingReasonCounts := fun reason =>
        s.gatingReasonCounts reason + if reason ∈ gatingReasons then 1 else 0 },
    { signalBps := if safeMode || extreme then 0 else rawSignalBps
      sizeScale := if safeMode || extreme then 0 else 1 * confidenceFactor * horizonFactor
      gatingReasons
      safeModeActive := safeMode })

/-- `np.clip(v, 0.0, 1.0)`. -/
def clipUnit (v : K) : K := min 1 (max 0 v)

/-- `raw_signal_bps`, with the secondary model when there is one. -/
def rawSignalBps (out : NetworkOutput K) : K :=
  if s.secondaryModel then (out.retMid * 10000.0 + out.secondaryRetMid * 10000.0) / 2.0
  else out.retMid * 10000.0

/-- `selected_horizon_ticks`. -/
def selectedHorizonTicks (out : NetworkOutput K) : ℕ :=
  (firstArgmax (fun r : K × ℕ => |r.1|) (out.ret1tick, 1)
    [(out.ret10tick, 10), (out.retMid, 100), (out.retLong, 500)]).2

/-- `_infer`, when the model is there and the ring is long enough: the session, what is published
and the record. -/
def infer (tick : FetchedTick K) (out : NetworkOutput K) (now : ℤ) :
    NeuralAlphaShadowSession K × PublishedSignal K × SessionRecord K :=
  let raw := s.rawSignalBps out
  let ret1tickBps := out.ret1tick * 10000.0
  let (t, gate) := s.applySignalGates raw ret1tickBps out
  let sizeFraction := if gate.signalBps = 0 then 0 else clipUnit (1 - out.risk) * gate.sizeScale
  let horizonTicks := selectedHorizonTicks out
  let (exchangeTs, localTs) := extractTickTimestamps tick
  let t := { t with sessionEventIndex := t.sessionEventIndex + 1 }
  (t, ⟨gate.signalBps, out.risk, sizeFraction, horizonTicks⟩,
    { timestampExchangeNs := exchangeTs
      timestampLocalNs := localTs
      eventIndex := t.sessionEventIndex
      sessionElapsedNs := now - t.sessionSteadyStartNs
      exchange := tick.exchange.getD "BINANCE".toList
      midPrice := tick.midPrice
      ret1tickBps
      ret10tickBps := out.ret10tick * 10000.0
      retMidBps := out.retMid * 10000.0
      retLongBps := out.retLong * 10000.0
      effectiveSignalBps := gate.signalBps * gate.sizeScale
      riskScore := out.risk
      sizeFraction
      horizonTicks
      signal := out.retMid
      dirPDown := out.pDown
      dirPFlat := out.pFlat
      dirPUp := out.pUp
      gated := !gate.gatingReasons.isEmpty
      safeMode := gate.safeModeActive
      safeModeReason := if gate.safeModeActive then t.safeModeReason else none
      gatingReasons := gate.gatingReasons
      primarySignal := out.retMid
      ensembleSignal := raw / 10000.0
      regime := out.regime })

/-! ## The guards -/

/-- `_trigger_safe_mode`, and whether it has called `rollback_to_previous_champion`. The champion
that is loaded again takes the place of a model that is there. -/
def triggerSafeMode (reason : SafeModeReason K) : NeuralAlphaShadowSession K × Bool :=
  if 0 < s.safeModeCooldownTicksRemaining then (s, false)
  else
    ({ s with
      safeModeTicksRemaining := max s.safeModeTicksRemaining s.cfg.safeModeTicks
      safeModeCooldownTicksRemaining := s.cfg.safeModeCooldownTicks
      safeModeReason := some reason
      registry := s.registry.rollbackToPreviousChampion.2 }, true)

/-- `_unload_secondary_model`. -/
def unloadSecondaryModel (reason : SafeModeReason K) : NeuralAlphaShadowSession K × Bool :=
  triggerSafeMode { s with
    secondaryModel := false
    canary := none
    prevPrimarySignal := none
    prevEnsembleSignal := none } reason

/-- The drift guard of `_update_quality_guards`, with the number of rollbacks. -/
def updateDriftGuard (signal realised : K) : NeuralAlphaShadowSession K × ℕ :=
  let (guard, alarm) := s.driftGuard.update np (signal, realised)
  let s := { s with driftGuard := guard }
  if alarm then
    let (s, acted) := s.triggerSafeMode (.driftIcBreach (guard.currentIc np) s.cfg.drift.icFloor)
    (s, acted.toNat)
  else (s, 0)

/-- The canary of `_update_quality_guards`, with the number of rollbacks. -/
def updateCanary (realised : K) : NeuralAlphaShadowSession K × ℕ :=
  match s.canary, s.prevPrimarySignal, s.prevEnsembleSignal with
  | some canary, some primary, some ensemble =>
    let (canary, alarm) := canary.update np (primary, ensemble, realised)
    let s := { s with canary := some canary }
    if alarm then
      let (s, acted) := s.unloadSecondaryModel
        (.ensembleCanary (canary.ic np canary.ensemble) (canary.ic np canary.primary)
          s.cfg.canary.icMargin)
      (s, acted.toNat)
    else (s, 0)
  | _, _, _ => (s, 0)

/-- `_update_quality_guards`, with the number of rollbacks. -/
def updateQualityGuards (info : SessionRecord K) : NeuralAlphaShadowSession K × ℕ :=
  match s.signalRecords.getLast? with
  | none => (s, 0)
  | some previous =>
    if previous.midPrice ≤ 0 then (s, 0)
    else
      let realised := (info.midPrice - previous.midPrice) / previous.midPrice
      let (s, drift) := s.updateDriftGuard np previous.signal realised
      let (s, canary) := s.updateCanary np realised
      (s, drift + canary)

/-- What `run` does with the record of `_infer`. -/
def keep (info : SessionRecord K) : NeuralAlphaShadowSession K :=
  { s with
    prevPrimarySignal := some info.primarySignal
    prevEnsembleSignal := some info.ensembleSignal
    signalRecords := s.signalRecords ++ [info] }

/-- Fetching and training: the first half of the loop of `run`. -/
def prepare (x : SessionTick K) :
    NeuralAlphaShadowSession K × Option (ℕ × ℤ) × Option (ℕ × ℤ) :=
  let trained := (s.extendRing x.ticks).maybeContinuousTrain np x.continuousNowNs x.training
  let retrained := trained.1.maybeRegimeRetrain x.regimeNowNs x.regimeRaised
  (retrained.1, trained.2, retrained.2)

/-- Inference, the guards and the record: the second half of the loop of `run`, with the entry of
the log. -/
def judge (tick : FetchedTick K) (x : SessionTick K) : NeuralAlphaShadowSession K × LoggedTick K :=
  let inferred := s.infer tick x.output x.inferNowNs
  let guarded := inferred.1.updateQualityGuards np inferred.2.2
  (guarded.1.keep inferred.2.2, ⟨inferred.2.2, inferred.2.1, guarded.2⟩)

/-- The tick that the inputs of the networks end with, if the model is there and the ring is long
enough. -/
def inferenceTick : Option (FetchedTick K) :=
  if s.model ∧ s.cfg.seqLen ≤ s.ring.length then s.ring.getLast? else none

/-- The body of the loop of `run`. -/
def processTick (x : SessionTick K) : NeuralAlphaShadowSession K × TickReport K :=
  let prepared := s.prepare np x
  match prepared.1.inferenceTick with
  | none => (prepared.1, ⟨⟨0, 0, 0, 0⟩, none, prepared.2.1, prepared.2.2⟩)
  | some tick =>
    let judged := prepared.1.judge np tick x
    (judged.1, ⟨judged.2.published, some judged.2, prepared.2.1, prepared.2.2⟩)

/-- A tick that has nothing to infer from, and one that infers. -/
theorem processTick_eq_none (x : SessionTick K) (h : (s.prepare np x).1.inferenceTick = none) :
    s.processTick np x =
      ((s.prepare np x).1, ⟨⟨0, 0, 0, 0⟩, none, (s.prepare np x).2.1, (s.prepare np x).2.2⟩) := by
  simp only [processTick, h]

theorem processTick_eq_some (x : SessionTick K) {tick : FetchedTick K}
    (h : (s.prepare np x).1.inferenceTick = some tick) :
    s.processTick np x =
      (((s.prepare np x).1.judge np tick x).1,
        ⟨((s.prepare np x).1.judge np tick x).2.published,
          some ((s.prepare np x).1.judge np tick x).2, (s.prepare np x).2.1,
          (s.prepare np x).2.2⟩) := by
  simp only [processTick, h]

end Model

end NeuralAlphaShadowSession

end TradingInfrastructure
