import TradingInfrastructure.Research.SafeMode

/-!
# The records of the shadow session

What the records of a session say of the session. They are numbered from one, and the counters of
the gates that the summary prints are counts of them (`session_records`). The drift guard has been
fed with every record and the outcome its successor shows; the report of the session correlates the
same pairs, unless a positive mid price is followed by one that is not (`driftGuard_fed`). The
canary is there as long as the secondary model is, and has been fed with the records since it was
reset (`canary_fed`).

Two trainings that end well are apart in ticks and in time (`trainings_apart`).
-/

namespace TradingInfrastructure

namespace NeuralAlphaShadowSession

variable {K : Type*} [Field K] [LinearOrder K] (np : WindowStatistics K)

/-! ## The numbers and the counters -/

/-- The guards of a tick keep the records and their counters as `_infer` leaves them. -/
theorem judge_same (s : NeuralAlphaShadowSession K) (tick : FetchedTick K) (x : SessionTick K) :
    SameSchedule (s.infer tick x.output x.inferNowNs).1
      ((s.infer tick x.output x.inferNowNs).1.updateQualityGuards np
        (s.infer tick x.output x.inferNowNs).2.2).1 :=
  (updateQualityGuards_requested np _ _).1

theorem judge_signalRecords (s : NeuralAlphaShadowSession K) (tick : FetchedTick K)
    (x : SessionTick K) :
    (s.judge np tick x).1.signalRecords = s.signalRecords ++ [(s.judge np tick x).2.record] :=
  congrArg (· ++ [(s.judge np tick x).2.record]) (judge_same np s tick x).signalRecords

theorem judge_sessionEventIndex (s : NeuralAlphaShadowSession K) (tick : FetchedTick K)
    (x : SessionTick K) : (s.judge np tick x).1.sessionEventIndex = s.sessionEventIndex + 1 :=
  (judge_same np s tick x).sessionEventIndex

theorem judge_eventIndex (s : NeuralAlphaShadowSession K) (tick : FetchedTick K)
    (x : SessionTick K) : (s.judge np tick x).2.record.eventIndex = s.sessionEventIndex + 1 :=
  rfl

theorem judge_gatingReasonCounts (s : NeuralAlphaShadowSession K) (tick : FetchedTick K)
    (x : SessionTick K) (reason : GatingReason) :
    (s.judge np tick x).1.gatingReasonCounts reason = s.gatingReasonCounts reason +
      if reason ∈ (s.judge np tick x).2.record.gatingReasons then 1 else 0 :=
  congrFun (judge_same np s tick x).gatingReasonCounts reason

/-- The records of a log. -/
def records (log : List (LoggedTick K)) : List (SessionRecord K) := log.map LoggedTick.record

variable (cfg : ShadowSessionConfig K) (registry : ChampionChallengerRegistry) (steadyNs : ℤ)
variable (model secondaryModel : Bool) (xs : List (SessionTick K))

/-- The records are those of the log, numbered from one. -/
theorem records_numbered :
    let s := init cfg registry steadyNs model secondaryModel
    (s.after np xs).signalRecords = records (s.log np xs) ∧
      (s.after np xs).sessionEventIndex = (s.log np xs).length ∧
      AtEach (fun before record => record.eventIndex = (before.length : ℤ) + 1)
        (records (s.log np xs)) := by
  refine session_induction np (P := fun s log => s.signalRecords = records log ∧
    s.sessionEventIndex = log.length ∧
    AtEach (fun before record => record.eventIndex = (before.length : ℤ) + 1) (records log))
    ?_ ?_ ?_ xs
  · rintro s t log hsame ⟨hrecords, hindex, hnumbers⟩
    exact ⟨hsame.signalRecords.trans hrecords, hsame.sessionEventIndex.trans hindex, hnumbers⟩
  · rintro s log tick x ⟨hrecords, hindex, hnumbers⟩
    have hlog : records (log ++ [(s.judge np tick x).2]) =
        records log ++ [(s.judge np tick x).2.record] := List.map_append
    rw [hlog]
    refine ⟨?_, ?_, atEach_concat.mpr ⟨hnumbers, ?_⟩⟩
    · rw [judge_signalRecords, hrecords]
    · rw [judge_sessionEventIndex, hindex, List.length_append, List.length_singleton]
    · rw [judge_eventIndex, hindex, records, List.length_map]
  · exact ⟨rfl, rfl, atEach_nil⟩

/-- **The records of a session** are those of its log, numbered from one, and the counter of a gate
is the number of records that it has gated. -/
theorem session_records (xs : List (SessionTick K)) :
    let s := init cfg registry steadyNs model secondaryModel
    (s.after np xs).signalRecords = records (s.log np xs) ∧
      (s.after np xs).sessionEventIndex = (s.log np xs).length ∧
      AtEach (fun before record => record.eventIndex = (before.length : ℤ) + 1)
        (records (s.log np xs)) ∧
      ∀ reason, (s.after np xs).gatingReasonCounts reason =
        (records (s.log np xs)).countP fun record => reason ∈ record.gatingReasons := by
  intro s
  obtain ⟨hrecords, hindex, hnumbers⟩ :=
    records_numbered np cfg registry steadyNs model secondaryModel xs
  refine ⟨hrecords, hindex, hnumbers, ?_⟩
  refine session_induction np (P := fun s log => ∀ reason, s.gatingReasonCounts reason =
    (records log).countP fun record => reason ∈ record.gatingReasons) ?_ ?_ ?_ xs
  · intro s t log hsame hcounts reason
    rw [hsame.gatingReasonCounts]
    exact hcounts reason
  · intro s log tick x hcounts reason
    have hlog : records (log ++ [(s.judge np tick x).2]) =
        records log ++ [(s.judge np tick x).2.record] := List.map_append
    rw [hlog, judge_gatingReasonCounts, hcounts, List.countP_append, List.countP_singleton]
    simp
  · exact fun reason => rfl

/-! ## The drift guard -/

/-- The sample that `_update_quality_guards` makes of a record and its successor. -/
def onlineSample (pair : SessionRecord K × SessionRecord K) : Option (K × K) :=
  if pair.1.midPrice ≤ 0 then none
  else some (pair.1.signal, (pair.2.midPrice - pair.1.midPrice) / pair.1.midPrice)

/-- The pair that `_build_signal_alignment` makes of them. -/
def alignedSample (pair : SessionRecord K × SessionRecord K) : Option (K × K) :=
  if pair.1.midPrice ≤ 0 ∨ pair.2.midPrice ≤ 0 then none
  else some (pair.1.signal, (pair.2.midPrice - pair.1.midPrice) / pair.1.midPrice)

/-- `_build_signal_alignment`: the signals with their outcomes. -/
def buildSignalAlignment (records : List (SessionRecord K)) : List (K × K) :=
  (neighbours (orderedSessionRecords records)).filterMap alignedSample

/-- The drift guard after some samples. -/
def driftGuardAfter (cfg : ShadowSessionConfig K) (samples : List (K × K)) : DriftGuard K :=
  samples.foldl (fun g sample => (g.update np sample).1) { cfg := cfg.drift }

theorem triggerSafeMode_driftGuard {K : Type*} (s : NeuralAlphaShadowSession K)
    (reason : SafeModeReason K) : (s.triggerSafeMode reason).1.driftGuard = s.driftGuard := by
  unfold triggerSafeMode
  split_ifs <;> rfl

theorem updateDriftGuard_driftGuard (s : NeuralAlphaShadowSession K) (signal realised : K) :
    (s.updateDriftGuard np signal realised).1.driftGuard =
      (s.driftGuard.update np (signal, realised)).1 := by
  unfold updateDriftGuard
  generalize s.driftGuard.update np (signal, realised) = r
  obtain ⟨guard, alarm⟩ := r
  cases alarm with
  | false => rfl
  | true => exact triggerSafeMode_driftGuard { s with driftGuard := guard } _

theorem updateCanary_driftGuard (s : NeuralAlphaShadowSession K) (realised : K) :
    (s.updateCanary np realised).1.driftGuard = s.driftGuard := by
  unfold updateCanary
  split
  · rename_i canary primary ensemble _ _ _
    generalize canary.update np (primary, ensemble, realised) = r
    obtain ⟨canary, alarm⟩ := r
    cases alarm with
    | false => rfl
    | true => exact triggerSafeMode_driftGuard _ _
  · rfl

/-- The guards make one sample of the last record and the new one, if they make any. -/
theorem updateQualityGuards_driftGuard (s : NeuralAlphaShadowSession K) (info : SessionRecord K) :
    (s.updateQualityGuards np info).1.driftGuard =
      ((s.signalRecords.getLast?.map fun last => (last, info)).toList.filterMap
        onlineSample).foldl (fun g sample => (g.update np sample).1) s.driftGuard := by
  unfold updateQualityGuards
  cases s.signalRecords.getLast? with
  | none => rfl
  | some last =>
    by_cases hmid : last.midPrice ≤ 0
    · simp [onlineSample, hmid]
    · simp [onlineSample, hmid, updateCanary_driftGuard, updateDriftGuard_driftGuard]

/-- A session feeds the drift guard with the samples of its records. -/
theorem driftGuard_eq :
    let s := init cfg registry steadyNs model secondaryModel
    (s.after np xs).driftGuard =
      driftGuardAfter np cfg ((neighbours (s.after np xs).signalRecords).filterMap onlineSample) := by
  refine session_induction np (P := fun s log => s.driftGuard =
    driftGuardAfter np cfg ((neighbours s.signalRecords).filterMap onlineSample)) ?_ ?_ rfl xs
  · intro s t log hsame h
    rw [hsame.driftGuard, hsame.signalRecords]
    exact h
  · intro s log tick x h
    have hinfer : (s.infer tick x.output x.inferNowNs).1.signalRecords = s.signalRecords := rfl
    have hguard : (s.infer tick x.output x.inferNowNs).1.driftGuard = s.driftGuard := rfl
    have hnext := updateQualityGuards_driftGuard np (s.infer tick x.output x.inferNowNs).1
      (s.infer tick x.output x.inferNowNs).2.2
    rw [hinfer, hguard, h] at hnext
    rw [judge_signalRecords, neighbours_concat, List.filterMap_append, driftGuardAfter,
      List.foldl_append]
    exact hnext

/-- Records numbered from one are in the order of their numbers. -/
theorem orderedSessionRecords_eq {K : Type*} {records : List (SessionRecord K)}
    (h : AtEach (fun before record => record.eventIndex = (before.length : ℤ) + 1) records) :
    orderedSessionRecords records = records := by
  have hsorted : (∀ record ∈ records, record.eventIndex ≤ records.length) ∧
      records.Pairwise fun a b => a.eventIndex < b.eventIndex := by
    induction records using List.reverseRecOn with
    | nil => simp
    | append_singleton records record ih =>
      obtain ⟨hrecords, hrecord⟩ := atEach_concat.mp h
      obtain ⟨hle, hlt⟩ := ih hrecords
      constructor
      · intro r hr
        rw [List.length_append, List.length_singleton]
        rcases List.mem_append.mp hr with hr | hr
        · have := hle r hr
          omega
        · rw [List.mem_singleton.mp hr]
          omega
      · refine List.pairwise_append.mpr ⟨hlt, List.pairwise_singleton _ _, fun a ha b hb => ?_⟩
        have := hle a ha
        rw [List.mem_singleton.mp hb]
        omega
  refine List.mergeSort_of_pairwise (hsorted.2.imp fun hlt => ?_)
  exact decide_eq_true (Or.inl hlt)

/-- **What the drift guard is fed with.** In every session the drift guard is a new one that has been
given a sample for every record with a successor. These are the pairs that the report of the session
correlates exactly when no positive mid price is followed by one that is not. -/
theorem driftGuard_fed (xs : List (SessionTick K)) :
    let s := init cfg registry steadyNs model secondaryModel
    let records := (s.after np xs).signalRecords
    let samples := (neighbours records).filterMap onlineSample
    (s.after np xs).driftGuard = driftGuardAfter np cfg samples ∧
      (samples = buildSignalAlignment records ↔
        ∀ pair ∈ neighbours records, 0 < pair.1.midPrice → 0 < pair.2.midPrice) := by
  intro s records samples
  refine ⟨driftGuard_eq np cfg registry steadyNs model secondaryModel xs, ?_⟩
  obtain ⟨hrecords, -, hnumbers⟩ :=
    records_numbered np cfg registry steadyNs model secondaryModel xs
  rw [← hrecords] at hnumbers
  have hordered : orderedSessionRecords records = records := orderedSessionRecords_eq hnumbers
  have hfewer : ∀ pair : SessionRecord K × SessionRecord K,
      alignedSample pair = onlineSample pair ∨ alignedSample pair = none := by
    intro pair
    by_cases hnext : pair.2.midPrice ≤ 0
    · exact .inr (by simp [alignedSample, hnext])
    · exact .inl (by simp [alignedSample, onlineSample, hnext])
  rw [buildSignalAlignment, hordered, filterMap_eq_iff hfewer]
  refine forall₂_congr fun pair _ => ?_
  by_cases hmid : pair.1.midPrice ≤ 0
  · simp [alignedSample, onlineSample, hmid]
  · by_cases hnext : pair.2.midPrice ≤ 0
    · simp [alignedSample, onlineSample, hmid, hnext, not_le.mp hmid]
    · simp [alignedSample, onlineSample, hmid, hnext, not_le.mp hnext]

/-! ## The canary -/

/-- The sample that the canary is given of a record and its successor. -/
def canarySample (pair : SessionRecord K × SessionRecord K) : Option (K × K × K) :=
  if pair.1.midPrice ≤ 0 then none
  else some (pair.1.primarySignal, pair.1.ensembleSignal,
    (pair.2.midPrice - pair.1.midPrice) / pair.1.midPrice)

/-- The canary after some samples. -/
def canaryAfter (cfg : ShadowSessionConfig K) (samples : List (K × K × K)) : EnsembleCanary K :=
  samples.foldl (fun c sample => (c.update np sample).1) { cfg := cfg.canary }

/-- The canary is there when the secondary model is, and has been fed with the last records. -/
structure CanaryFed (s : NeuralAlphaShadowSession K) : Prop where
  isSome : s.canary.isSome = s.secondaryModel
  fed : ∀ c ∈ s.canary, ∃ since, since <:+ s.signalRecords ∧
    c = canaryAfter np s.cfg ((neighbours since).filterMap canarySample) ∧
    s.prevPrimarySignal = since.getLast?.map SessionRecord.primarySignal ∧
    s.prevEnsembleSignal = since.getLast?.map SessionRecord.ensembleSignal

variable {np} {s : NeuralAlphaShadowSession K}

theorem CanaryFed.of_none (hcanary : s.canary = none) (hsecondary : s.secondaryModel = false) :
    CanaryFed np s := by
  refine ⟨by rw [hcanary, hsecondary]; rfl, fun c hc => ?_⟩
  rw [hcanary] at hc
  cases hc

theorem CanaryFed.trainOnRecent (h : CanaryFed np s) (outcome : TrainingOutcome) :
    CanaryFed np (s.trainOnRecent outcome) := by
  unfold NeuralAlphaShadowSession.trainOnRecent
  cases outcome.secondary with
  | kept => exact ⟨h.isSome, h.fed⟩
  | loaded =>
    refine ⟨rfl, fun c hc => ⟨[], List.nil_suffix, ?_, rfl, rfl⟩⟩
    cases hc
    rfl
  | disabled => exact CanaryFed.of_none rfl rfl

theorem CanaryFed.maybeContinuousTrain (h : CanaryFed np s) (now : ℤ)
    (outcome : TrainingOutcome) : CanaryFed np (s.maybeContinuousTrain np now outcome).1 := by
  have htrained := h.trainOnRecent outcome
  unfold NeuralAlphaShadowSession.maybeContinuousTrain
  split_ifs
  · cases outcome.raised <;> exact ⟨htrained.isSome, htrained.fed⟩
  · exact h

theorem CanaryFed.maybeRegimeRetrain (h : CanaryFed np s) (now : ℤ) (raised : Option CString) :
    CanaryFed np (s.maybeRegimeRetrain now raised).1 := by
  unfold NeuralAlphaShadowSession.maybeRegimeRetrain
  split_ifs
  · cases raised <;> exact ⟨h.isSome, h.fed⟩
  · exact h

theorem CanaryFed.prepare (h : CanaryFed np s) (x : SessionTick K) :
    CanaryFed np (s.prepare np x).1 := by
  have hring : CanaryFed np (s.extendRing x.ticks) := ⟨h.isSome, h.fed⟩
  exact (hring.maybeContinuousTrain _ _).maybeRegimeRetrain _ _

/-- What the drift guard and safe mode leave alone. -/
structure SameCanary (s t : NeuralAlphaShadowSession K) : Prop where
  cfg : t.cfg = s.cfg
  signalRecords : t.signalRecords = s.signalRecords
  secondaryModel : t.secondaryModel = s.secondaryModel
  canary : t.canary = s.canary
  prevPrimarySignal : t.prevPrimarySignal = s.prevPrimarySignal
  prevEnsembleSignal : t.prevEnsembleSignal = s.prevEnsembleSignal

theorem triggerSafeMode_sameCanary {K : Type*} (s : NeuralAlphaShadowSession K)
    (reason : SafeModeReason K) : SameCanary s (s.triggerSafeMode reason).1 := by
  unfold triggerSafeMode
  split_ifs <;> exact ⟨rfl, rfl, rfl, rfl, rfl, rfl⟩

theorem updateDriftGuard_sameCanary (s : NeuralAlphaShadowSession K) (signal realised : K) :
    SameCanary s (s.updateDriftGuard np signal realised).1 := by
  unfold updateDriftGuard
  generalize s.driftGuard.update np (signal, realised) = r
  obtain ⟨guard, alarm⟩ := r
  cases alarm with
  | false => exact ⟨rfl, rfl, rfl, rfl, rfl, rfl⟩
  | true =>
    have h := triggerSafeMode_sameCanary { s with driftGuard := guard }
      (.driftIcBreach (guard.currentIc np) s.cfg.drift.icFloor)
    exact ⟨h.cfg, h.signalRecords, h.secondaryModel, h.canary, h.prevPrimarySignal,
      h.prevEnsembleSignal⟩

/-- The canary with a sample, or no canary when the alarm is raised. -/
theorem updateCanary_some {c : EnsembleCanary K} {primary ensemble : K} (hcanary : s.canary = some c)
    (hprimary : s.prevPrimarySignal = some primary)
    (hensemble : s.prevEnsembleSignal = some ensemble) (realised : K) :
    (s.updateCanary np realised).1.cfg = s.cfg ∧
      (s.updateCanary np realised).1.signalRecords = s.signalRecords ∧
      (((s.updateCanary np realised).1.secondaryModel = s.secondaryModel ∧
          (s.updateCanary np realised).1.canary =
            some (c.update np (primary, ensemble, realised)).1) ∨
        ((s.updateCanary np realised).1.secondaryModel = false ∧
          (s.updateCanary np realised).1.canary = none)) := by
  unfold updateCanary
  rw [hcanary, hprimary, hensemble]
  simp only
  generalize c.update np (primary, ensemble, realised) = r
  obtain ⟨c', alarm⟩ := r
  cases alarm with
  | false => exact ⟨rfl, rfl, .inl ⟨rfl, rfl⟩⟩
  | true =>
    have h := triggerSafeMode_sameCanary { s with
      canary := none
      secondaryModel := false
      prevPrimarySignal := none
      prevEnsembleSignal := none } (.ensembleCanary (c'.ic np c'.ensemble) (c'.ic np c'.primary)
        s.cfg.canary.icMargin)
    exact ⟨h.cfg, h.signalRecords, .inr ⟨h.secondaryModel, h.canary⟩⟩

theorem updateCanary_none (h : s.canary = none ∨ s.prevPrimarySignal = none) (realised : K) :
    (s.updateCanary np realised).1 = s := by
  unfold updateCanary
  split
  · rename_i hcanary hprimary hensemble
    simp [hcanary, hprimary] at h
  · rfl

/-- One record more since the canary was reset. -/
theorem canaryAfter_concat (cfg : ShadowSessionConfig K) (since : List (SessionRecord K))
    (info : SessionRecord K) :
    canaryAfter np cfg ((neighbours (since ++ [info])).filterMap canarySample) =
      ((since.getLast?.map fun last => (last, info)).toList.filterMap canarySample).foldl
        (fun c sample => (c.update np sample).1)
        (canaryAfter np cfg ((neighbours since).filterMap canarySample)) := by
  rw [neighbours_concat, List.filterMap_append, canaryAfter, List.foldl_append]
  rfl

/-- The guards pass over the canary, or come to it with the outcome of the last record. -/
theorem updateQualityGuards_cases (s : NeuralAlphaShadowSession K) (info : SessionRecord K) :
    (SameCanary s (s.updateQualityGuards np info).1 ∧
        ∀ last ∈ s.signalRecords.getLast?, last.midPrice ≤ 0) ∨
      ∃ last ∈ s.signalRecords.getLast?, ¬ last.midPrice ≤ 0 ∧ ∃ t, SameCanary s t ∧
        (s.updateQualityGuards np info).1 =
          (t.updateCanary np ((info.midPrice - last.midPrice) / last.midPrice)).1 := by
  unfold updateQualityGuards
  cases s.signalRecords.getLast? with
  | none => exact .inl ⟨⟨rfl, rfl, rfl, rfl, rfl, rfl⟩, fun _ h => by cases h⟩
  | some last =>
    by_cases hmid : last.midPrice ≤ 0
    · refine .inl ⟨?_, fun _ h => Option.mem_some_iff.mp h ▸ hmid⟩
      simp only [hmid, if_true]
      exact ⟨rfl, rfl, rfl, rfl, rfl, rfl⟩
    · refine .inr ⟨last, rfl, hmid, _, @updateDriftGuard_sameCanary K _ _ np s last.signal
        ((info.midPrice - last.midPrice) / last.midPrice), ?_⟩
      simp only [hmid, if_false]

/-- The guards feed the canary with the last record and the new one, when both are behind its
reset. -/
theorem CanaryFed.updateQualityGuards (h : CanaryFed np s) (info : SessionRecord K) :
    CanaryFed np ((s.updateQualityGuards np info).1.keep info) := by
  -- the records since the reset are those before and the new one
  have hkept : ∀ {t : NeuralAlphaShadowSession K} {since : List (SessionRecord K)},
      t.cfg = s.cfg → t.signalRecords = s.signalRecords → t.canary.isSome = t.secondaryModel →
      since <:+ s.signalRecords →
      (∀ c ∈ t.canary,
        c = canaryAfter np s.cfg ((neighbours (since ++ [info])).filterMap canarySample)) →
      CanaryFed np (t.keep info) := by
    intro t since hcfg hrecords hsome hsuffix hc
    refine ⟨hsome, fun c hmem => ⟨since ++ [info], ?_, ?_, ?_, ?_⟩⟩
    · show since ++ [info] <:+ t.signalRecords ++ [info]
      rw [hrecords]
      exact (List.suffix_append_self_iff).mpr hsuffix
    · rw [keep_cfg, hcfg]
      exact hc c hmem
    · rw [List.getLast?_concat]
      rfl
    · rw [List.getLast?_concat]
      rfl
  cases hcanary : s.canary with
  | none =>
    have hsecondary : s.secondaryModel = false := by
      rw [← h.isSome, hcanary]
      rfl
    rcases updateQualityGuards_cases s info with ⟨hsame, -⟩ | ⟨last, -, -, t, hsame, ht⟩
    · exact CanaryFed.of_none (hsame.canary.trans hcanary) (hsame.secondaryModel.trans hsecondary)
    · rw [ht, updateCanary_none (.inl (hsame.canary.trans hcanary))]
      exact CanaryFed.of_none (hsame.canary.trans hcanary) (hsame.secondaryModel.trans hsecondary)
  | some c =>
    obtain ⟨since, hsuffix, rfl, hprimary, hensemble⟩ := h.fed c hcanary
    have hlast : ∀ last, since.getLast? = some last → s.signalRecords.getLast? = some last := by
      intro last hsince
      obtain ⟨before, hbefore⟩ := hsuffix
      rw [← hbefore, List.getLast?_append, hsince]
      rfl
    -- without a sample the canary stays as it is
    have hpassed : ∀ {t}, SameCanary s t →
        ((since.getLast?.map fun last => (last, info)).toList.filterMap canarySample = []) →
        CanaryFed np (t.keep info) := by
      intro t hsame hnone
      refine hkept hsame.cfg hsame.signalRecords ?_ hsuffix fun c hc => ?_
      · rw [hsame.canary, hsame.secondaryModel]
        exact h.isSome
      · rw [hsame.canary, hcanary] at hc
        rw [canaryAfter_concat, hnone]
        exact (Option.mem_some_iff.mp hc).symm
    rcases updateQualityGuards_cases s info with ⟨hsame, hmid⟩ | ⟨last, hmem, hmid, t, hsame, ht⟩
    · refine hpassed hsame ?_
      cases hsince : since.getLast? with
      | none => rfl
      | some last =>
        have hle : last.midPrice ≤ 0 := hmid last (hlast last hsince)
        simp [canarySample, hle]
    · rw [ht]
      cases hsince : since.getLast? with
      | none =>
        rw [hsince] at hprimary
        rw [updateCanary_none (.inr (hsame.prevPrimarySignal.trans hprimary))]
        exact hpassed hsame (by rw [hsince]; rfl)
      | some last' =>
        obtain rfl : last' = last := Option.some.inj ((hlast last' hsince).symm.trans hmem)
        rw [hsince] at hprimary hensemble
        obtain ⟨hcfg, hrecords, hnext⟩ := @updateCanary_some K _ _ np t _ _ _
          (hsame.canary.trans hcanary) (hsame.prevPrimarySignal.trans hprimary)
          (hsame.prevEnsembleSignal.trans hensemble)
          ((info.midPrice - last'.midPrice) / last'.midPrice)
        rcases hnext with ⟨hsecondary, hfed⟩ | ⟨hsecondary, hunloaded⟩
        · refine hkept (hcfg.trans hsame.cfg) (hrecords.trans hsame.signalRecords) ?_ hsuffix
            fun c hc => ?_
          · rw [hfed, hsecondary, hsame.secondaryModel, ← h.isSome, hcanary]
            rfl
          · rw [hfed] at hc
            rw [canaryAfter_concat, hsince, ← Option.mem_some_iff.mp hc]
            simp [canarySample, hmid]
        · exact CanaryFed.of_none hunloaded hsecondary

theorem CanaryFed.judge (h : CanaryFed np s) (tick : FetchedTick K) (x : SessionTick K) :
    CanaryFed np (s.judge np tick x).1 := by
  have hinfer : CanaryFed np (s.infer tick x.output x.inferNowNs).1 := ⟨h.isSome, h.fed⟩
  rw [judge_fst]
  exact hinfer.updateQualityGuards _

/-- A training and the next one: the ticks and the seconds between them. -/
def Apart (everyTicks intervalS : ℤ) (a b : ℕ × ℤ) : Prop :=
  everyTicks ≤ (b.1 : ℤ) - a.1 ∧ intervalS * 1000000000 ≤ b.2 - a.2

/-- Trainings, each apart from the one before or from the start, and the last one of them. -/
structure Spaced (everyTicks intervalS : ℤ) (start last : ℕ × ℤ) (trainings : List (ℕ × ℤ)) :
    Prop where
  last_eq : last = trainings.getLastD start
  apart : AtEach (fun before t => Apart everyTicks intervalS (before.getLastD start) t) trainings

/-- At most one training more. -/
theorem Spaced.append {everyTicks intervalS : ℤ} {start last last' : ℕ × ℤ}
    {trainings : List (ℕ × ℤ)} {trained : Option (ℕ × ℤ)}
    (h : Spaced everyTicks intervalS start last trainings) (hlast : last' = trained.getD last)
    (happart : ∀ t ∈ trained, Apart everyTicks intervalS last t) :
    Spaced everyTicks intervalS start last' (trainings ++ trained.toList) := by
  cases trained with
  | none => simpa [hlast] using h
  | some t =>
    refine ⟨by simpa using hlast, atEach_concat.mpr ⟨h.apart, ?_⟩⟩
    rw [← h.last_eq]
    exact happart t rfl

theorem elapsed_iff [IsStrictOrderedRing K] {now last seconds : ℤ} :
    elapsed (K := K) now last seconds = true ↔ seconds * 1000000000 ≤ now - last := by
  rw [elapsed, decide_eq_true_iff, ge_iff_le, le_div_iff₀ (by norm_num),
    show (1000000000.0 : K) = ((1000000000 : ℤ) : K) by norm_num]
  exact_mod_cast Iff.rfl

/-- A tick that trains is apart from the training before. -/
theorem maybeContinuousTrain_schedule [IsStrictOrderedRing K] (s : NeuralAlphaShadowSession K)
    (now : ℤ) (outcome : TrainingOutcome) :
    let r := s.maybeContinuousTrain np now outcome
    r.1.schedule = { s.schedule with lastContinuous := r.2.getD s.schedule.lastContinuous } ∧
      ∀ t ∈ r.2, t.1 = s.processedTicks ∧ Apart s.cfg.continuousTrainEveryTicks
        s.cfg.minContinuousTrainIntervalS s.schedule.lastContinuous t := by
  intro r
  have htrain : (s.trainOnRecent outcome).schedule = s.schedule := by
    unfold trainOnRecent
    cases outcome.secondary <;> rfl
  have hticks : (s.trainOnRecent outcome).processedTicks = s.processedTicks :=
    congrArg TrainingSchedule.processedTicks htrain
  by_cases hdue : s.continuousTrainDue np now = true
  · have hr : r = s.maybeContinuousTrain np now outcome := rfl
    rw [maybeContinuousTrain, if_pos hdue] at hr
    simp only [continuousTrainDue, Bool.and_eq_true, decide_eq_true_eq, elapsed_iff] at hdue
    cases hraised : outcome.raised with
    | none =>
      rw [hraised] at hr
      rw [hr, ← htrain]
      refine ⟨rfl, fun t ht => ?_⟩
      obtain rfl := Option.mem_some_iff.mp ht
      rw [htrain]
      exact ⟨hticks, hticks ▸ hdue.1.1.2, hdue.1.2⟩
    | some exc =>
      rw [hraised] at hr
      rw [hr]
      exact ⟨htrain, fun t ht => by cases ht⟩
  · have hr : r = (s, none) := by
      show s.maybeContinuousTrain np now outcome = _
      rw [maybeContinuousTrain, if_neg hdue]
    rw [hr]
    exact ⟨rfl, fun t ht => by cases ht⟩

/-- The same of a training of the regimes, which also waits for the warm-up. -/
theorem maybeRegimeRetrain_schedule [IsStrictOrderedRing K] (s : NeuralAlphaShadowSession K)
    (now : ℤ) (raised : Option CString) :
    let r := s.maybeRegimeRetrain now raised
    r.1.schedule = { s.schedule with lastRegime := r.2.getD s.schedule.lastRegime } ∧
      ∀ t ∈ r.2, t.1 = s.processedTicks ∧ Apart s.cfg.regimeRetrainEveryTicks
        s.cfg.minRegimeTrainIntervalS s.schedule.lastRegime t ∧
        s.cfg.regimeStartupWarmupS * 1000000000 ≤ t.2 - s.sessionSteadyStartNs := by
  intro r
  by_cases hdue : s.regimeRetrainDue now = true
  · have hr : r = s.maybeRegimeRetrain now raised := rfl
    rw [maybeRegimeRetrain.eq_def, if_pos hdue] at hr
    simp only [regimeRetrainDue, Bool.and_eq_true, decide_eq_true_eq, elapsed_iff] at hdue
    cases raised with
    | none =>
      rw [hr]
      refine ⟨rfl, fun t ht => ?_⟩
      obtain rfl := Option.mem_some_iff.mp ht
      exact ⟨rfl, ⟨hdue.1.1.2, hdue.2⟩, hdue.1.2⟩
    | some exc =>
      rw [hr]
      exact ⟨rfl, fun t ht => by cases ht⟩
  · have hr : r = (s, none) := by
      show s.maybeRegimeRetrain now raised = _
      rw [maybeRegimeRetrain.eq_def, if_neg hdue]
    rw [hr]
    exact ⟨rfl, fun t ht => by cases ht⟩

/-- What the reports of a session say of its trainings. -/
structure TrainedApart (cfg : ShadowSessionConfig K) (steadyNs : ℤ)
    (s : NeuralAlphaShadowSession K) (reports : List (TickReport K)) : Prop where
  cfg_eq : s.cfg = cfg
  steadyStart_eq : s.schedule.steadyStartNs = steadyNs
  continuous : Spaced cfg.continuousTrainEveryTicks cfg.minContinuousTrainIntervalS (0, steadyNs)
    s.schedule.lastContinuous (reports.filterMap TickReport.trained)
  regime : Spaced cfg.regimeRetrainEveryTicks cfg.minRegimeTrainIntervalS (0, steadyNs)
    s.schedule.lastRegime (reports.filterMap TickReport.regimeTrained)
  warm : ∀ t ∈ reports.filterMap TickReport.regimeTrained,
    cfg.regimeStartupWarmupS * 1000000000 ≤ t.2 - steadyNs
  continuous_le : s.schedule.lastContinuous.1 ≤ s.schedule.processedTicks
  regime_le : s.schedule.lastRegime.1 ≤ s.schedule.processedTicks

theorem TrainedApart.of_same {K : Type*} {cfg : ShadowSessionConfig K} {steadyNs : ℤ}
    {s t : NeuralAlphaShadowSession K} {reports : List (TickReport K)}
    (h : TrainedApart cfg steadyNs s reports) (hcfg : t.cfg = s.cfg)
    (hschedule : t.schedule = s.schedule) : TrainedApart cfg steadyNs t reports where
  cfg_eq := hcfg.trans h.cfg_eq
  steadyStart_eq := by rw [hschedule]; exact h.steadyStart_eq
  continuous := by rw [hschedule]; exact h.continuous
  regime := by rw [hschedule]; exact h.regime
  warm := h.warm
  continuous_le := by rw [hschedule]; exact h.continuous_le
  regime_le := by rw [hschedule]; exact h.regime_le

/-- Inference and the guards do not touch the schedule. -/
theorem judge_schedule (np : WindowStatistics K) (s : NeuralAlphaShadowSession K)
    (tick : FetchedTick K) (x : SessionTick K) :
    (s.judge np tick x).1.schedule = s.schedule :=
  (judge_same np s tick x).schedule

/-- A report adds what its tick has trained. -/
theorem TrainedApart.prepare [IsStrictOrderedRing K] {cfg : ShadowSessionConfig K} {steadyNs : ℤ}
    {reports : List (TickReport K)} (h : TrainedApart cfg steadyNs s reports)
    (x : SessionTick K) {r : TickReport K} (htrained : r.trained = (s.prepare np x).2.1)
    (hregime : r.regimeTrained = (s.prepare np x).2.2) :
    TrainedApart cfg steadyNs (s.prepare np x).1 (reports ++ [r]) := by
  obtain ⟨rfl, hsteady, hc, hr, hwarm, hcle, hrle⟩ := h
  let trained := (s.extendRing x.ticks).maybeContinuousTrain np x.continuousNowNs x.training
  let retrained := trained.1.maybeRegimeRetrain x.regimeNowNs x.regimeRaised
  obtain ⟨htrain, htrains⟩ :=
    @maybeContinuousTrain_schedule K _ _ np _ (s.extendRing x.ticks) x.continuousNowNs x.training
  obtain ⟨hretrain, hretrains⟩ :=
    maybeRegimeRetrain_schedule trained.1 x.regimeNowNs x.regimeRaised
  have hcfg : trained.1.cfg = s.cfg := (maybeContinuousTrain_same np _ _ _).cfg
  rw [hcfg] at hretrains
  have hschedule : (s.prepare np x).1.schedule =
      { processedTicks := s.processedTicks + x.ticks.length
        lastContinuous := trained.2.getD s.schedule.lastContinuous
        lastRegime := retrained.2.getD s.schedule.lastRegime
        steadyStartNs := s.schedule.steadyStartNs } := by
    show retrained.1.schedule = _
    rw [hretrain, htrain]
    rfl
  have hticks : trained.1.processedTicks = s.processedTicks + x.ticks.length :=
    congrArg TrainingSchedule.processedTicks htrain
  have hlast : trained.1.schedule.lastRegime = s.schedule.lastRegime :=
    (congrArg TrainingSchedule.lastRegime htrain).trans rfl
  have hstart : trained.1.sessionSteadyStartNs = s.schedule.steadyStartNs :=
    (congrArg TrainingSchedule.steadyStartNs htrain).trans rfl
  have happend : ∀ f : TickReport K → Option (ℕ × ℤ),
      (reports ++ [r]).filterMap f = reports.filterMap f ++ (f r).toList := by
    intro f
    rw [List.filterMap_append]
    cases hf : f r <;> simp [hf]
  have htick : ∀ {last : ℕ × ℤ} {t : Option (ℕ × ℤ)}, last.1 ≤ s.schedule.processedTicks →
      (∀ v ∈ t, v.1 = s.processedTicks + x.ticks.length) →
      (t.getD last).1 ≤ s.processedTicks + x.ticks.length := by
    intro last t hle ht
    cases t with
    | none => exact hle.trans (Nat.le_add_right _ _)
    | some v => exact (ht v rfl).le
  refine ⟨(prepare_same np s x).cfg, ?_, ?_, ?_, ?_, ?_, ?_⟩
  · rw [hschedule]
    exact hsteady
  · rw [hschedule, happend, htrained]
    exact hc.append rfl fun t ht => (htrains t ht).2
  · rw [hschedule, happend, hregime]
    refine hr.append rfl fun t ht => ?_
    rw [← hlast]
    exact (hretrains t ht).2.1
  · rw [happend, hregime]
    intro t ht
    rcases List.mem_append.mp ht with ht | ht
    · exact hwarm t ht
    · have := (hretrains t (Option.mem_toList.mp ht)).2.2
      rw [hstart, hsteady] at this
      exact this
  · rw [hschedule]
    exact htick hcle fun v hv => (htrains v hv).1
  · rw [hschedule]
    exact htick hrle fun v hv => (hretrains v hv).1.trans hticks

/-- Telescoping: items that are apart add up. -/
theorem Spaced.length_mul_le {everyTicks intervalS : ℤ} {start last : ℕ × ℤ}
    {trainings : List (ℕ × ℤ)} (h : Spaced everyTicks intervalS start last trainings) :
    trainings.length * everyTicks ≤ (last.1 : ℤ) - start.1 ∧
      trainings.length * (intervalS * 1000000000) ≤ last.2 - start.2 := by
  obtain ⟨rfl, happart⟩ := h
  induction trainings using List.reverseRecOn with
  | nil => simp
  | append_singleton trainings t ih =>
    obtain ⟨hbefore, hticks, htime⟩ := atEach_concat.mp happart
    obtain ⟨ihticks, ihtime⟩ := ih hbefore
    rw [List.length_append, List.length_singleton, List.getLastD_concat]
    push_cast
    constructor <;> nlinarith

/-- **Trainings are apart.** In every session a continuous training that ends well comes at least
`continuous_train_every_ticks` ticks and `min_continuous_train_interval_s` seconds after the one
before, or after the start, whatever fails in between; the same for the trainings of the regimes,
which also wait for the warm-up. So there are no more of them than the ticks allow. -/
theorem trainings_apart [IsStrictOrderedRing K] (np : WindowStatistics K) :
    let s := init cfg registry steadyNs model secondaryModel
    let reports := (transcript (processTick np) s xs).2
    let trainings := reports.filterMap TickReport.trained
    let regimeTrainings := reports.filterMap TickReport.regimeTrained
    AtEach (fun before t => Apart cfg.continuousTrainEveryTicks cfg.minContinuousTrainIntervalS
        (before.getLastD (0, steadyNs)) t) trainings ∧
      AtEach (fun before t => Apart cfg.regimeRetrainEveryTicks cfg.minRegimeTrainIntervalS
        (before.getLastD (0, steadyNs)) t) regimeTrainings ∧
      (∀ t ∈ regimeTrainings, cfg.regimeStartupWarmupS * 1000000000 ≤ t.2 - steadyNs) ∧
      trainings.length * cfg.continuousTrainEveryTicks ≤ (s.after np xs).processedTicks ∧
      regimeTrainings.length * cfg.regimeRetrainEveryTicks ≤ (s.after np xs).processedTicks := by
  intro s reports trainings regimeTrainings
  have h : TrainedApart cfg steadyNs (s.after np xs) reports := by
    refine transcript_induction (P := TrainedApart cfg steadyNs)
      (fun s reports x h (_ : True) => ?_) ?_ fun _ _ => trivial
    · cases htick : (s.prepare np x).1.inferenceTick with
      | none =>
        rw [processTick_eq_none np s x htick]
        exact h.prepare x rfl rfl
      | some tick =>
        rw [processTick_eq_some np s x htick]
        exact (h.prepare x rfl rfl).of_same (judge_cfg np _ tick x) (judge_schedule np _ tick x)
    · exact ⟨rfl, rfl, ⟨rfl, atEach_nil⟩, ⟨rfl, atEach_nil⟩, fun t ht => (by cases ht), le_rfl,
        le_rfl⟩
  have hticks := h.continuous.length_mul_le.1
  have hregimeTicks := h.regime.length_mul_le.1
  have hle := h.continuous_le
  have hrle := h.regime_le
  have hle' : (s.after np xs).schedule.processedTicks = (s.after np xs).processedTicks := rfl
  refine ⟨h.continuous.apart, h.regime.apart, h.warm, ?_, ?_⟩
  · refine hticks.trans ?_
    rw [Nat.cast_zero, sub_zero, ← hle']
    exact_mod_cast hle
  · refine hregimeTicks.trans ?_
    rw [Nat.cast_zero, sub_zero, ← hle']
    exact_mod_cast hrle

/-- Two trainings of the regimes, three ticks apart, in six ticks. -/
theorem trainings_apart_two :
    let cfg := { alarmedConfig with regimeRetrainEveryTicks := 3 }
    let s := init cfg {} 0 true false
    let trainings := (transcript (processTick alarmedWindows) s
      (List.replicate 6 alarmedTick)).2.filterMap TickReport.regimeTrained
    trainings = [(3, 7), (6, 7)] ∧ trainings.length * cfg.regimeRetrainEveryTicks ≤
      (s.after alarmedWindows (List.replicate 6 alarmedTick)).processedTicks := by
  intro cfg s trainings
  have h := trainings_apart cfg {} 0 true false (List.replicate 6 alarmedTick) alarmedWindows
  exact ⟨by decide +kernel, h.2.2.2.2⟩

end NeuralAlphaShadowSession

end TradingInfrastructure
