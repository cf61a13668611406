import TradingInfrastructure.Foundations.FirstMinimum
import TradingInfrastructure.Research.Folds
import TradingInfrastructure.Research.Labels
import Mathlib.Data.List.ReduceOption

/-!
# Training that walks forward

`walk_forward_train` of `research/neural_alpha/models/trainer.py`. The network and its optimiser are
parameters; the folds, the windows and the loop over the epochs are those of the code.

A fold keeps the first of the best epochs that it has run, and stops when its patience is over
(`walkForwardTrain_best`). Its network is trained and chosen before its test begins, and what it puts
out for a window of the test depends on no row behind the window (`walkForwardTrain_causal`).
-/

namespace TradingInfrastructure

/-! ## Training a fold -/

/-- What `TrainerConfig` says of the folds and of the epochs. -/
structure TrainerConfig where
  nFolds : ℕ := 4
  trainFrac : ℚ := 3 / 4
  validationFrac : ℚ := 3 / 20
  seqLen : ℕ := 64
  epochs : ℕ := 20
  earlyStopPatience : ℤ := 5
  logEveryEpochs : ℤ := 1

/-- The network and its optimiser: a new network for a fold, pre-trained on the windows of the fold;
`train_epoch` on them; the `state_dict`; the metrics of `eval_epoch`, whose criterion comes from the
windows of the fold; `selection_score`; and what the network puts out for a window. -/
structure NetworkTraining (K S W M L P : Type) where
  prepare : ℕ → LobDataset K → S
  trainEpoch : LobDataset K → S → S
  stateDict : S → W
  evalEpoch : LobDataset K → W → LobDataset K → M
  selectionScore : M → L
  output : W → List (List (List K)) → List (Fin 28 → K) → P

/-- What a fold keeps of its best epoch: `best_state`, `best_metrics` and `best_selection_loss`. -/
structure BestEpoch (W M L : Type) where
  state : W
  metrics : M
  selectionLoss : L

/-- The variables of the loop over the epochs. -/
structure EpochLoop (S W M L : Type) where
  training : S
  best : Option (BestEpoch W M L) := none
  epochsNoImprove : ℤ := 0
  stopped : Bool := false

/-- What `walk_forward_train` returns of a fold. A score without a value is infinite. -/
structure FoldResult (W M L P : Type) where
  fold : ℕ
  metrics : M
  validationMetrics : M
  selectionScore : L
  bestSelectionScore : Option L
  bestMetrics : M
  predictions : List P
  modelState : Option W

namespace TrainerConfig

variable (cfg : TrainerConfig)

/-- `log_every`. -/
def logEvery : ℤ := max 1 cfg.logEveryEpochs

/-- `should_log`. -/
def shouldLog (epoch : ℕ) : Bool :=
  decide (((epoch : ℤ) + 1) % cfg.logEvery = 0 ∨ epoch + 1 = cfg.epochs)

/-- The data sets of the training: `DatasetConfig(seq_len=cfg.seq_len)`. -/
def dataset : DatasetConfig where
  seqLen := cfg.seqLen
  stride := 1
  horizons := [1, 10, 100, 500]

end TrainerConfig

section Training

variable {K S W M L P : Type} (net : NetworkTraining K S W M L P) (cfg : TrainerConfig)

/-- The body of the loop over the epochs. -/
def EpochLoop.epoch [LT L] [DecidableLT L] (trainDs valDs : LobDataset K)
    (loop : EpochLoop S W M L) (epoch : ℕ) : EpochLoop S W M L :=
  if loop.stopped then loop
  else
    let training := net.trainEpoch trainDs loop.training
    if cfg.shouldLog epoch then
      let state := net.stateDict training
      let metrics := net.evalEpoch trainDs state valDs
      let current := net.selectionScore metrics
      if loop.best.all fun best => decide (current < best.selectionLoss) then
        { training, best := some ⟨state, metrics, current⟩, epochsNoImprove := 0 }
      else
        let epochsNoImprove := loop.epochsNoImprove + cfg.logEvery
        { training, best := loop.best, epochsNoImprove
          stopped := decide (0 < cfg.earlyStopPatience ∧
            cfg.earlyStopPatience ≤ epochsNoImprove) }
    else { loop with training }

/-- The loop over the epochs. -/
def trainEpochs [LT L] [DecidableLT L] (foldIdx : ℕ) (trainDs valDs : LobDataset K) :
    EpochLoop S W M L :=
  (List.range cfg.epochs).foldl (EpochLoop.epoch net cfg trainDs valDs)
    { training := net.prepare foldIdx trainDs }

/-- The outputs of a network for the windows of a data set, in their order. -/
def predictions (state : W) (ds : LobDataset K) : List P :=
  (List.range ds.indices.length).filterMap fun idx =>
    (ds.getItem idx).map fun item => net.output state item.lob item.scalar

/-- What a fold returns when it has been trained. -/
def foldResult [LT L] [DecidableLT L] (foldIdx : ℕ) (trainDs valDs testDs : LobDataset K) :
    FoldResult W M L P :=
  let loop := trainEpochs net cfg foldIdx trainDs valDs
  let state := (loop.best.map BestEpoch.state).getD (net.stateDict loop.training)
  let valMetrics := net.evalEpoch trainDs state valDs
  { fold := foldIdx + 1
    metrics := net.evalEpoch trainDs state testDs
    validationMetrics := valMetrics
    selectionScore := net.selectionScore valMetrics
    bestSelectionScore := loop.best.map BestEpoch.selectionLoss
    bestMetrics := (loop.best.map BestEpoch.metrics).getD valMetrics
    predictions := predictions net state testDs
    modelState := loop.best.map BestEpoch.state }

variable [Field K] [LinearOrder K] (fn : ArrayFunctions K K) (sqrt : K → K)
  (columnType : String → Option ColumnType)

/-- `build_loaders`: the scalars of the second data set are normalised behind the last of the
first. -/
def buildLoaders (train test : List (String → Cell K)) : Option (LobDataset K × LobDataset K) := do
  let trainDs ← LobDataset.ofFrame fn sqrt ⟨columnType, train⟩ cfg.dataset 500 none
  let rawScalar ← computeScalarFeatures fn ⟨columnType, train⟩
  let history := lastRows cfg.seqLen (rawScalar.map fun row (d : Fin 28) => row.getD d 0)
  let testDs ← LobDataset.ofFrame fn sqrt ⟨columnType, test⟩ cfg.dataset 500 (some history)
  return (trainDs, testDs)

/-- The body of the loop of `walk_forward_train`, which may skip the fold. -/
def trainFold [LT L] [DecidableLT L] (foldIdx : ℕ) (train test : List (String → Cell K)) :
    Option (Option (FoldResult W M L P)) := do
  let (fitTrain, val) ← splitTrainValidation train cfg.validationFrac cfg.seqLen
  if val = [] then return none
  else
    let (trainDs, valDs) ← buildLoaders cfg fn sqrt columnType fitTrain val
    let (_, testDs) ← buildLoaders cfg fn sqrt columnType train test
    if trainDs.indices = [] ∨ valDs.indices = [] ∨ testDs.indices = [] then return none
    else return some (foldResult net cfg foldIdx trainDs valDs testDs)

/-- `walk_forward_train`. -/
def walkForwardTrain [LT L] [DecidableLT L] (df : LobFrame K) :
    Option (List (FoldResult W M L P)) := do
  let splits ← splitWalkForward df.rows cfg.nFolds cfg.trainFrac cfg.seqLen
  let folds ← splits.zipIdx.mapM fun split =>
    trainFold net cfg fn sqrt df.columnType split.2 split.1.1 split.1.2
  return folds.reduceOption

end Training

/-! ## The epochs of a fold -/

section Epochs

variable {K S W M L P : Type} [LinearOrder L] (net : NetworkTraining K S W M L P)
  (cfg : TrainerConfig) (foldIdx : ℕ) (trainDs valDs : LobDataset K)

/-- The network after some epochs. -/
def trained (epochs : ℕ) : S := (net.trainEpoch trainDs)^[epochs] (net.prepare foldIdx trainDs)

/-- What an epoch leaves to be kept. -/
def epochResult (epoch : ℕ) : BestEpoch W M L :=
  let state := net.stateDict (trained net foldIdx trainDs (epoch + 1))
  let metrics := net.evalEpoch trainDs state valDs
  ⟨state, metrics, net.selectionScore metrics⟩

/-- The epochs that are evaluated, of the first so many. -/
def evaluated (epochs : ℕ) : List ℕ := (List.range epochs).filter cfg.shouldLog

/-- The first of the best of these. -/
def bestEpoch (epochs : ℕ) : Option ℕ :=
  firstMin (fun _ => true)
    (fun epoch => ((epochResult net foldIdx trainDs valDs epoch).selectionLoss : WithTop L)) ⊤
    (evaluated cfg epochs)

/-- Those after it, none of which is better. -/
def unimproved (epochs : ℕ) : ℕ :=
  (evaluated cfg epochs).countP fun epoch =>
    (bestEpoch net cfg foldIdx trainDs valDs epochs).all fun best => decide (best < epoch)

/-- The patience is over. -/
def Impatient (epochs : ℕ) : Prop :=
  0 < cfg.earlyStopPatience ∧
    cfg.earlyStopPatience ≤ cfg.logEvery * unimproved net cfg foldIdx trainDs valDs epochs

variable {net cfg foldIdx trainDs valDs}

theorem mem_evaluated {epoch epochs : ℕ} :
    epoch ∈ evaluated cfg epochs ↔ epoch < epochs ∧ cfg.shouldLog epoch = true := by
  rw [evaluated, List.mem_filter, List.mem_range]

theorem evaluated_succ (epochs : ℕ) : evaluated cfg (epochs + 1) =
    evaluated cfg epochs ++ if cfg.shouldLog epochs then [epochs] else [] := by
  rw [evaluated, List.range_succ, List.filter_append, List.filter_singleton, cond_eq_ite]
  rfl

/-- The variables of the loop after the first so many epochs have been trained. -/
structure LoopAt (net : NetworkTraining K S W M L P) (cfg : TrainerConfig) (foldIdx : ℕ)
    (trainDs valDs : LobDataset K) (epochs : ℕ) (loop : EpochLoop S W M L) : Prop where
  training : loop.training = trained net foldIdx trainDs epochs
  best : loop.best = (bestEpoch net cfg foldIdx trainDs valDs epochs).map
    (epochResult net foldIdx trainDs valDs)
  epochsNoImprove : loop.epochsNoImprove =
    cfg.logEvery * unimproved net cfg foldIdx trainDs valDs epochs
  stopped : loop.stopped = true ↔ Impatient net cfg foldIdx trainDs valDs epochs

/-- An epoch that is evaluated. -/
theorem bestEpoch_succ {epochs : ℕ} (hlog : cfg.shouldLog epochs = true) :
    bestEpoch net cfg foldIdx trainDs valDs (epochs + 1) =
      if (bestEpoch net cfg foldIdx trainDs valDs epochs).all (fun best =>
        decide ((epochResult net foldIdx trainDs valDs epochs).selectionLoss <
          (epochResult net foldIdx trainDs valDs best).selectionLoss)) = true then some epochs
      else bestEpoch net cfg foldIdx trainDs valDs epochs := by
  have hconcat : evaluated cfg (epochs + 1) = evaluated cfg epochs ++ [epochs] := by
    rw [evaluated_succ, if_pos hlog]
  conv_lhs => rw [bestEpoch, hconcat, firstMin_concat, ← bestEpoch]
  refine if_congr ?_ rfl rfl
  cases bestEpoch net cfg foldIdx trainDs valDs epochs with
  | none => simp
  | some best => simp

theorem bestEpoch_lt {epochs best : ℕ}
    (h : bestEpoch net cfg foldIdx trainDs valDs epochs = some best) : best < epochs :=
  (mem_evaluated.mp (mem_of_firstMin h)).1

/-- One more epoch. -/
theorem LoopAt.epoch {epochs : ℕ} {loop : EpochLoop S W M L}
    (h : LoopAt net cfg foldIdx trainDs valDs epochs loop) (hgoes : loop.stopped = false) :
    LoopAt net cfg foldIdx trainDs valDs (epochs + 1)
      (loop.epoch net cfg trainDs valDs epochs) := by
  have htrained : net.trainEpoch trainDs loop.training =
      trained net foldIdx trainDs (epochs + 1) := by
    rw [h.training, trained, trained, Function.iterate_succ_apply']
  have hpatient : ¬ Impatient net cfg foldIdx trainDs valDs epochs := by
    rw [← h.stopped, hgoes]
    exact Bool.false_ne_true
  unfold EpochLoop.epoch
  rw [if_neg (by rw [hgoes]; exact Bool.false_ne_true)]
  dsimp only
  rw [htrained]
  by_cases hlog : cfg.shouldLog epochs = true
  · rw [if_pos hlog]
    have hevaluated : evaluated cfg (epochs + 1) = evaluated cfg epochs ++ [epochs] := by
      rw [evaluated_succ, if_pos hlog]
    have hbest := @bestEpoch_succ _ _ _ _ _ _ _ net cfg foldIdx trainDs valDs _ hlog
    have hall : loop.best.all (fun best => decide
        ((epochResult net foldIdx trainDs valDs epochs).selectionLoss < best.selectionLoss)) =
        (bestEpoch net cfg foldIdx trainDs valDs epochs).all (fun best =>
          decide ((epochResult net foldIdx trainDs valDs epochs).selectionLoss <
            (epochResult net foldIdx trainDs valDs best).selectionLoss)) := by
      rw [h.best, Option.all_map]
    change LoopAt net cfg foldIdx trainDs valDs (epochs + 1)
      (if loop.best.all (fun best => decide
        ((epochResult net foldIdx trainDs valDs epochs).selectionLoss < best.selectionLoss)) = true
      then _ else _)
    rw [hall]
    by_cases hbetter : (bestEpoch net cfg foldIdx trainDs valDs epochs).all (fun best =>
        decide ((epochResult net foldIdx trainDs valDs epochs).selectionLoss <
          (epochResult net foldIdx trainDs valDs best).selectionLoss)) = true
    · rw [if_pos hbetter]
      rw [if_pos hbetter] at hbest
      have hunimproved : unimproved net cfg foldIdx trainDs valDs (epochs + 1) = 0 := by
        rw [unimproved, hbest, List.countP_eq_zero]
        intro epoch hepoch
        have := (mem_evaluated.mp hepoch).1
        simp only [Option.all_some, decide_eq_true_eq]
        omega
      refine ⟨rfl, ?_, ?_, ?_⟩
      · rw [hbest]
        rfl
      · rw [hunimproved]
        exact (mul_zero _).symm
      · refine iff_of_false Bool.false_ne_true fun himpatient => ?_
        rw [Impatient, hunimproved] at himpatient
        omega
    · rw [if_neg hbetter]
      rw [if_neg hbetter] at hbest
      have hunimproved : unimproved net cfg foldIdx trainDs valDs (epochs + 1) =
          unimproved net cfg foldIdx trainDs valDs epochs + 1 := by
        have hlast : (bestEpoch net cfg foldIdx trainDs valDs epochs).all
            (fun best => decide (best < epochs)) = true := by
          cases hbestEpoch : bestEpoch net cfg foldIdx trainDs valDs epochs with
          | none => rfl
          | some best => simpa using bestEpoch_lt hbestEpoch
        rw [unimproved, unimproved, hbest, hevaluated, List.countP_append, List.countP_singleton,
          if_pos hlast]
      have hcount : loop.epochsNoImprove + cfg.logEvery =
          cfg.logEvery * unimproved net cfg foldIdx trainDs valDs (epochs + 1) := by
        rw [h.epochsNoImprove, hunimproved]
        push_cast
        ring
      refine ⟨rfl, ?_, hcount, ?_⟩
      · rw [hbest]
        exact h.best
      · rw [Impatient, ← hcount]
        exact decide_eq_true_iff
  · rw [if_neg hlog]
    have hevaluated : evaluated cfg (epochs + 1) = evaluated cfg epochs := by
      rw [evaluated_succ, if_neg hlog, List.append_nil]
    have hbest : bestEpoch net cfg foldIdx trainDs valDs (epochs + 1) =
        bestEpoch net cfg foldIdx trainDs valDs epochs := by
      rw [bestEpoch, bestEpoch, hevaluated]
    have hunimproved : unimproved net cfg foldIdx trainDs valDs (epochs + 1) =
        unimproved net cfg foldIdx trainDs valDs epochs := by
      rw [unimproved, unimproved, hevaluated, hbest]
    refine ⟨rfl, ?_, ?_, ?_⟩
    · rw [hbest]
      exact h.best
    · rw [hunimproved]
      exact h.epochsNoImprove
    · rw [Impatient, hunimproved]
      exact h.stopped

/-- The loop stops after the first epoch with which the patience is over. -/
theorem exists_loopAt (epochs : ℕ) : ∃ run ≤ epochs,
    LoopAt net cfg foldIdx trainDs valDs run
      ((List.range epochs).foldl (EpochLoop.epoch net cfg trainDs valDs)
        { training := net.prepare foldIdx trainDs }) ∧
      (∀ earlier < run, ¬ Impatient net cfg foldIdx trainDs valDs earlier) ∧
      (run = epochs ∨ Impatient net cfg foldIdx trainDs valDs run) := by
  induction epochs with
  | zero =>
    have hunimproved : unimproved net cfg foldIdx trainDs valDs 0 = 0 := rfl
    refine ⟨0, le_rfl, ⟨rfl, rfl, ?_, ?_⟩, fun earlier h => absurd h (Nat.not_lt_zero _), .inl rfl⟩
    · rw [hunimproved]
      exact (mul_zero _).symm
    · refine iff_of_false Bool.false_ne_true fun himpatient => ?_
      rw [Impatient, hunimproved] at himpatient
      omega
  | succ epochs ih =>
    obtain ⟨run, hle, hloop, hearlier, hend⟩ := ih
    rw [List.range_succ, List.foldl_concat]
    by_cases hstopped : Impatient net cfg foldIdx trainDs valDs run
    · refine ⟨run, hle.trans (Nat.le_succ _), ?_, hearlier, .inr hstopped⟩
      rw [EpochLoop.epoch, if_pos (hloop.stopped.mpr hstopped)]
      exact hloop
    · obtain rfl : run = epochs := hend.resolve_right hstopped
      have hgoes := Bool.eq_false_iff.mpr (hloop.stopped.not.mpr hstopped)
      refine ⟨run + 1, le_rfl, hloop.epoch hgoes, fun earlier h => ?_, .inl rfl⟩
      rcases Nat.lt_succ_iff_lt_or_eq.mp h with hlt | rfl
      · exact hearlier earlier hlt
      · exact hstopped

end Epochs

/-! ## The windows of a fold -/

section Windows

variable {K S W M L P : Type} [Field K] [LinearOrder K] {cfg : TrainerConfig}
  {fn : ArrayFunctions K K} {sqrt : K → K} {columnType : String → Option ColumnType}
  {train test : List (String → Cell K)}

/-- The windows of a data set: one from each row that has enough rows from it on. -/
theorem indices_ofFrame {rows : List (String → Cell K)} {window : ℕ}
    {history : Option (List (Fin 28 → K))} {ds : LobDataset K}
    (h : LobDataset.ofFrame fn sqrt ⟨columnType, rows⟩ cfg.dataset window history = some ds) :
    ds.cfg = cfg.dataset ∧ ds.indices = List.range (rows.length + 1 - cfg.seqLen) := by
  have hbook : ∃ book, bookRows fn ⟨columnType, rows⟩ = some book := by
    simp only [LobDataset.ofFrame, computeLobTensor, Option.bind_eq_bind,
      Option.bind_eq_some_iff] at h
    obtain ⟨lob, hlob, -⟩ := h
    obtain ⟨book, hbook, -⟩ := Option.map_eq_some_iff.mp hlob
    exact ⟨book, hbook⟩
  obtain ⟨book, hbook⟩ := hbook
  obtain ⟨hcfg, -, hstarts⟩ := LobDataset.ofFrame_eq_some hbook h
  refine ⟨hcfg, ?_⟩
  have hstride : cfg.dataset.stride ≠ 0 := one_ne_zero
  rw [windowStarts, if_neg hstride, Option.some_inj,
    length_bookRows hbook] at hstarts
  rw [← hstarts, List.range_eq_range']
  simp [TrainerConfig.dataset]

theorem buildLoaders_eq_some {trainDs testDs : LobDataset K}
    (h : buildLoaders cfg fn sqrt columnType train test = some (trainDs, testDs)) :
    ∃ raw, LobDataset.ofFrame fn sqrt ⟨columnType, train⟩ cfg.dataset 500 none = some trainDs ∧
      computeScalarFeatures fn ⟨columnType, train⟩ = some raw ∧
      LobDataset.ofFrame fn sqrt ⟨columnType, test⟩ cfg.dataset 500
        (some (lastRows cfg.seqLen (raw.map fun row (d : Fin 28) => row.getD d 0))) =
          some testDs := by
  simp only [buildLoaders, Option.bind_eq_bind, Option.bind_eq_some_iff, Option.pure_def,
    Option.some.injEq, Prod.mk.injEq] at h
  obtain ⟨trainDs', htrain, raw, hraw, testDs', htest, rfl, rfl⟩ := h
  exact ⟨raw, htrain, hraw, htest⟩

omit [Field K] [LinearOrder K] in
/-- The outputs for a data set, window by window. -/
theorem getElem?_predictions (net : NetworkTraining K S W M L P) (state : W) {ds : LobDataset K}
    {windows : ℕ} (hindices : ds.indices = List.range windows) (j : ℕ) :
    (predictions net state ds)[j]? = if j < windows then
      some (net.output state ((ds.lobArr.drop j).take ds.cfg.seqLen)
        ((ds.scalarArr.drop j).take ds.cfg.seqLen)) else none := by
  have hpredictions : predictions net state ds = (List.range windows).map fun j =>
      net.output state ((ds.lobArr.drop j).take ds.cfg.seqLen)
        ((ds.scalarArr.drop j).take ds.cfg.seqLen) := by
    rw [predictions, hindices, List.length_range, ← List.filterMap_eq_map]
    refine List.filterMap_congr fun idx hidx => ?_
    rw [LobDataset.getItem, hindices, List.getElem?_range (List.mem_range.mp hidx)]
    rfl
  rw [hpredictions]
  split_ifs with hj
  · simp [hj]
  · simp [not_lt.mp hj]

end Windows

/-! ## No window looks ahead -/

section Causal

variable {α : Type*} {n : ℕ}

/-- Columns behind the same rows. -/
theorem AgreeTo.append {xs ys : List α} (h : AgreeTo n xs ys) (zs : List α) :
    AgreeTo (zs.length + n) (zs ++ xs) (zs ++ ys) := by
  rw [AgreeTo, List.take_length_add_append, List.take_length_add_append, h]

/-- Rows of columns that agree. -/
theorem AgreeTo.take_drop {xs ys : List α} (h : AgreeTo n xs ys) {j k : ℕ} (hjk : j + k ≤ n) :
    (xs.drop j).take k = (ys.drop j).take k := by
  rw [List.take_drop, List.take_drop, h.mono hjk]

theorem AgreeTo.slice {xs ys : List α} (h : AgreeTo n xs ys) (start stop : ℕ) :
    AgreeTo (n - start) ((xs.take stop).drop start) ((ys.take stop).drop start) := by
  refine AgreeTo.of_getElem? fun i hi => ?_
  rw [List.getElem?_drop, List.getElem?_drop, List.getElem?_take, List.getElem?_take,
    h.getElem?_eq (show start + i < n by omega)]

variable {K : Type} [Field K] [LinearOrder K] {sqrt : K → K} {D window : ℕ}

/-- A row is normalised with the rows up to it. -/
theorem AgreeTo.normalisedRow {xs ys : List (Fin D → K)} (h : AgreeTo n xs ys) {i : ℕ} (hi : i < n) :
    normalisedRow sqrt window xs i = normalisedRow sqrt window ys i := by
  have hcum : AgreeTo (n + 1) (runningSums xs) (runningSums ys) := h.scanl _ _
  have hcum2 : AgreeTo (n + 1) (runningSums (xs.map fun row => row ^ 2))
      (runningSums (ys.map fun row => row ^ 2)) := (h.map _).scanl _ _
  funext d
  simp only [TradingInfrastructure.normalisedRow, hcum.getD_eq (show i + 1 < n + 1 by omega),
    hcum.getD_eq (show i + 1 - window < n + 1 by omega),
    hcum2.getD_eq (show i + 1 < n + 1 by omega),
    hcum2.getD_eq (show i + 1 - window < n + 1 by omega), h.getD_eq hi]

/-- **The normalisation does not look ahead**, behind a history no longer than its window. -/
theorem AgreeTo.rollingNormalise {xs ys : List (Fin D → K)} (h : AgreeTo n xs ys)
    (hlength : xs.length = ys.length) (hwindow : 1 ≤ window) {history : List (Fin D → K)}
    (hhistory : history.length ≤ window) :
    AgreeTo n (rollingNormalise sqrt xs window (some history))
      (rollingNormalise sqrt ys window (some history)) := by
  by_cases hnil : xs = []
  · obtain rfl : xs = ys := by
      rw [hnil] at hlength ⊢
      exact (List.eq_nil_of_length_eq_zero hlength.symm).symm
    exact AgreeTo.refl _ _
  · have hnil' : ys ≠ [] := by
      rintro rfl
      exact hnil (List.eq_nil_of_length_eq_zero hlength)
    rw [rollingNormalise_of_short hwindow hnil hhistory,
      rollingNormalise_of_short hwindow hnil' hhistory, ← hlength]
    refine AgreeTo.of_getElem? fun i hi => ?_
    rw [List.getElem?_map, List.getElem?_map]
    by_cases hrow : i < xs.length
    · rw [List.getElem?_range' hrow, Option.map_some, Option.map_some,
        (h.append history).normalisedRow (by omega)]
    · rw [List.getElem?_eq_none (by simpa using hrow)]
      rfl

variable {cfg : TrainerConfig} {fn : ArrayFunctions K K} {columnType : String → Option ColumnType}

theorem length_computeScalarFeatures {rows : List (String → Cell K)} {raw : List (List K)}
    (h : computeScalarFeatures fn ⟨columnType, rows⟩ = some raw) : raw.length = rows.length := by
  obtain ⟨book, hbook, hsome⟩ := Option.bind_eq_some_iff.mp h
  split_ifs at hsome
  rw [← Option.some_inj.mp hsome, List.length_map, List.length_range, length_bookRows hbook]

/-- **The data sets do not look ahead.** -/
theorem AgreeTo.ofFrame {rows rows' : List (String → Cell K)} (h : AgreeTo n rows rows')
    (hlength : rows.length = rows'.length) {history : List (Fin 28 → K)}
    (hhistory : history.length ≤ 500) {ds ds' : LobDataset K}
    (hds : LobDataset.ofFrame fn sqrt ⟨columnType, rows⟩ cfg.dataset 500 (some history) = some ds)
    (hds' : LobDataset.ofFrame fn sqrt ⟨columnType, rows'⟩ cfg.dataset 500 (some history) =
      some ds') :
    AgreeTo n ds.lobArr ds'.lobArr ∧ AgreeTo n ds.scalarArr ds'.scalarArr := by
  simp only [LobDataset.ofFrame, Option.bind_eq_bind, Option.bind_eq_some_iff,
    Option.map_eq_some_iff] at hds hds'
  obtain ⟨lob, hlob, raw, hraw, labels, -, indices, -, rfl⟩ := hds
  obtain ⟨lob', hlob', raw', hraw', labels', -, indices', -, rfl⟩ := hds'
  have hcolumns : (⟨columnType, rows⟩ : LobFrame K).columnType =
      (⟨columnType, rows'⟩ : LobFrame K).columnType := rfl
  have hlobAgree : AgreeTo n lob lob' := AgreeTo.of_getElem? fun t ht =>
    computeLobTensor_causal hcolumns (h.mono ht) hlob hlob'
  have hrawAgree : AgreeTo n raw raw' := AgreeTo.of_getElem? fun t ht =>
    computeScalarFeatures_causal hcolumns (h.mono ht) hraw hraw'
  refine ⟨hlobAgree, ?_⟩
  refine (hrawAgree.map _).rollingNormalise ?_ (by omega) hhistory
  rw [List.length_map, List.length_map, length_computeScalarFeatures hraw,
    length_computeScalarFeatures hraw', hlength]

end Causal

/-! ## The folds that are trained -/

/-- What is left of a list of results, when they begin at some index. -/
theorem reduceOption_of_isSome {β : Type*} {items : List (Option β)} {first : ℕ}
    (h : ∀ j (hj : j < items.length), items[j].isSome ↔ first ≤ j) :
    items.reduceOption.length = items.length - first ∧
      ∀ k x, items.reduceOption[k]? = some x → items[first + k]? = some (some x) := by
  induction items generalizing first with
  | nil => exact ⟨(Nat.zero_sub _).symm, fun k x hk => by cases hk⟩
  | cons item items ih =>
    have hhead := h 0 (by simp)
    cases item with
    | none =>
      have hfirst : 0 < first := Nat.pos_of_ne_zero fun h0 => by simp [h0] at hhead
      obtain ⟨q, rfl⟩ := Nat.exists_eq_succ_of_ne_zero hfirst.ne'
      obtain ⟨hlength, hget⟩ := @ih q fun j hj => by
        have := h (j + 1) (by simpa using hj)
        simpa using this
      rw [List.reduceOption_cons_of_none]
      refine ⟨by simpa using hlength, fun k x hk => ?_⟩
      have hindex : q.succ + k = (q + k) + 1 := by omega
      rw [hindex, List.getElem?_cons_succ]
      exact hget k x hk
    | some y =>
      obtain rfl : first = 0 := by simpa using hhead
      obtain ⟨hlength, hget⟩ := @ih 0 fun j hj => by
        have := h (j + 1) (by simpa using hj)
        simpa using this
      rw [List.reduceOption_cons_of_some]
      refine ⟨by simpa using hlength, fun k x hk => ?_⟩
      cases k with
      | zero => simpa using hk
      | succ k =>
        have := hget k x (by simpa using hk)
        simpa using this

section TrainedFolds

variable {K S W M L P : Type} [Field K] [LinearOrder K] [LinearOrder L]
  {net : NetworkTraining K S W M L P} {cfg : TrainerConfig} {fn : ArrayFunctions K K} {sqrt : K → K}
  {columnType : String → Option ColumnType} {foldIdx : ℕ} {train test : List (String → Cell K)}

/-- **What a fold with enough rows does**: it is trained, or there are not enough rows before its
test to validate it. -/
theorem trainFold_cases (hseq : 0 < cfg.seqLen) (htest : cfg.seqLen ≤ test.length)
    {outcome : Option (FoldResult W M L P)}
    (h : trainFold net cfg fn sqrt columnType foldIdx train test = some outcome) :
    (outcome = none ∧ ¬ HasValidation train.length cfg.validationFrac cfg.seqLen) ∨
    (HasValidation train.length cfg.validationFrac cfg.seqLen ∧
      ∃ fitTrain val trainDs valDs wholeDs testDs,
        splitTrainValidation train cfg.validationFrac cfg.seqLen = some (fitTrain, val) ∧
        fitTrain ++ val = train ∧ cfg.seqLen ≤ fitTrain.length ∧ cfg.seqLen ≤ val.length ∧
        buildLoaders cfg fn sqrt columnType fitTrain val = some (trainDs, valDs) ∧
        buildLoaders cfg fn sqrt columnType train test = some (wholeDs, testDs) ∧
        outcome = some (foldResult net cfg foldIdx trainDs valDs testDs)) := by
  simp only [trainFold, Option.bind_eq_bind, Option.bind_eq_some_iff] at h
  obtain ⟨⟨fitTrain, val⟩, hsplit, h⟩ := h
  have hcases := splitTrainValidation_cases hseq hsplit
  dsimp only at h
  rcases hcases with ⟨hval, hvalid, happend, hfitLength, hvalLength⟩ | ⟨hval, hvalid⟩
  · rw [if_neg hval] at h
    simp only [Option.bind_eq_some_iff] at h
    obtain ⟨⟨trainDs, valDs⟩, hfitDs, ⟨wholeDs, testDs⟩, hwholeDs, h⟩ := h
    -- no data set is without windows
    obtain ⟨_, htrainFrame, -, hvalFrame⟩ := buildLoaders_eq_some hfitDs
    obtain ⟨_, -, -, htestFrame⟩ := buildLoaders_eq_some hwholeDs
    have hwindows : ∀ {rows : List (String → Cell K)} {history : Option (List (Fin 28 → K))}
        {ds : LobDataset K}, cfg.seqLen ≤ rows.length →
        LobDataset.ofFrame fn sqrt ⟨columnType, rows⟩ cfg.dataset 500 history = some ds →
          ds.indices ≠ [] := by
      intro rows history ds hrows hds
      rw [(indices_ofFrame hds).2]
      simp only [ne_eq, List.range_eq_nil]
      omega
    have hnone : ¬ (trainDs.indices = [] ∨ valDs.indices = [] ∨ testDs.indices = []) := by
      rintro (hnil | hnil | hnil)
      · exact hwindows hfitLength htrainFrame hnil
      · exact hwindows hvalLength hvalFrame hnil
      · exact hwindows htest htestFrame hnil
    dsimp only at h
    rw [if_neg hnone] at h
    exact .inr ⟨hvalid, fitTrain, val, trainDs, valDs, wholeDs, testDs, hsplit, happend, hfitLength,
      hvalLength, hfitDs, hwholeDs, (Option.some_inj.mp h).symm⟩
  · rw [if_pos hval] at h
    exact .inl ⟨(Option.some_inj.mp h).symm, hvalid⟩

/-- A fold is trained: there are enough rows in its test, and before it to fit and to validate. -/
def isTrained (cfg : TrainerConfig) (foldSize i : ℕ) : Prop :=
  hasRows foldSize cfg.trainFrac cfg.seqLen i = true ∧
    HasValidation (testStart foldSize cfg.trainFrac i) cfg.validationFrac cfg.seqLen

instance (cfg : TrainerConfig) (foldSize i : ℕ) : Decidable (isTrained cfg foldSize i) :=
  inferInstanceAs (Decidable (_ ∧ _ ∧ _ ∧ _))

/-- How many folds are not trained. -/
def skippedFolds (cfg : TrainerConfig) (foldSize : ℕ) : ℕ :=
  (List.range cfg.nFolds).countP fun i => !decide (isTrained cfg foldSize i)

theorem skippedFolds_le_iff {foldSize i : ℕ} (hi : i < cfg.nFolds) :
    skippedFolds cfg foldSize ≤ i ↔ isTrained cfg foldSize i := by
  refine (countP_not_le_iff (p := fun i => decide (isTrained cfg foldSize i)) ?_ hi).trans
    decide_eq_true_iff
  intro i j hij h
  rw [decide_eq_true_eq] at h ⊢
  exact ⟨hasRows_mono _ _ hij h.1, h.2.mono (testStart_mono hij)⟩

/-- **The results are those of the last folds.** -/
theorem walkForwardTrain_getElem? (h0 : 0 ≤ cfg.trainFrac) (h1 : cfg.trainFrac ≤ 1)
    (hseq : 0 < cfg.seqLen) {df : LobFrame K} {results : List (FoldResult W M L P)}
    (h : walkForwardTrain net cfg fn sqrt df = some results) :
    let foldSize := df.rows.length / cfg.nFolds
    let first := skippedFolds cfg foldSize
    let dropped := droppedFolds foldSize cfg.nFolds cfg.trainFrac cfg.seqLen
    results.length = cfg.nFolds - first ∧
      ∀ k result, results[k]? = some result →
        trainFold net cfg fn sqrt df.columnType (first - dropped + k)
          (foldRows df.rows foldSize cfg.trainFrac (first + k)).1
          (foldRows df.rows foldSize cfg.trainFrac (first + k)).2 = some (some result) := by
  intro foldSize first dropped
  simp only [walkForwardTrain, Option.bind_eq_bind, Option.bind_eq_some_iff, Option.pure_def,
    Option.some.injEq] at h
  obtain ⟨splits, hsplits, folds, hfolds, rfl⟩ := h
  have hsplitsEq : splits = ((List.range cfg.nFolds).drop dropped).map
      (foldRows df.rows foldSize cfg.trainFrac) := splitWalkForward_eq h0 h1 hsplits
  have hdropped : dropped ≤ cfg.nFolds := by
    have := List.countP_le_length (l := List.range cfg.nFolds)
      (p := fun i => !hasRows foldSize cfg.trainFrac cfg.seqLen i)
    rwa [List.length_range] at this
  have hlength : folds.length = cfg.nFolds - dropped := by
    have hunits := map_of_mapM (g := fun _ => ()) (k := fun _ => ()) hfolds fun _ _ _ => rfl
    have := congrArg List.length hunits
    simpa [hsplitsEq] using this
  have hfold : ∀ j, (hj : j < folds.length) →
      trainFold net cfg fn sqrt df.columnType j
        (foldRows df.rows foldSize cfg.trainFrac (dropped + j)).1
        (foldRows df.rows foldSize cfg.trainFrac (dropped + j)).2 = some folds[j] := by
    intro j hj
    have hget := getElem?_of_mapM hfolds j
    rw [List.getElem?_eq_getElem hj, List.getElem?_zipIdx, hsplitsEq, List.getElem?_map,
      List.getElem?_drop, List.getElem?_range (by omega)] at hget
    simpa using hget.symm
  have hfirst : dropped ≤ first := by
    refine List.countP_mono_left fun i _ hi => ?_
    rw [Bool.not_eq_true'] at hi ⊢
    rw [decide_eq_false_iff_not, isTrained, hi]
    exact fun h => Bool.false_ne_true h.1
  have htrained : ∀ j (hj : j < folds.length), folds[j].isSome ↔ first - dropped ≤ j := by
    intro j hj
    have hj' : dropped + j < cfg.nFolds := by omega
    have hrows : hasRows foldSize cfg.trainFrac cfg.seqLen (dropped + j) = true :=
      (countP_not_le_iff hasRows_mono hj').mp (Nat.le_add_right _ _)
    have hends : (dropped + j + 1) * foldSize ≤ df.rows.length := foldEnd_le hj'
    obtain ⟨htrain, htest⟩ := @length_foldRows _ cfg.trainFrac foldSize (dropped + j) df.rows h0
      hends
    have henough := of_decide_eq_true hrows
    have hiff : first - dropped ≤ j ↔ isTrained cfg foldSize (dropped + j) := by
      rw [← skippedFolds_le_iff hj']
      omega
    rw [hiff, isTrained, hrows, ← htrain]
    rcases trainFold_cases hseq (by rw [htest]; exact henough.2) (hfold j hj) with
      ⟨hnone, hvalid⟩ | ⟨hvalid, fitTrain, val, trainDs, valDs, wholeDs, testDs, -, -, -, -, -, -,
        hsome⟩
    · rw [hnone]
      simpa using hvalid
    · rw [hsome]
      simpa using hvalid
  obtain ⟨hcount, hget⟩ := reduceOption_of_isSome htrained
  refine ⟨by rw [hcount, hlength]; omega, fun k result hk => ?_⟩
  have hsome := hget k result hk
  obtain ⟨hlt, heq⟩ := List.getElem?_eq_some_iff.mp hsome
  have hrun := hfold (first - dropped + k) hlt
  rw [heq] at hrun
  have hindex : dropped + (first - dropped + k) = first + k := by omega
  rwa [hindex] at hrun

/-- **A fold does not look ahead**: its network is trained and chosen before its test, and its
outputs for a window depend on no row behind the window. -/
theorem trainFold_causal (hseq : 0 < cfg.seqLen) (hshort : cfg.seqLen ≤ 500) {n : ℕ}
    {test' : List (String → Cell K)} (htest : cfg.seqLen ≤ test.length)
    (hlength : test.length = test'.length) (h : AgreeTo n test test')
    {result result' : FoldResult W M L P}
    (hrun : trainFold net cfg fn sqrt columnType foldIdx train test = some (some result))
    (hrun' : trainFold net cfg fn sqrt columnType foldIdx train test' = some (some result')) :
    result.modelState = result'.modelState ∧
      result.validationMetrics = result'.validationMetrics ∧
      result.bestSelectionScore = result'.bestSelectionScore ∧
      ∀ j, j + cfg.seqLen ≤ n → result.predictions[j]? = result'.predictions[j]? := by
  rcases trainFold_cases hseq htest hrun with ⟨hnone, -⟩ | ⟨-, fitTrain, val, trainDs, valDs,
    wholeDs, testDs, hsplit, -, -, -, hfit, hwhole, hresult⟩
  · cases hnone
  rcases trainFold_cases hseq (hlength ▸ htest) hrun' with ⟨hnone, -⟩ | ⟨-, fitTrain', val',
    trainDs', valDs', wholeDs', testDs', hsplit', -, -, -, hfit', hwhole', hresult'⟩
  · cases hnone
  obtain ⟨rfl, rfl⟩ := Prod.mk.inj (Option.some_inj.mp (hsplit.symm.trans hsplit'))
  obtain ⟨rfl, rfl⟩ := Prod.mk.inj (Option.some_inj.mp (hfit.symm.trans hfit'))
  obtain rfl := Option.some_inj.mp hresult
  obtain rfl := Option.some_inj.mp hresult'
  obtain ⟨raw, -, hraw, htestFrame⟩ := buildLoaders_eq_some hwhole
  obtain ⟨raw', -, hraw', htestFrame'⟩ := buildLoaders_eq_some hwhole'
  obtain rfl := Option.some_inj.mp (hraw.symm.trans hraw')
  have hhistory : (lastRows cfg.seqLen
      (raw.map fun row (d : Fin 28) => row.getD d 0)).length ≤ 500 := by
    rw [length_lastRows hseq]
    omega
  obtain ⟨hlob, hscalar⟩ := h.ofFrame hlength hhistory htestFrame htestFrame'
  obtain ⟨hcfg, hindices⟩ := indices_ofFrame htestFrame
  obtain ⟨hcfg', hindices'⟩ := indices_ofFrame htestFrame'
  refine ⟨rfl, rfl, rfl, fun j hj => ?_⟩
  have hseqLen : cfg.dataset.seqLen = cfg.seqLen := rfl
  simp only [foldResult]
  rw [getElem?_predictions net _ hindices, getElem?_predictions net _ hindices', hcfg, hcfg',
    hlength, hseqLen, hlob.take_drop hj, hscalar.take_drop hj]

/-- There are enough rows in the test of a fold that is trained. -/
theorem isTrained_result (h0 : 0 ≤ cfg.trainFrac) (h1 : cfg.trainFrac ≤ 1) (hseq : 0 < cfg.seqLen)
    {df : LobFrame K} {results : List (FoldResult W M L P)}
    (h : walkForwardTrain net cfg fn sqrt df = some results) {k : ℕ} (hk : k < results.length) :
    let foldSize := df.rows.length / cfg.nFolds
    let i := skippedFolds cfg foldSize + k
    i < cfg.nFolds ∧ isTrained cfg foldSize i := by
  intro foldSize i
  have hcount := (walkForwardTrain_getElem? h0 h1 hseq h).1
  rw [show results.length = cfg.nFolds - skippedFolds cfg foldSize from hcount] at hk
  have hlt : i < cfg.nFolds := by omega
  exact ⟨hlt, (skippedFolds_le_iff hlt).mp (Nat.le_add_right _ _)⟩

section TwoFrames

variable {df df' : LobFrame K} {m k : ℕ} {results results' : List (FoldResult W M L P)}

/-- The result of a fold in two frames that agree on the rows before its test. -/
theorem result_causal (h0 : 0 ≤ cfg.trainFrac) (h1 : cfg.trainFrac ≤ 1) (hseq : 0 < cfg.seqLen)
    (hshort : cfg.seqLen ≤ 500) (hcolumns : df.columnType = df'.columnType)
    (hlength : df.rows.length = df'.rows.length) (hagree : AgreeTo m df.rows df'.rows)
    (h : walkForwardTrain net cfg fn sqrt df = some results)
    (h' : walkForwardTrain net cfg fn sqrt df' = some results') {result result' : FoldResult W M L P}
    (hk : results[k]? = some result) (hk' : results'[k]? = some result')
    (hstart : testStart (df.rows.length / cfg.nFolds) cfg.trainFrac
      (skippedFolds cfg (df.rows.length / cfg.nFolds) + k) ≤ m) :
    result.modelState = result'.modelState ∧
      result.validationMetrics = result'.validationMetrics ∧
      result.bestSelectionScore = result'.bestSelectionScore ∧
      ∀ j, testStart (df.rows.length / cfg.nFolds) cfg.trainFrac
          (skippedFolds cfg (df.rows.length / cfg.nFolds) + k) + j + cfg.seqLen ≤ m →
        result.predictions[j]? = result'.predictions[j]? := by
  obtain ⟨hlt, htrained⟩ := isTrained_result h0 h1 hseq h (List.getElem?_eq_some_iff.mp hk).1
  have hrun := (walkForwardTrain_getElem? h0 h1 hseq h).2 k result hk
  have hrun' := (walkForwardTrain_getElem? h0 h1 hseq h').2 k result' hk'
  rw [← hlength, ← hcolumns] at hrun'
  set foldSize := df.rows.length / cfg.nFolds
  set i := skippedFolds cfg foldSize + k
  have hrows := of_decide_eq_true htrained.1
  obtain ⟨-, htest⟩ := @length_foldRows _ cfg.trainFrac foldSize i df.rows h0 (foldEnd_le hlt)
  obtain ⟨-, htest'⟩ := @length_foldRows _ cfg.trainFrac foldSize i df'.rows h0
    (hlength ▸ foldEnd_le hlt)
  have htrain : (foldRows df.rows foldSize cfg.trainFrac i).1 =
      (foldRows df'.rows foldSize cfg.trainFrac i).1 := hagree.mono hstart
  rw [← htrain] at hrun'
  obtain ⟨hstate, hmetrics, hscore, hpredictions⟩ := trainFold_causal hseq hshort
    (htest ▸ hrows.2) (htest.trans htest'.symm) (hagree.slice _ _) hrun hrun'
  exact ⟨hstate, hmetrics, hscore, fun j hj => hpredictions j (by omega)⟩

end TwoFrames

/-- **A fold keeps the first of its best epochs.** Every fold that is trained runs until its patience
is over for the first time, or to the end, and what it returns is the first of the best of the epochs
that it has evaluated: its network, its metrics and its score, which evaluating the network again
gives too. -/
theorem walkForwardTrain_best (h0 : 0 ≤ cfg.trainFrac) (h1 : cfg.trainFrac ≤ 1)
    (hseq : 0 < cfg.seqLen) (hepochs : 0 < cfg.epochs) {df : LobFrame K}
    {results : List (FoldResult W M L P)} (h : walkForwardTrain net cfg fn sqrt df = some results)
    {k : ℕ} {result : FoldResult W M L P} (hk : results[k]? = some result) :
    let foldSize := df.rows.length / cfg.nFolds
    let first := skippedFolds cfg foldSize
    ∃ foldIdx fitTrain val trainDs valDs run best,
      splitTrainValidation (df.rows.take (testStart foldSize cfg.trainFrac (first + k)))
          cfg.validationFrac cfg.seqLen = some (fitTrain, val) ∧
        buildLoaders cfg fn sqrt df.columnType fitTrain val = some (trainDs, valDs) ∧
        (run = cfg.epochs ∨ run < cfg.epochs ∧ Impatient net cfg foldIdx trainDs valDs run) ∧
        (∀ earlier < run, ¬ Impatient net cfg foldIdx trainDs valDs earlier) ∧
        best ∈ evaluated cfg run ∧
        (∀ epoch ∈ evaluated cfg run,
          (epochResult net foldIdx trainDs valDs best).selectionLoss ≤
              (epochResult net foldIdx trainDs valDs epoch).selectionLoss ∧
            (epoch < best → (epochResult net foldIdx trainDs valDs best).selectionLoss <
              (epochResult net foldIdx trainDs valDs epoch).selectionLoss)) ∧
        result.modelState = some (epochResult net foldIdx trainDs valDs best).state ∧
        result.validationMetrics = (epochResult net foldIdx trainDs valDs best).metrics ∧
        result.bestMetrics = result.validationMetrics ∧
        result.selectionScore = (epochResult net foldIdx trainDs valDs best).selectionLoss ∧
        result.bestSelectionScore = some result.selectionScore := by
  intro foldSize first
  have hrun := (walkForwardTrain_getElem? h0 h1 hseq h).2 k result hk
  obtain ⟨hlt, htrained⟩ := isTrained_result h0 h1 hseq h (List.getElem?_eq_some_iff.mp hk).1
  have hrows := of_decide_eq_true htrained.1
  obtain ⟨-, htest⟩ := @length_foldRows _ cfg.trainFrac foldSize (first + k) df.rows h0
    (foldEnd_le hlt)
  rcases trainFold_cases hseq (htest ▸ hrows.2) hrun with ⟨hnone, -⟩ | ⟨-, fitTrain, val, trainDs,
    valDs, wholeDs, testDs, hsplit, -, -, -, hfit, -, hresult⟩
  · cases hnone
  obtain rfl := Option.some_inj.mp hresult
  set foldIdx := first - droppedFolds foldSize cfg.nFolds cfg.trainFrac cfg.seqLen + k
  obtain ⟨run, hle, hloop, hearlier, hend⟩ :=
    @exists_loopAt K S W M L P _ net cfg foldIdx trainDs valDs cfg.epochs
  -- the last epoch is evaluated, and without an evaluation the patience is not over
  have hevaluated : evaluated cfg run ≠ [] := by
    rcases hend with rfl | ⟨hpatience, hover⟩
    · refine List.ne_nil_of_mem (mem_evaluated.mpr ⟨Nat.sub_lt hepochs one_pos, ?_⟩ :
        cfg.epochs - 1 ∈ evaluated cfg cfg.epochs)
      exact decide_eq_true (.inr (Nat.sub_add_cancel hepochs))
    · intro hnil
      rw [unimproved, hnil] at hover
      simp at hover
      omega
  obtain ⟨best, hbest⟩ : ∃ best, bestEpoch net cfg foldIdx trainDs valDs run = some best := by
    refine Option.ne_none_iff_exists'.mp fun hnone => ?_
    obtain ⟨epoch, hepoch⟩ := List.exists_mem_of_ne_nil _ hevaluated
    have := firstMin_none hnone hepoch rfl
    exact absurd (top_le_iff.mp this) (WithTop.coe_ne_top)
  have hkept : (trainEpochs net cfg foldIdx trainDs valDs).best =
      some (epochResult net foldIdx trainDs valDs best) := by
    have := hloop.best
    rwa [hbest] at this
  refine ⟨foldIdx, fitTrain, val, trainDs, valDs, run, best, hsplit, hfit, ?_, hearlier,
    mem_of_firstMin hbest, fun epoch hepoch => ⟨?_, fun hbefore => ?_⟩, ?_, ?_, ?_, ?_, ?_⟩
  · rcases hend with heq | himpatient
    · exact .inl heq
    · rcases hle.eq_or_lt with heq | hlt
      · exact .inl heq
      · exact .inr ⟨hlt, himpatient⟩
  · exact WithTop.coe_le_coe.mp (firstMin_le hbest hepoch rfl)
  · have hle := WithTop.coe_le_coe.mp (firstMin_le hbest hepoch rfl)
    refine hle.lt_of_ne fun heq => ?_
    have hsorted : (evaluated cfg run).Pairwise (· < ·) := List.pairwise_lt_range.filter _
    rcases firstMin_first hsorted hbest hepoch rfl (congrArg _ heq) with hsame | hafter
    · omega
    · omega
  all_goals simp only [foldResult, hkept, Option.map_some, Option.getD_some]
  all_goals rfl

end TrainedFolds

/-! ## A fold of four rows -/

/-- A network that counts its epochs, is best after the first one, and puts out the mid of the last
row of a window. -/
def countingNetwork : NetworkTraining ℚ ℕ ℕ ℚ ℚ ℚ where
  prepare _ _ := 0
  trainEpoch _ epochs := epochs + 1
  stateDict epochs := epochs
  evalEpoch _ epochs _ := epochs
  selectionScore := id
  output _ _ scalar := (scalar.getD 0 0) 0

/-- One fold, of which a half is the test and a quarter validates it. -/
def halfFold : TrainerConfig where
  nFolds := 1
  trainFrac := 1 / 2
  validationFrac := 1 / 2
  seqLen := 1
  epochs := 3
  earlyStopPatience := 1

/-- The fold stops after its second epoch and keeps the first. -/
theorem walkForwardTrain_best_four : ∃ results result,
    walkForwardTrain countingNetwork halfFold exactArrays id (framesOfSpreads [1, 1, 1, 1]) =
        some results ∧ results[0]? = some result ∧ result.modelState = some 1 ∧
      result.bestSelectionScore = some result.selectionScore := by
  obtain ⟨results, h⟩ := Option.isSome_iff_exists.mp
    (show (walkForwardTrain countingNetwork halfFold exactArrays id
      (framesOfSpreads [1, 1, 1, 1])).isSome by decide +kernel)
  have hstate : results.map FoldResult.modelState = [some 1] := by
    have : (walkForwardTrain countingNetwork halfFold exactArrays id
        (framesOfSpreads [1, 1, 1, 1])).map (·.map FoldResult.modelState) = some [some 1] := by
      decide +kernel
    rw [h] at this
    exact Option.some_inj.mp this
  obtain ⟨result, rfl⟩ := List.length_eq_one_iff.mp (show results.length = 1 by
    simpa using congrArg List.length hstate)
  have hbest := walkForwardTrain_best (by norm_num [halfFold]) (by norm_num [halfFold])
    (by decide) (by decide) h (show [result][0]? = some result from rfl)
  obtain ⟨_, _, _, _, _, _, _, _, _, _, _, _, _, _, _, _, _, hscore⟩ := hbest
  exact ⟨[result], result, h, rfl, by simpa using hstate, hscore⟩

end TradingInfrastructure
