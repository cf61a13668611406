import TradingInfrastructure.Research.WalkForward

/-!
# What the daily training measures

`run` of `deploy/daily_train.py` takes the last rows of its frame, as many as a fold has, for its
backtest, and as the hold-out on which it compares the challenger with the champion. The signals and
the networks come from the folds of `walk_forward_train`, where only the last quarter of a fold is
its test.

The challenger has been trained on the first rows of the hold-out when it is the network of the last
fold, and only then (`holdout_seen`). The backtest trades a row with the signal of a window that ends
behind it (`dailyBacktest_ahead`).
-/

namespace TradingInfrastructure

/-! ## Signals for ticks -/

section TickSignals

variable {K : Type} [Zero K]

/-- `tick_signals`: the signal of a window goes to its last tick. -/
def buildTickSignals (signals : List K) (testLength seqLen : ℕ) : List K :=
  signals.zipIdx.foldl (fun ticks signal =>
    ticks.set (min (signal.2 + seqLen - 1) (testLength - 1)) signal.1) (List.replicate testLength 0)

/-- **The signal of a tick** is that of the window that ends with it. -/
theorem getElem?_buildTickSignals {signals : List K} {testLength seqLen t : ℕ} (hseq : 0 < seqLen)
    (hlength : signals.length + seqLen ≤ testLength + 1) (ht : t < testLength) :
    (buildTickSignals signals testLength seqLen)[t]? =
      some (if seqLen ≤ t + 1 then signals.getD (t + 1 - seqLen) 0 else 0) := by
  induction signals using List.reverseRecOn with
  | nil => simp [buildTickSignals, ht]
  | append_singleton signals signal ih =>
    have hfits : signals.length + seqLen ≤ testLength := by
      simpa [Nat.add_right_comm] using hlength
    have hbefore := ih (hfits.trans (Nat.le_succ _))
    have hindex : min (signals.length + seqLen - 1) (testLength - 1) =
        signals.length + seqLen - 1 := by omega
    have hset : buildTickSignals (signals ++ [signal]) testLength seqLen =
        (buildTickSignals signals testLength seqLen).set (signals.length + seqLen - 1) signal := by
      rw [buildTickSignals, List.zipIdx_append, List.foldl_append]
      simp only [List.zipIdx_singleton, List.foldl_cons, List.foldl_nil, Nat.zero_add, hindex]
      rfl
    have hsome : t < (buildTickSignals signals testLength seqLen).length :=
      (List.getElem?_eq_some_iff.mp hbefore).1
    rw [hset, List.getElem?_set]
    by_cases hlast : signals.length + seqLen - 1 = t
    · have hposition : t + 1 - seqLen = signals.length := by omega
      rw [if_pos hlast, if_pos (by omega), if_pos (by omega), hposition]
      simp
    · rw [if_neg hlast, hbefore]
      by_cases hwindow : seqLen ≤ t + 1
      · rw [if_pos hwindow, if_pos hwindow]
        have hne : t + 1 - seqLen ≠ signals.length := by omega
        rcases Nat.lt_or_gt_of_ne hne with hlt | hgt
        · rw [List.getD_append _ _ _ _ hlt]
        · rw [List.getD_eq_default _ _ hgt.le, List.getD_eq_default _ _ (by simpa using hgt)]
      · rw [if_neg hwindow, if_neg hwindow]

end TickSignals

/-! ## The last rows and the last fold -/

/-- Where the last rows of a frame begin, as many as a fold has: `test_start` and `holdout_start`. -/
def holdoutStart (nFolds total : ℕ) : ℕ := total - total / nFolds

/-- `test_df` and `holdout_df`. -/
def holdout {α : Type} (nFolds : ℕ) (rows : List α) : List α :=
  sliceRows rows (holdoutStart nFolds rows.length) rows.length

theorem holdout_eq {α : Type} (nFolds : ℕ) (rows : List α) :
    holdout nFolds rows = rows.drop (holdoutStart nFolds rows.length) := by
  have hstart : holdoutStart nFolds rows.length ≤ rows.length := Nat.sub_le _ _
  rw [holdout, sliceRows_natCast rows le_rfl hstart, List.take_length]

/-- The test of a fold is its last quarter. -/
theorem testSize_quarter (foldSize : ℕ) : testSize foldSize (3 / 4) = (foldSize + 3) / 4 := by
  have hceil : ⌈(foldSize : ℚ) * (1 - 3 / 4)⌉ = ((foldSize + 3) / 4 : ℕ) := by
    have hlow : foldSize ≤ 4 * ((foldSize + 3) / 4) := by omega
    have hhigh : 4 * ((foldSize + 3) / 4) ≤ foldSize + 3 := by omega
    have hlow' : (foldSize : ℚ) ≤ 4 * ((foldSize + 3) / 4 : ℕ) := by exact_mod_cast hlow
    have hhigh' : 4 * (((foldSize + 3) / 4 : ℕ) : ℚ) ≤ foldSize + 3 := by exact_mod_cast hhigh
    rw [Int.ceil_eq_iff, Int.cast_natCast]
    constructor <;> linarith
  rw [testSize, hceil, Int.toNat_natCast]

/-- **The test of the last fold begins behind the last rows**, by three times the length of a window
but for a few rows; that of an earlier fold begins before them. -/
theorem testStart_cases {nFolds total seqLen i : ℕ} (hi : i < nFolds)
    (hfew : nFolds + 2 < 3 * seqLen) (htest : seqLen ≤ testSize (total / nFolds) (3 / 4)) :
    if i + 1 = nFolds then
      ∃ ahead, testStart (total / nFolds) (3 / 4) i = holdoutStart nFolds total + ahead ∧
        3 * seqLen ≤ ahead + 2 + nFolds
    else testStart (total / nFolds) (3 / 4) i ≤ holdoutStart nFolds total := by
  have hdiv := Nat.div_add_mod total nFolds
  have hmod := Nat.mod_lt total (Nat.zero_lt_of_lt hi)
  rw [testSize_quarter] at htest
  rw [testStart, testSize_quarter, holdoutStart]
  split_ifs with hlast
  · have hfold : total / nFolds ≤ nFolds * (total / nFolds) :=
      Nat.le_mul_of_pos_left _ (Nat.zero_lt_of_lt hi)
    rw [hlast]
    generalize total / nFolds = foldSize at *
    generalize nFolds * foldSize = whole at *
    refine ⟨foldSize - (foldSize + 3) / 4 - total % nFolds, ?_, ?_⟩ <;> omega
  · have hbefore : (i + 1 + 1) * (total / nFolds) ≤ nFolds * (total / nFolds) :=
      Nat.mul_le_mul_right _ (Nat.lt_of_le_of_ne hi hlast)
    rw [Nat.add_one_mul] at hbefore
    omega

/-! ## The hold-out and the backtest -/

section Daily

variable {K S W M L P : Type} [Field K] [LinearOrder K] [LinearOrder L]
  {net : NetworkTraining K S W M L P} {cfg : TrainerConfig} {fn : ArrayFunctions K K} {sqrt : K → K}
  {df : LobFrame K} {results : List (FoldResult W M L P)} {result : FoldResult W M L P} {k : ℕ}

/-- **What a result is**: that of its fold, on the rows before the test and those of the test. -/
theorem result_eq (htrain : cfg.trainFrac = 3 / 4) (hseq : 0 < cfg.seqLen)
    (h : walkForwardTrain net cfg fn sqrt df = some results) (hk : results[k]? = some result) :
    ∃ i < cfg.nFolds, (i + 1 = cfg.nFolds ↔ k + 1 = results.length) ∧
      cfg.seqLen ≤ testSize (df.rows.length / cfg.nFolds) (3 / 4) ∧
      ∃ foldIdx fitTrain val trainDs valDs testDs history,
        fitTrain ++ val =
            df.rows.take (testStart (df.rows.length / cfg.nFolds) (3 / 4) i) ∧
          buildLoaders cfg fn sqrt df.columnType fitTrain val = some (trainDs, valDs) ∧
          LobDataset.ofFrame fn sqrt ⟨df.columnType,
            (foldRows df.rows (df.rows.length / cfg.nFolds) (3 / 4) i).2⟩ cfg.dataset 500
              (some history) = some testDs ∧
          result = foldResult net cfg foldIdx trainDs valDs testDs := by
  have h0 : 0 ≤ cfg.trainFrac := by rw [htrain]; norm_num
  have h1 : cfg.trainFrac ≤ 1 := by rw [htrain]; norm_num
  have hlength := (List.getElem?_eq_some_iff.mp hk).1
  obtain ⟨hlt, htrained⟩ := isTrained_result h0 h1 hseq h hlength
  obtain ⟨hcount, hrun⟩ := walkForwardTrain_getElem? h0 h1 hseq h
  obtain ⟨-, hrows⟩ := of_decide_eq_true htrained.1
  obtain ⟨-, htest⟩ := @length_foldRows _ cfg.trainFrac _ _ df.rows h0 (foldEnd_le hlt)
  rw [htrain] at hrows
  refine ⟨_, hlt, by omega, hrows, ?_⟩
  rw [htrain] at htest
  rcases trainFold_cases hseq (by rw [htrain, htest]; exact hrows) (hrun k result hk) with
    ⟨hnone, -⟩ | ⟨-, fitTrain, val, trainDs, valDs, wholeDs, testDs, -, happend, -, -, hfit, hwhole,
      hresult⟩
  · cases hnone
  obtain ⟨_, -, -, htestFrame⟩ := buildLoaders_eq_some hwhole
  rw [htrain] at happend htestFrame
  exact ⟨_, fitTrain, val, trainDs, valDs, testDs, _, happend, hfit, htestFrame,
    Option.some_inj.mp hresult⟩

/-- **Whether the hold-out has been seen.** The network of a fold is trained and chosen on the first
rows of the frame. For the last fold these reach into the hold-out, by three times the length of a
window but for a few rows; for the others they end before it. -/
theorem holdout_seen (htrain : cfg.trainFrac = 3 / 4) (hfew : cfg.nFolds + 2 < 3 * cfg.seqLen)
    (h : walkForwardTrain net cfg fn sqrt df = some results) (hk : results[k]? = some result) :
    ∃ foldIdx fitTrain val trainDs valDs testDs,
      result = foldResult net cfg foldIdx trainDs valDs testDs ∧
        buildLoaders cfg fn sqrt df.columnType fitTrain val = some (trainDs, valDs) ∧
        if k + 1 = results.length then
          ∃ seen, fitTrain ++ val =
              df.rows.take (holdoutStart cfg.nFolds df.rows.length) ++ seen ∧
            seen <+: holdout cfg.nFolds df.rows ∧ 3 * cfg.seqLen ≤ seen.length + 2 + cfg.nFolds
        else fitTrain ++ val <+: df.rows.take (holdoutStart cfg.nFolds df.rows.length) := by
  obtain ⟨i, hi, hlast, htest, foldIdx, fitTrain, val, trainDs, valDs, testDs, _, happend, hfit, -,
    hresult⟩ := result_eq htrain (by omega) h hk
  refine ⟨foldIdx, fitTrain, val, trainDs, valDs, testDs, hresult, hfit, ?_⟩
  have hcases := testStart_cases hi hfew htest
  rw [happend]
  by_cases hfold : i + 1 = cfg.nFolds
  · rw [if_pos hfold] at hcases
    rw [if_pos (hlast.mp hfold)]
    obtain ⟨ahead, hstart, hahead⟩ := hcases
    have hend : testStart (df.rows.length / cfg.nFolds) (3 / 4) i ≤ df.rows.length :=
      (Nat.sub_le _ _).trans (foldEnd_le hi)
    refine ⟨(holdout cfg.nFolds df.rows).take ahead, ?_, List.take_prefix _ _, ?_⟩
    · rw [hstart, List.take_add, holdout_eq]
    · rw [holdout_eq, List.length_take, List.length_drop]
      omega
  · rw [if_neg hfold] at hcases
    rw [if_neg (mt hlast.mpr hfold)]
    exact List.take_prefix_take_left hcases

/-- One fold with windows of three rows. -/
def quarterFold : TrainerConfig where
  nFolds := 1
  validationFrac := 1 / 2
  seqLen := 3
  epochs := 1

/-- Nine rows. -/
def nineRows : LobFrame ℚ := framesOfSpreads [1, 1, 1, 1, 1, 1, 1, 1, 1]

theorem quarterFold_trained : ∃ result, walkForwardTrain countingNetwork quarterFold exactArrays id
    nineRows = some [result] := by
  have hone : (walkForwardTrain countingNetwork quarterFold exactArrays id nineRows).map
      List.length = some 1 := by decide +kernel
  obtain ⟨results, h, hlength⟩ := Option.map_eq_some_iff.mp hone
  obtain ⟨result, rfl⟩ := List.length_eq_one_iff.mp hlength
  exact ⟨result, h⟩

/-- Of nine rows the network has seen six, and all nine are the hold-out. -/
theorem holdout_seen_nine : ∃ result foldIdx fitTrain val trainDs valDs testDs seen,
    walkForwardTrain countingNetwork quarterFold exactArrays id nineRows = some [result] ∧
      result = foldResult countingNetwork quarterFold foldIdx trainDs valDs testDs ∧
      buildLoaders quarterFold exactArrays id nineRows.columnType fitTrain val =
        some (trainDs, valDs) ∧
      seen <+: fitTrain ++ val ∧ 6 ≤ seen.length := by
  obtain ⟨result, h⟩ := quarterFold_trained
  obtain ⟨foldIdx, fitTrain, val, trainDs, valDs, testDs, hresult, hfit, hseen⟩ :=
    holdout_seen rfl (by decide) h (show [result][0]? = some result from rfl)
  rw [if_pos (show 0 + 1 = [result].length from rfl)] at hseen
  obtain ⟨seen, happend, -, hlength⟩ := hseen
  have hzero : holdoutStart quarterFold.nFolds nineRows.rows.length = 0 := by decide
  rw [hzero, List.take_zero, List.nil_append] at happend
  refine ⟨result, foldIdx, fitTrain, val, trainDs, valDs, testDs, seen, h, hresult, hfit,
    ⟨[], by rw [happend, List.append_nil]⟩, ?_⟩
  have hrows : 3 * quarterFold.seqLen ≤ seen.length + 2 + quarterFold.nFolds := hlength
  simp only [quarterFold] at hrows
  omega

omit [Field K] [LinearOrder K] [LinearOrder L] in
theorem length_predictions (net : NetworkTraining K S W M L P) (state : W) {ds : LobDataset K}
    {windows : ℕ} (hindices : ds.indices = List.range windows) :
    (predictions net state ds).length = windows := by
  have hget := getElem?_predictions net state hindices
  refine le_antisymm (List.getElem?_eq_none_iff.mp (by rw [hget, if_neg (lt_irrefl _)])) ?_
  by_contra hshort
  have hnone := hget (predictions net state ds).length
  rw [if_pos (not_le.mp hshort), List.getElem?_eq_none le_rfl] at hnone
  cases hnone

/-- What the daily training hands to its backtest: the last rows and the signals for them. -/
def dailyBacktest (cfg : TrainerConfig) (signal : P → K) (rows : List (String → Cell K))
    (last : FoldResult W M L P) : List (String → Cell K) × List K :=
  let test := holdout cfg.nFolds rows
  (test, buildTickSignals (last.predictions.map signal) test.length cfg.seqLen)

/-- **The backtest looks ahead.** A row is traded with the signal of the window that ends so many
rows behind it, three times the length of a window but for a few; the last rows have no signal. -/
theorem dailyBacktest_ahead (htrain : cfg.trainFrac = 3 / 4)
    (hfew : cfg.nFolds + 2 < 3 * cfg.seqLen) (signal : P → K)
    (h : walkForwardTrain net cfg fn sqrt df = some results)
    (hlast : results.getLast? = some result) :
    ∃ ahead state testDs history,
      3 * cfg.seqLen ≤ ahead + 2 + cfg.nFolds ∧
        LobDataset.ofFrame fn sqrt ⟨df.columnType,
          (df.rows.take (cfg.nFolds * (df.rows.length / cfg.nFolds))).drop
            (holdoutStart cfg.nFolds df.rows.length + ahead)⟩ cfg.dataset 500 (some history) =
            some testDs ∧
        ∀ t < df.rows.length / cfg.nFolds,
          (dailyBacktest cfg signal df.rows result).2[t]? =
            some (if cfg.seqLen ≤ t + 1 ∧ t < testSize (df.rows.length / cfg.nFolds) (3 / 4) then
              signal (net.output state ((testDs.lobArr.drop (t + 1 - cfg.seqLen)).take cfg.seqLen)
                ((testDs.scalarArr.drop (t + 1 - cfg.seqLen)).take cfg.seqLen)) else 0) := by
  have hseq : 0 < cfg.seqLen := by omega
  have hk : results[results.length - 1]? = some result := by
    rw [← List.getLast?_eq_getElem?, hlast]
  have hpos := (List.getElem?_eq_some_iff.mp hk).1
  obtain ⟨i, hi, hiff, htest, foldIdx, _, _, trainDs, valDs, testDs, history, -, -, hframe,
    hresult⟩ := result_eq htrain hseq h hk
  have hfold : i + 1 = cfg.nFolds := hiff.mpr (by omega)
  have hcases := testStart_cases hi hfew htest
  rw [if_pos hfold] at hcases
  obtain ⟨ahead, hstart, hahead⟩ := hcases
  obtain ⟨hcfg, hindices⟩ := indices_ofFrame hframe
  have hrows := (@length_foldRows _ (3 / 4) _ i df.rows (by norm_num) (foldEnd_le hi)).2
  rw [hrows] at hindices
  rw [foldRows, hstart, hfold] at hframe
  obtain ⟨state, hpredictions⟩ : ∃ state, result.predictions = predictions net state testDs :=
    ⟨_, congrArg FoldResult.predictions hresult⟩
  have hget := getElem?_predictions net state hindices
  have hcount : result.predictions.length =
      testSize (df.rows.length / cfg.nFolds) (3 / 4) + 1 - cfg.seqLen := by
    rw [hpredictions]
    exact length_predictions net state hindices
  refine ⟨ahead, state, testDs, history, hahead, hframe, fun t ht => ?_⟩
  have htotal : (holdout cfg.nFolds df.rows).length = df.rows.length / cfg.nFolds := by
    rw [holdout_eq, List.length_drop, holdoutStart]
    have := Nat.div_le_self df.rows.length cfg.nFolds
    omega
  have hsize := @testSize_le (3 / 4) (df.rows.length / cfg.nFolds) (by norm_num)
  rw [dailyBacktest, getElem?_buildTickSignals hseq (by rw [List.length_map]; omega) (by omega)]
  refine congrArg some ?_
  by_cases hwindow : cfg.seqLen ≤ t + 1
  · rw [if_pos hwindow, List.getD_eq_getElem?_getD, List.getElem?_map, hpredictions, hget, hcfg]
    by_cases hin : t < testSize (df.rows.length / cfg.nFolds) (3 / 4)
    · rw [if_pos (by omega), if_pos ⟨hwindow, hin⟩]
      rfl
    · rw [if_neg (by omega), if_neg fun hboth => hin hboth.2]
      rfl
  · rw [if_neg hwindow, if_neg fun hboth => hwindow hboth.1]

/-- The third of nine rows is traded with the signal of the window that ends with the last. -/
theorem dailyBacktest_ahead_nine : ∃ result ahead state testDs history,
    walkForwardTrain countingNetwork quarterFold exactArrays id nineRows = some [result] ∧
      6 ≤ ahead ∧
      LobDataset.ofFrame exactArrays id
        ⟨nineRows.columnType, nineRows.rows.drop ahead⟩ quarterFold.dataset 500 (some history) =
          some testDs ∧
      (dailyBacktest quarterFold id nineRows.rows result).2[2]? =
        some (countingNetwork.output state (testDs.lobArr.take 3) (testDs.scalarArr.take 3)) := by
  obtain ⟨result, h⟩ := quarterFold_trained
  obtain ⟨ahead, state, testDs, history, hahead, htest, hsignals⟩ := dailyBacktest_ahead rfl
    (by decide) id h (show [result].getLast? = some result from rfl)
  have hrows : 3 * quarterFold.seqLen ≤ ahead + 2 + quarterFold.nFolds := hahead
  have hzero : holdoutStart quarterFold.nFolds nineRows.rows.length = 0 := by decide
  have hall : nineRows.rows.take (quarterFold.nFolds *
      (nineRows.rows.length / quarterFold.nFolds)) = nineRows.rows := List.take_of_length_le (by decide)
  rw [hzero, Nat.zero_add, hall] at htest
  simp only [quarterFold] at hrows
  refine ⟨result, ahead, state, testDs, history, h, by omega, htest, ?_⟩
  rw [hsignals 2 (by decide +kernel), if_pos (by decide +kernel)]
  rfl

end Daily

end TradingInfrastructure
