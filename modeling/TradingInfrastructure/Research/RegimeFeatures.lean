import Mathlib.Tactic
import Mathlib.Data.Option.NAry
import TradingInfrastructure.Foundations.Causal

/-!
# The features of the regime model

`_feature_frame` of `research/regime/regime.py`. Two of its columns are rolling means whose nulls
are filled backward, so the rows before the first full window have the mean of rows after them. A
row is the same in two frames with the same rows up to it exactly when the next full windows of the
spread and of the depth have the same means (`FeatureFrame.row_eq_iff`); the other columns do not
look ahead.

A null is `none`. The arithmetic is that of a type of numbers; the logarithm, and the mean and the
deviation of the values of a window, are parameters.
-/

namespace TradingInfrastructure

/-- The columns of a frame that `_feature_frame` reads. -/
structure RegimeRow (K : Type*) where
  bestBid : Option K
  bestAsk : Option K
  bidSize1 : Option K
  askSize1 : Option K
  deriving DecidableEq

/-- The functions of the library of data frames. -/
structure FrameFunctions (K : Type*) where
  log : K → K
  /-- The mean of the values of a window. -/
  mean : List K → K
  /-- The standard deviation of the values of a window, null when they are too few. -/
  std : List K → Option K

/-- `feature_rolling_window` of `config/research/regime.yaml`. -/
def featureRollingWindow : ℕ := 20

variable {K : Type*}

/-! ## Columns -/

section Columns

/-- The values of the last `w` rows, when there are so many and none is null. -/
def lastWindow (w : ℕ) (upTo : List (Option K)) : Option (List K) :=
  if upTo.length < w then none else (upTo.drop (upTo.length - w)).mapM id

/-- `rolling_mean` and `rolling_std`. -/
def rolling (w : ℕ) (f : List K → Option K) : List (Option K) → List (Option K) :=
  ofPrefixes fun upTo => (lastWindow w upTo).bind f

/-- `fill_null(strategy="backward")`. -/
def fillBackward : List (Option K) → List (Option K) := ofSuffixes fun rest => rest.findSome? id

/-- `diff`. -/
def diffColumn [Sub K] (xs : List (Option K)) : List (Option K) :=
  List.zipWith (Option.map₂ (· - ·)) xs (none :: xs)

/-- `fill_null(0.0)`. -/
def fillZero [OfScientific K] (xs : List (Option K)) : List K := xs.map (·.getD 0.0)

variable {n : ℕ} {xs ys : List (Option K)}

theorem AgreeTo.fillZero [OfScientific K] (h : AgreeTo n xs ys) :
    AgreeTo n (fillZero xs) (fillZero ys) :=
  h.map _

theorem AgreeTo.diffColumn [Sub K] (h : AgreeTo n xs ys) :
    AgreeTo n (diffColumn xs) (diffColumn ys) :=
  h.zipWith ((h.cons none).mono n.le_succ) _

/-! ## The columns that are filled backward -/

variable [OfScientific K] (fn : FrameFunctions K) (w : ℕ)

/-- A rolling mean, its nulls filled backward and then with zeros. -/
def smoothed (xs : List (Option K)) : List K :=
  fillZero (fillBackward (rolling w (fun values => some (fn.mean values)) xs))

variable {fn w}

/-- The values of the next `w` rows without nulls that end at row `t` or after it. -/
def nextWindow (w : ℕ) (xs : List (Option K)) (t : ℕ) : Option (List K) :=
  (List.range (xs.length - t)).findSome? fun k => lastWindow w (xs.take (t + k + 1))

/-- A row of a smoothed column is the mean of the next window, or zero when there is none. -/
theorem getElem?_smoothed {xs : List (Option K)} {t : ℕ} (ht : t < xs.length) :
    (smoothed fn w xs)[t]? = some (((nextWindow w xs t).map fn.mean).getD 0.0) := by
  have hlength : t < (rolling w (fun values => some (fn.mean values)) xs).length := by
    rwa [rolling, length_ofPrefixes]
  rw [smoothed, fillZero, List.getElem?_map, fillBackward, getElem?_ofSuffixes _ hlength, rolling,
    findSome?_drop_ofPrefixes, nextWindow, List.map_findSome?]
  simp only [Option.map_eq_bind, Function.comp_def, Option.bind_some]

/-- The next windows of two columns have the same mean, zero when there is none. -/
def SameNextMean (fn : FrameFunctions K) (w t : ℕ) (xs xs' : List (Option K)) : Prop :=
  ((nextWindow w xs t).map fn.mean).getD 0.0 = ((nextWindow w xs' t).map fn.mean).getD 0.0

theorem getElem?_smoothed_eq_iff {xs xs' : List (Option K)} {t : ℕ} (ht : t < xs.length)
    (h : AgreeTo (t + 1) xs xs') :
    (smoothed fn w xs)[t]? = (smoothed fn w xs')[t]? ↔ SameNextMean fn w t xs xs' := by
  rw [getElem?_smoothed ht, getElem?_smoothed ((h.length_lt_iff t.lt_succ_self).1 ht),
    Option.some_inj, SameNextMean]

end Columns

/-! ## Features -/

section Features

variable [Add K] [Sub K] [Div K] [OfScientific K] [LT K] [DecidableLT K]

namespace RegimeRow

variable (r : RegimeRow K)

/-- The column `mid`. -/
def mid : Option K := Option.map₂ (fun bid ask => (bid + ask) / 2.0) r.bestBid r.bestAsk

/-- The column `spread`. -/
def spread : Option K :=
  Option.map₂ (fun bid ask => if ask - bid < 1e-08 then 1e-08 else ask - bid) r.bestBid r.bestAsk

/-- The column `top_depth`. -/
def topDepth : Option K := Option.map₂ (fun bid ask => bid + ask) r.bidSize1 r.askSize1

/-- The column `queue_imbalance`. -/
def queueImbalance : Option K :=
  Option.map₂ (fun bid ask => (bid - ask) / (bid + ask + 1e-08)) r.bidSize1 r.askSize1

end RegimeRow

/-- The columns that `_feature_frame` selects. -/
structure FeatureFrame (K : Type*) where
  vol20 : List K
  spread20 : List K
  depth20 : List K
  queueImbalance : List (Option K)
  logRet1 : List K

variable (fn : FrameFunctions K) (w : ℕ) (df df' : List (RegimeRow K))

/-- The column `log_ret_1`. -/
def logReturns : List K := fillZero (diffColumn (df.map fun r => r.mid.map fn.log))

/-- `_feature_frame`. -/
def featureFrame : FeatureFrame K where
  vol20 := fillZero (rolling w fn.std ((logReturns fn df).map some))
  spread20 := smoothed fn w (df.map RegimeRow.spread)
  depth20 := smoothed fn w (df.map RegimeRow.topDepth)
  queueImbalance := df.map RegimeRow.queueImbalance
  logRet1 := logReturns fn df

/-- A row of the features. -/
def FeatureFrame.row (f : FeatureFrame K) (t : ℕ) :
    Option K × Option K × Option K × Option (Option K) × Option K :=
  (f.vol20[t]?, f.spread20[t]?, f.depth20[t]?, f.queueImbalance[t]?, f.logRet1[t]?)

/-! ## Columns that do not look ahead -/

variable {fn w df df'} {n : ℕ}

omit [LT K] [DecidableLT K] in
theorem AgreeTo.logReturns (h : AgreeTo n df df') :
    AgreeTo n (logReturns fn df) (logReturns fn df') :=
  (h.map _).diffColumn.fillZero

/-- **The volatility does not look ahead.** -/
theorem AgreeTo.vol20 (h : AgreeTo n df df') :
    AgreeTo n (featureFrame fn w df).vol20 (featureFrame fn w df').vol20 :=
  ((h.logReturns.map some).ofPrefixes _).fillZero

/-- **What a row of the features reads of the rows after it**: the next full windows of the spread
and of the depth. -/
theorem FeatureFrame.row_eq_iff {t : ℕ} (ht : t < df.length) (h : AgreeTo (t + 1) df df') :
    (featureFrame fn w df).row t = (featureFrame fn w df').row t ↔
      SameNextMean fn w t (df.map RegimeRow.spread) (df'.map RegimeRow.spread) ∧
        SameNextMean fn w t (df.map RegimeRow.topDepth) (df'.map RegimeRow.topDepth) := by
  have hvol : (featureFrame fn w df).vol20[t]? = _ := h.vol20.getElem?_eq t.lt_succ_self
  have hqueue := (h.map RegimeRow.queueImbalance).getElem?_eq t.lt_succ_self
  have hreturn : (logReturns fn df)[t]? = _ := h.logReturns.getElem?_eq t.lt_succ_self
  rw [← getElem?_smoothed_eq_iff (by simpa using ht) (h.map _),
    ← getElem?_smoothed_eq_iff (by simpa using ht) (h.map _)]
  simp only [FeatureFrame.row, featureFrame, Prod.mk.injEq] at hvol ⊢
  exact ⟨fun hrow => ⟨hrow.2.1, hrow.2.2.1⟩,
    fun hmeans => ⟨hvol, hmeans.1, hmeans.2, hqueue, hreturn⟩⟩

end Features

/-! ## A frame whose first row looks ahead -/

/-- Exact functions for frames whose mids are all one: the logarithms and the deviations are
zero. -/
def exactFunctions : FrameFunctions ℚ where
  log _ := 0
  mean values := values.sum / values.length
  std _ := some 0

/-- A row with mid one. -/
def rowOfSpread (spread : ℚ) : RegimeRow ℚ where
  bestBid := some (1 - spread / 2)
  bestAsk := some (1 + spread / 2)
  bidSize1 := some 1
  askSize1 := some 1

/-- Twenty rows, the first with spread one and the others with a spread of their own. -/
def twentyRows (spread : ℚ) : List (RegimeRow ℚ) :=
  rowOfSpread 1 :: List.replicate 19 (rowOfSpread spread)

/-- **A later spread that changes the first row.** -/
theorem featureFrame_looksAhead :
    ¬ ∀ (t : ℕ) (df df' : List (RegimeRow ℚ)), t < df.length → AgreeTo (t + 1) df df' →
      (featureFrame exactFunctions featureRollingWindow df).row t =
        (featureFrame exactFunctions featureRollingWindow df').row t := by
  intro hcausal
  have hrow := congrArg (·.2.1) (hcausal 0 (twentyRows 1) (twentyRows 2) (by decide +kernel) rfl)
  revert hrow
  decide +kernel

/-- A row past the first full window. -/
theorem FeatureFrame.row_eq_iff_lastRow :
    (featureFrame exactFunctions featureRollingWindow (twentyRows 1)).row 19 =
        (featureFrame exactFunctions featureRollingWindow (twentyRows 1 ++ twentyRows 2)).row 19 ↔
      SameNextMean exactFunctions featureRollingWindow 19 ((twentyRows 1).map RegimeRow.spread)
          ((twentyRows 1 ++ twentyRows 2).map RegimeRow.spread) ∧
        SameNextMean exactFunctions featureRollingWindow 19 ((twentyRows 1).map RegimeRow.topDepth)
          ((twentyRows 1 ++ twentyRows 2).map RegimeRow.topDepth) :=
  FeatureFrame.row_eq_iff (by decide +kernel) rfl

end TradingInfrastructure
