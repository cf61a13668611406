import Mathlib.Tactic
import TradingInfrastructure.Foundations.Causal

/-!
# The features of the order book

`compute_lob_tensor` and `compute_scalar_features` of `research/neural_alpha/data/features.py`. The
columns are built from lagged differences, running sums over windows and the first row of the
frame, and from the columns of the book that a frame happens to have. No row looks ahead: two frames
with the same columns and the same rows up to `t` have the same row `t` of the tensor
(`computeLobTensor_causal`) and of the features (`computeScalarFeatures_causal`).

A frame is its column types and its rows, and an array is a list of rows. The arithmetic is that of
a type of numbers, without laws; the functions of the array library are parameters. A computation
that raises has no result.
-/

namespace TradingInfrastructure

/-- The types of columns that the code tells apart. -/
inductive ColumnType
  /-- `pl.List(pl.Float64)`. -/
  | floatList
  | other
  deriving DecidableEq

/-- A cell of a frame. -/
inductive Cell (K : Type*)
  | null
  | number (x : K)
  | list (xs : List (Option K))

/-- A frame. -/
structure LobFrame (K : Type*) where
  /-- The columns of the frame and their types. -/
  columnType : String → Option ColumnType
  rows : List (String → Cell K)

/-- The functions of the array library. -/
structure ArrayFunctions (K S : Type*) where
  nan : K
  log : K → K
  log1p : K → K
  sqrt : K → K
  square : K → K
  /-- The sum of a row. -/
  sum : List K → K
  /-- `nan_to_num` with zeros. -/
  nanToNum : K → K
  toFloat32 : K → S
  /-- A list in a column that is cast to numbers. -/
  castList : List (Option K) → Option K

/-- `N_LEVELS`. -/
def nLevels : ℕ := 10

variable {K S : Type*} (fn : ArrayFunctions K S)

/-! ## The levels of the book -/

section Levels

variable [OfScientific K]

/-- A cell of `to_numpy().astype(np.float64)`. -/
def Cell.toFloat64 : Cell K → Option K
  | null => some fn.nan
  | number x => some x
  | list xs => fn.castList xs

/-- The cell has no value. -/
def Cell.isNull : Cell K → Bool
  | null => true
  | _ => false

/-- The list in a cell. -/
def Cell.toList? : Cell K → Option (List (Option K))
  | list xs => some xs
  | _ => none

/-- `np.array(df[name].to_list(), dtype=np.float64)`, with a second dimension. Lists of several
lengths, or lists beside nulls, have no array. -/
def listArray (cells : List (Cell K)) : Option (List (List K)) :=
  if cells.all Cell.isNull then some (cells.map fun _ => [fn.nan])
  else (cells.mapM Cell.toList?).bind fun lists =>
    if lists.all fun xs => xs.length == (lists.headD []).length then
      some (lists.map fun xs => xs.map (·.getD fn.nan))
    else none

/-- The first levels of a row, padded with zeros. -/
def padToLevels (xs : List K) : ℕ → K := fun i => (xs.take nLevels).getD i 0.0

/-- The first of some columns that the frame has, or zeros. -/
def firstColumn (df : LobFrame K) (names : List String) : Option (List K) :=
  match names.find? fun name => (df.columnType name).isSome with
  | some name => df.rows.mapM fun row => (row name).toFloat64 fn
  | none => some (df.rows.map fun _ => 0.0)

/-- `np.stack(cols, axis=1)`, with its columns as a function of the level. -/
def stackLevels (rows : List α) (cols : List (List K)) : List (ℕ → K) :=
  (List.range rows.length).map fun t i => (cols.getD i []).getD t 0.0

/-- Ten columns with a number in their names. -/
def numberedColumns (df : LobFrame K) (names : ℕ → List String) : Option (List (ℕ → K)) :=
  ((List.range nLevels).mapM fun i => firstColumn fn df (names (i + 1))).map (stackLevels df.rows)

/-- `_list_col`, padded. -/
def listColumn (df : LobFrame K) (name fallback : String) : Option (List (ℕ → K)) :=
  if df.columnType name = some .floatList then
    (listArray fn (df.rows.map (· name))).map (·.map padToLevels)
  else numberedColumns fn df fun i => [fallback ++ toString i]

/-- `_count_cols`. -/
def countColumns (df : LobFrame K) (names : List String) : Option (List (ℕ → K)) :=
  numberedColumns fn df fun i => names.map (· ++ "_" ++ toString i)

/-- A row of the arrays that `_extract_levels` and `_extract_order_counts` return. -/
structure BookRow (K : Type*) where
  bidPrices : ℕ → K
  bidSizes : ℕ → K
  askPrices : ℕ → K
  askSizes : ℕ → K
  bidCounts : ℕ → K
  askCounts : ℕ → K

/-- `_extract_levels` and `_extract_order_counts`, row by row. -/
def bookRows (df : LobFrame K) : Option (List (BookRow K)) := do
  let bp ← listColumn fn df "bid_prices" "bid_price_"
  let bs ← listColumn fn df "bid_sizes" "bid_size_"
  let ap ← listColumn fn df "ask_prices" "ask_price_"
  let az ← listColumn fn df "ask_sizes" "ask_size_"
  let bidCounts ← countColumns fn df ["bid_oc", "bid_order_count"]
  let askCounts ← countColumns fn df ["ask_oc", "ask_order_count"]
  some (((bp.zip bs).zip ((ap.zip az).zip (bidCounts.zip askCounts))).map fun row =>
    ⟨row.1.1, row.1.2, row.2.1.1, row.2.1.2, row.2.2.1, row.2.2.2⟩)

/-! ## The levels do not look ahead -/

/-- The row of an array that a cell becomes. -/
def cellRow : Cell K → List K
  | .null => [fn.nan]
  | .number _ => []
  | .list xs => xs.map (·.getD fn.nan)

variable {fn}

omit [OfScientific K] in
/-- **An array of lists, cell by cell.** -/
theorem listArray_eq_map {cells : List (Cell K)} {arr : List (List K)}
    (h : listArray fn cells = some arr) : arr = cells.map (cellRow fn) := by
  rw [listArray] at h
  split_ifs at h with hnull
  · rw [← Option.some_inj.1 h]
    refine List.map_congr_left fun cell hcell => ?_
    have hcellnull := List.all_eq_true.1 hnull cell hcell
    cases cell with
    | null => rfl
    | number | list => cases hcellnull
  · obtain ⟨lists, hlists, hsome⟩ := Option.bind_eq_some_iff.1 h
    split_ifs at hsome
    rw [← Option.some_inj.1 hsome]
    refine map_of_mapM hlists fun cell xs hxs => ?_
    cases cell with
    | null | number => cases hxs
    | list => rw [← Option.some_inj.1 hxs, cellRow]

variable {n : ℕ} {df df' : LobFrame K}

theorem AgreeTo.firstColumn (h : AgreeTo n df.rows df'.rows)
    (hcolumns : df.columnType = df'.columnType) {names : List String} {col col' : List K}
    (hcol : firstColumn fn df names = some col) (hcol' : firstColumn fn df' names = some col') :
    AgreeTo n col col' := by
  rw [TradingInfrastructure.firstColumn, hcolumns] at hcol
  rw [TradingInfrastructure.firstColumn] at hcol'
  cases hfind : names.find? fun name => (df'.columnType name).isSome with
  | none =>
    rw [hfind] at hcol hcol'
    rw [← Option.some_inj.1 hcol, ← Option.some_inj.1 hcol']
    exact h.map _
  | some name =>
    rw [hfind] at hcol hcol'
    exact h.mapM hcol hcol'

theorem AgreeTo.numberedColumns (h : AgreeTo n df.rows df'.rows)
    (hcolumns : df.columnType = df'.columnType) {names : ℕ → List String}
    {rows rows' : List (ℕ → K)}
    (hrows : numberedColumns fn df names = some rows)
    (hrows' : numberedColumns fn df' names = some rows') : AgreeTo n rows rows' := by
  obtain ⟨cols, hcols, rfl⟩ := Option.map_eq_some_iff.1 hrows
  obtain ⟨cols', hcols', rfl⟩ := Option.map_eq_some_iff.1 hrows'
  have hagree : List.Forall₂ (AgreeTo n) cols cols' :=
    forall₂_of_mapM hcols hcols' fun _ _ _ hcol hcol' => h.firstColumn hcolumns hcol hcol'
  exact h.ofRows fun t ht => funext fun i =>
    (forall₂_getD hagree (AgreeTo.refl n []) i).getD_eq ht 0.0

theorem AgreeTo.listColumn (h : AgreeTo n df.rows df'.rows)
    (hcolumns : df.columnType = df'.columnType) {name fallback : String} {rows rows' : List (ℕ → K)}
    (hrows : listColumn fn df name fallback = some rows)
    (hrows' : listColumn fn df' name fallback = some rows') : AgreeTo n rows rows' := by
  rw [TradingInfrastructure.listColumn, hcolumns] at hrows
  rw [TradingInfrastructure.listColumn] at hrows'
  split_ifs at hrows hrows'
  · obtain ⟨arr, harr, rfl⟩ := Option.map_eq_some_iff.1 hrows
    obtain ⟨arr', harr', rfl⟩ := Option.map_eq_some_iff.1 hrows'
    rw [listArray_eq_map harr, listArray_eq_map harr']
    exact ((h.map _).map _).map _
  · exact h.numberedColumns hcolumns hrows hrows'

/-- **The levels of the book do not look ahead.** -/
theorem AgreeTo.bookRows (h : AgreeTo n df.rows df'.rows)
    (hcolumns : df.columnType = df'.columnType) {rows rows' : List (BookRow K)}
    (hrows : bookRows fn df = some rows) (hrows' : bookRows fn df' = some rows') :
    AgreeTo n rows rows' := by
  simp only [TradingInfrastructure.bookRows, Option.bind_eq_bind,
    Option.bind_eq_some_iff] at hrows hrows'
  obtain ⟨bp, hbp, bs, hbs, ap, hap, az, haz, bidCounts, hbid, askCounts, hask, hall⟩ := hrows
  obtain ⟨bp', hbp', bs', hbs', ap', hap', az', haz', bidCounts', hbid', askCounts',
    hask', hall'⟩ :=
    hrows'
  rw [← Option.some_inj.1 hall, ← Option.some_inj.1 hall']
  have hbids := (h.listColumn hcolumns hbp hbp').zip (h.listColumn hcolumns hbs hbs')
  have hasks := (h.listColumn hcolumns hap hap').zip (h.listColumn hcolumns haz haz')
  have hcounts := (h.numberedColumns hcolumns hbid hbid').zip
    (h.numberedColumns hcolumns hask hask')
  exact (hbids.zip (hasks.zip hcounts)).map _

theorem length_numberedColumns {names : ℕ → List String} {rows : List (ℕ → K)}
    (h : numberedColumns fn df names = some rows) : rows.length = df.rows.length := by
  obtain ⟨cols, -, rfl⟩ := Option.map_eq_some_iff.1 h
  rw [stackLevels, List.length_map, List.length_range]

theorem length_listColumn {name fallback : String} {rows : List (ℕ → K)}
    (h : listColumn fn df name fallback = some rows) : rows.length = df.rows.length := by
  rw [TradingInfrastructure.listColumn] at h
  split_ifs at h
  · obtain ⟨arr, harr, rfl⟩ := Option.map_eq_some_iff.1 h
    rw [listArray_eq_map harr, List.length_map, List.length_map, List.length_map]
  · exact length_numberedColumns h

/-- There is a row of the book for each row of the frame. -/
theorem length_bookRows {rows : List (BookRow K)} (h : bookRows fn df = some rows) :
    rows.length = df.rows.length := by
  simp only [TradingInfrastructure.bookRows, Option.bind_eq_bind, Option.bind_eq_some_iff] at h
  obtain ⟨bp, hbp, bs, hbs, ap, hap, az, haz, bidCounts, hbid, askCounts, hask, hall⟩ := h
  rw [← Option.some_inj.1 hall]
  simp only [List.length_map, List.length_zip, length_listColumn hbp, length_listColumn hbs,
    length_listColumn hap, length_listColumn haz, length_numberedColumns hbid,
    length_numberedColumns hask, Nat.min_self]

end Levels

/-! ## Columns of an array -/

section Columns

/-- `clip` at a lower bound. -/
def clipLow [LT K] [DecidableLT K] (low x : K) : K := if x < low then low else x

/-- `_lag_diff`. -/
def lagDiff [Sub K] [OfScientific K] (lag : ℕ) (arr : List K) : List K :=
  match arr.head? with
  | none => []
  | some first =>
    if lag = 0 then arr.map fun _ => 0.0
    else if arr.length ≤ lag then arr.map (· - first)
    else List.zipWith (· - ·) arr (List.replicate lag first ++ arr.take (arr.length - lag))

/-- `np.cumsum`. -/
def cumsum [Add K] : List K → List K
  | [] => []
  | x :: xs => List.scanl (· + ·) x xs

/-- `_rolling_std`. -/
def rollingStd [Add K] [Sub K] [Div K] [NatCast K] [OfScientific K] [LT K] [DecidableLT K]
    (window : ℕ) (x : List K) : List K :=
  let cum := 0.0 :: cumsum x
  let cum2 := 0.0 :: cumsum (x.map fn.square)
  (List.range x.length).map fun t =>
    let stop := t + 1
    let start := stop - max 1 window
    let s1 := cum.getD stop 0.0 - cum.getD start 0.0
    let s2 := cum2.getD stop 0.0 - cum2.getD start 0.0
    let n : K := (stop - start : ℕ)
    fn.sqrt (clipLow 0.0 (s2 / n - fn.square (s1 / n)))

/-- `np.diff` with the first value before it. -/
def diffFromFirst [Sub K] (x : List K) : List K :=
  match x.head? with
  | none => []
  | some first => List.zipWith (· - ·) x (first :: x)

/-! ## The columns do not look ahead -/

variable {fn} {n : ℕ} {xs ys : List K}

theorem zipWith_take_right {α β γ : Type*} (f : α → β → γ) (xs : List α) (ys : List β) :
    List.zipWith f xs (ys.take xs.length) = List.zipWith f xs ys := by
  induction xs generalizing ys with
  | nil => rfl
  | cons x xs ih =>
    cases ys with
    | nil => rfl
    | cons y ys => exact congrArg (f x y :: ·) (ih ys)

theorem zipWith_replicate_length {α β γ : Type*} (f : α → β → γ) (xs : List α) (y : β) :
    List.zipWith f xs (List.replicate xs.length y) = xs.map (f · y) := by
  induction xs with
  | nil => rfl
  | cons x xs ih => exact congrArg (f x y :: ·) ih

/-- In both branches the first row stands for the rows before the frame. -/
theorem lagDiff_of_head? [Sub K] [OfScientific K] {lag : ℕ} {first : K} (hlag : lag ≠ 0)
    (hfirst : xs.head? = some first) :
    lagDiff lag xs = List.zipWith (· - ·) xs (List.replicate lag first ++ xs) := by
  have hcut : List.zipWith (· - ·) xs (List.replicate lag first ++ xs) =
      List.zipWith (· - ·) xs
        (List.replicate (min xs.length lag) first ++ xs.take (xs.length - lag)) := by
    rw [← zipWith_take_right, List.take_append, List.length_replicate, List.take_replicate]
  rw [lagDiff, hfirst, hcut]
  simp only [if_neg hlag]
  split_ifs with hlength
  · rw [Nat.min_eq_left hlength, Nat.sub_eq_zero_of_le hlength, List.take_zero, List.append_nil,
      zipWith_replicate_length]
  · rw [Nat.min_eq_right (Nat.le_of_not_le hlength)]

/-- **A lagged difference does not look ahead.** -/
theorem AgreeTo.lagDiff [Sub K] [OfScientific K] (h : AgreeTo (n + 1) xs ys) (lag : ℕ) :
    AgreeTo (n + 1) (lagDiff lag xs) (lagDiff lag ys) := by
  cases hfirst : xs.head? with
  | none =>
    rw [TradingInfrastructure.lagDiff, TradingInfrastructure.lagDiff, ← h.head?_eq, hfirst]
    exact refl _ _
  | some first =>
    have hfirst' : ys.head? = some first := h.head?_eq ▸ hfirst
    by_cases hlag : lag = 0
    · rw [TradingInfrastructure.lagDiff, TradingInfrastructure.lagDiff, hfirst, hfirst']
      simp only [if_pos hlag]
      exact h.map _
    · rw [lagDiff_of_head? hlag hfirst, lagDiff_of_head? hlag hfirst']
      exact h.zipWith (h.append_left _) _

theorem AgreeTo.cumsum [Add K] (h : AgreeTo n xs ys) : AgreeTo n (cumsum xs) (cumsum ys) := by
  match n, xs, ys, h with
  | 0, _, _, _ => exact zero _ _
  | n + 1, [], [], _ => exact refl _ _
  | n + 1, x :: xs, y :: ys, h =>
    obtain ⟨rfl, hrest⟩ := List.cons.inj h
    exact AgreeTo.scanl hrest _ x

/-- **A rolling deviation does not look ahead.** -/
theorem AgreeTo.rollingStd [Add K] [Sub K] [Div K] [NatCast K] [OfScientific K] [LT K]
    [DecidableLT K] (h : AgreeTo n xs ys) (window : ℕ) :
    AgreeTo n (rollingStd fn window xs) (rollingStd fn window ys) := by
  have hcum : AgreeTo (n + 1) (0.0 :: TradingInfrastructure.cumsum xs) _ := h.cumsum.cons 0.0
  have hcum2 : AgreeTo (n + 1) (0.0 :: TradingInfrastructure.cumsum (xs.map fn.square)) _ :=
    (h.map fn.square).cumsum.cons 0.0
  refine h.ofRows fun t ht => ?_
  have hstop : t + 1 < n + 1 := by omega
  have hstart : t + 1 - max 1 window < n + 1 := by omega
  simp only [hcum.getD_eq hstop, hcum.getD_eq hstart, hcum2.getD_eq hstop, hcum2.getD_eq hstart]

theorem AgreeTo.diffFromFirst [Sub K] (h : AgreeTo (n + 1) xs ys) :
    AgreeTo (n + 1) (diffFromFirst xs) (diffFromFirst ys) := by
  rw [TradingInfrastructure.diffFromFirst, TradingInfrastructure.diffFromFirst, ← h.head?_eq]
  cases xs.head? with
  | none => exact refl _ _
  | some first => exact h.zipWith ((h.cons first).mono (Nat.le_succ _)) _

end Columns

section Arithmetic

variable [Add K] [Sub K] [Mul K] [Div K] [NatCast K] [OfScientific K] [LT K] [DecidableLT K]

/-! ## The tensor -/

/-- The sum of the levels of a row. -/
def sumLevels (levels : ℕ → K) : K := fn.sum ((List.range nLevels).map levels)

/-- A row of `compute_lob_tensor`. -/
def lobRow (row : BookRow K) : List (List S) :=
  let bestBid := row.bidPrices 0
  let bestAsk := row.askPrices 0
  let mid := (bestBid + bestAsk) / 2.0
  let spread := if bestAsk - bestBid > 0.0 then bestAsk - bestBid else 1.0
  (List.range nLevels).map fun i =>
    [(row.bidPrices i - mid) / spread, row.bidSizes i / clipLow 1e-9 (sumLevels fn row.bidSizes),
      (row.askPrices i - mid) / spread, row.askSizes i / clipLow 1e-9 (sumLevels fn row.askSizes),
      row.bidCounts i / clipLow 1e-9 (sumLevels fn row.bidCounts),
      row.askCounts i / clipLow 1e-9 (sumLevels fn row.askCounts)].map
    fun x => fn.toFloat32 (fn.nanToNum x)

/-- `compute_lob_tensor`. -/
def computeLobTensor (df : LobFrame K) : Option (List (List (List S))) :=
  (bookRows fn df).map (·.map (lobRow fn))

/-! ## The features -/

/-- `_count_weighted_depth`. -/
def countWeightedDepth (sizes counts oppositeCounts : ℕ → K) : ℕ → K := fun i =>
  sizes i * if counts i > 0.0 ∧ oppositeCounts i > 0.0 then 1.0 + fn.log1p (counts i) else 1.0

namespace BookRow

variable (row : BookRow K)

/-- `eff_bs`. -/
def effBs : ℕ → K := countWeightedDepth fn row.bidSizes row.bidCounts row.askCounts

/-- `eff_as`. -/
def effAs : ℕ → K := countWeightedDepth fn row.askSizes row.askCounts row.bidCounts

def mid : K :=
  let mid := (row.bidPrices 0 + row.askPrices 0) / 2.0
  if mid > 0.0 then mid else fn.nan

def spreadBps : K :=
  if row.mid fn > 0.0 then (row.askPrices 0 - row.bidPrices 0) / row.mid fn * 1e4 else 0.0

def microprice : K :=
  let denom := row.effBs fn 0 + row.effAs fn 0
  (row.bidPrices 0 * row.effAs fn 0 + row.askPrices 0 * row.effBs fn 0) /
    if denom > 0.0 then denom else 1.0

def depthBid : K := sumLevels fn (row.effBs fn)

def depthAsk : K := sumLevels fn (row.effAs fn)

def totalDepth : K := row.depthBid fn + row.depthAsk fn

def obi : K := if row.totalDepth fn > 0.0 then row.depthBid fn / row.totalDepth fn else 0.5

def logMid : K := fn.log (if row.mid fn > 0.0 then row.mid fn else fn.nan)

def qi (i : ℕ) : K :=
  (row.effBs fn i - row.effAs fn i) / (row.effBs fn i + row.effAs fn i + 1e-8)

def bestBidAvgOrderSz : K := row.effBs fn 0 / (row.bidCounts 0 + 1.0)

def bestAskAvgOrderSz : K := row.effAs fn 0 / (row.askCounts 0 + 1.0)

end BookRow

variable (rows : List (BookRow K))

/-- `ofi_1`, `ofi_5`, `ofi_10` and `ofi_20`. -/
def ofi (lag : ℕ) : List K :=
  List.zipWith (· - ·) (lagDiff lag (rows.map fun row => row.depthBid fn))
    (lagDiff lag (rows.map fun row => row.depthAsk fn))

/-- `log_ret`. -/
def logRet : List K := (diffFromFirst (rows.map fun row => row.logMid fn)).map fn.nanToNum

/-- `vol_5`, `vol_20`, `vol_60` and `vol_200`. -/
def vol (window : ℕ) : List K := rollingStd fn window (logRet fn rows)

/-- The columns that `compute_scalar_features` stacks. -/
def scalarColumns : List (List K) :=
  [logRet fn rows, rows.map fun row => row.spreadBps fn,
    rows.map fun row => row.microprice fn - row.mid fn, rows.map fun row => row.obi fn,
    rows.map fun row => fn.log1p (row.depthBid fn), rows.map fun row => fn.log1p (row.depthAsk fn),
    ofi fn rows 1, List.zipWith (· * ·) (logRet fn rows) (rows.map fun row => row.totalDepth fn),
    vol fn rows 5, vol fn rows 20, ofi fn rows 5, ofi fn rows 10, ofi fn rows 20] ++
  ((List.range nLevels).map fun i => rows.map fun row => row.qi fn i) ++
  [vol fn rows 60, vol fn rows 200,
    List.zipWith (fun short long => short / (long + 1e-8)) (vol fn rows 5) (vol fn rows 60),
    rows.map fun row => row.bestBidAvgOrderSz fn, rows.map fun row => row.bestAskAvgOrderSz fn]

/-- `compute_scalar_features`. A frame without rows has no first mid. -/
def computeScalarFeatures (df : LobFrame K) : Option (List (List S)) :=
  (bookRows fn df).bind fun rows =>
    if rows.isEmpty then none
    else some ((List.range rows.length).map fun t =>
      (scalarColumns fn rows).map fun col => fn.toFloat32 (fn.nanToNum (col.getD t 0.0)))

/-! ## The features do not look ahead -/

section Features

variable {fn} {n : ℕ} {rows rows' : List (BookRow K)}

/-- **No column of the features looks ahead.** -/
theorem AgreeTo.scalarColumns (h : AgreeTo (n + 1) rows rows') :
    List.Forall₂ (AgreeTo (n + 1)) (scalarColumns fn rows) (scalarColumns fn rows') := by
  have hofi : ∀ lag, AgreeTo (n + 1) (ofi fn rows lag) (ofi fn rows' lag) := fun lag =>
    ((h.map _).lagDiff lag).zipWith ((h.map _).lagDiff lag) _
  have hreturn : AgreeTo (n + 1) (logRet fn rows) (logRet fn rows') := (h.map _).diffFromFirst.map _
  have hvol : ∀ window, AgreeTo (n + 1) (vol fn rows window) (vol fn rows' window) :=
    hreturn.rollingStd
  have hlevels : List.Forall₂ (AgreeTo (n + 1))
      ((List.range nLevels).map fun i => rows.map fun row => row.qi fn i)
      ((List.range nLevels).map fun i => rows'.map fun row => row.qi fn i) := by
    rw [List.forall₂_map_left_iff, List.forall₂_map_right_iff, List.forall₂_same]
    exact fun i _ => h.map _
  refine List.rel_append (List.rel_append ?_ hlevels) ?_
  · exact .cons hreturn (.cons (h.map _) (.cons (h.map _) (.cons (h.map _) (.cons (h.map _)
      (.cons (h.map _) (.cons (hofi 1) (.cons (hreturn.zipWith (h.map _) _) (.cons (hvol 5)
      (.cons (hvol 20) (.cons (hofi 5) (.cons (hofi 10) (.cons (hofi 20) .nil))))))))))))
  · exact .cons (hvol 60) (.cons (hvol 200) (.cons ((hvol 5).zipWith (hvol 60) _)
      (.cons (h.map _) (.cons (h.map _) .nil))))

omit [Mul K] [NatCast K] in
/-- **The tensor does not look ahead.** -/
theorem computeLobTensor_causal {t : ℕ} {df df' : LobFrame K}
    (hcolumns : df.columnType = df'.columnType) (h : AgreeTo (t + 1) df.rows df'.rows)
    {lob lob' : List (List (List S))} (hlob : computeLobTensor fn df = some lob)
    (hlob' : computeLobTensor fn df' = some lob') : lob[t]? = lob'[t]? := by
  obtain ⟨rows, hrows, rfl⟩ := Option.map_eq_some_iff.1 hlob
  obtain ⟨rows', hrows', rfl⟩ := Option.map_eq_some_iff.1 hlob'
  exact ((h.bookRows hcolumns hrows hrows').map _).getElem?_eq t.lt_succ_self

/-- **The scalar features do not look ahead.** -/
theorem computeScalarFeatures_causal {t : ℕ} {df df' : LobFrame K}
    (hcolumns : df.columnType = df'.columnType) (h : AgreeTo (t + 1) df.rows df'.rows)
    {x x' : List (List S)} (hx : computeScalarFeatures fn df = some x)
    (hx' : computeScalarFeatures fn df' = some x') : x[t]? = x'[t]? := by
  obtain ⟨rows, hrows, hsome⟩ := Option.bind_eq_some_iff.1 hx
  obtain ⟨rows', hrows', hsome'⟩ := Option.bind_eq_some_iff.1 hx'
  split_ifs at hsome hsome'
  rw [← Option.some_inj.1 hsome, ← Option.some_inj.1 hsome']
  have hagree := h.bookRows hcolumns hrows hrows'
  have hcols : List.Forall₂ _ (scalarColumns fn rows) _ := hagree.scalarColumns
  refine (hagree.ofRows fun i hi => ?_).getElem?_eq t.lt_succ_self
  rw [← List.forall₂_eq_eq_eq, List.forall₂_map_left_iff, List.forall₂_map_right_iff]
  exact hcols.imp fun _ _ hcol => by rw [hcol.getD_eq hi]

/-- **Features never look ahead**: two frames with the same columns and the same rows up to `t` have
the same row `t` of the tensor and of the scalar features. -/
theorem features_causal (fn : ArrayFunctions K S) {t : ℕ} {df df' : LobFrame K}
    (hcolumns : df.columnType = df'.columnType) (h : AgreeTo (t + 1) df.rows df'.rows) :
    (∀ lob lob', computeLobTensor fn df = some lob → computeLobTensor fn df' = some lob' →
      lob[t]? = lob'[t]?) ∧
    ∀ x x', computeScalarFeatures fn df = some x → computeScalarFeatures fn df' = some x' →
      x[t]? = x'[t]? :=
  ⟨fun _ _ => computeLobTensor_causal hcolumns h,
    fun _ _ => computeScalarFeatures_causal hcolumns h⟩

end Features

end Arithmetic

/-! ## Two frames -/

/-- Exact functions for books without sizes whose mids are one: the logarithms and the deviations
are zero. -/
def exactArrays : ArrayFunctions ℚ ℚ where
  nan := 0
  log _ := 0
  log1p _ := 0
  sqrt _ := 0
  square x := x * x
  sum := List.sum
  nanToNum x := x
  toFloat32 x := x
  castList _ := none

/-- A frame with the best prices alone, one on each side of one. -/
def framesOfSpreads (spreads : List ℚ) : LobFrame ℚ where
  columnType name := if name ∈ ["bid_price_1", "ask_price_1"] then some .other else none
  rows := spreads.map fun spread name =>
    .number (if name = "bid_price_1" then 1 - spread / 2 else 1 + spread / 2)

/-- A frame of one row and a longer one. -/
theorem features_causal_firstRow :
    ∃ lob lob' x x', computeLobTensor exactArrays (framesOfSpreads [1]) = some lob ∧
      computeLobTensor exactArrays (framesOfSpreads [1, 1 / 2]) = some lob' ∧
      computeScalarFeatures exactArrays (framesOfSpreads [1]) = some x ∧
      computeScalarFeatures exactArrays (framesOfSpreads [1, 1 / 2]) = some x' ∧
      lob[0]? = lob'[0]? ∧ x[0]? = x'[0]? := by
  obtain ⟨lob, hlob⟩ := Option.isSome_iff_exists.1
    (show (computeLobTensor exactArrays (framesOfSpreads [1])).isSome by decide +kernel)
  obtain ⟨lob', hlob'⟩ := Option.isSome_iff_exists.1
    (show (computeLobTensor exactArrays (framesOfSpreads [1, 1 / 2])).isSome by decide +kernel)
  obtain ⟨x, hx⟩ := Option.isSome_iff_exists.1
    (show (computeScalarFeatures exactArrays (framesOfSpreads [1])).isSome by decide +kernel)
  obtain ⟨x', hx'⟩ := Option.isSome_iff_exists.1
    (show (computeScalarFeatures exactArrays (framesOfSpreads [1, 1 / 2])).isSome by decide +kernel)
  obtain ⟨htensor, hfeatures⟩ :=
    @features_causal ℚ ℚ _ _ _ _ _ _ _ _ exactArrays 0 (framesOfSpreads [1])
      (framesOfSpreads [1, 1 / 2]) rfl rfl
  exact ⟨lob, lob', x, x', hlob, hlob', hx, hx', htensor lob lob' hlob hlob',
    hfeatures x x' hx hx'⟩

end TradingInfrastructure
