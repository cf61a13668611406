import Mathlib.Data.List.GetD
import TradingInfrastructure.Research.LobFeatures
import TradingInfrastructure.Research.RollingNormalise

/-!
# The labels of a data set

`compute_labels` of `research/neural_alpha/data/features.py` and `LOBDataset` of `dataset.py`. A
label is the clipped log return over a horizon, from a row to the row that many rows later. The last
rows of a frame have no such row, and their labels are zero; a horizon longer than the frame is cut.
The windows of the data set reach to the end of the frame, and their mask hides nothing.

So the labels that are served are true returns exactly if the rows that the stride leaves over
behind the last window are enough for every horizon (`lobDataset_labels_true_iff`); with a stride of
one there are none.
-/

namespace TradingInfrastructure

/-- `reversion_horizon` of `config/research/model.yaml`. -/
def reversionHorizon : ℕ := 10

section Labels

variable {K : Type*} [Field K] [LinearOrder K] (fn : ArrayFunctions K K)

/-- `return_clip`, `flat_thresh` and `adv_sel_thresh` of `config/research/model.yaml`. -/
def returnClip : K := 5e-4

@[inherit_doc returnClip]
def flatThresh : K := 2e-5

@[inherit_doc returnClip]
def advSelThresh : K := -2e-5

/-- The mid of the best prices. -/
def BookRow.bestMid (row : BookRow K) : K := (row.bidPrices 0 + row.askPrices 0) / 2.0

/-- `log_mid`. -/
def labelLogMid (row : BookRow K) : K :=
  fn.log (if row.mid fn > 0.0 then row.mid fn else 1.0)

/-- `np.clip`. -/
def clipReturn (x : K) : K := min (max x (-returnClip)) returnClip

/-- A column of the returns: behind the rows with a row `h` later, zeros. -/
def returnColumn (logMid : List K) (h : ℤ) : List K :=
  let T := logMid.length
  let h := min h (T - 1)
  let fwd :=
    if h > 0 ∧ (T : ℤ) > h then
      List.zipWith (· - ·) (logMid.drop h.toNat) (logMid.take (T - h.toNat)) ++
        List.replicate h.toNat 0
    else List.replicate T 0
  fwd.map clipReturn

/-- The class of a return: up, down or flat. -/
def directionOf (r : K) : K := if r > flatThresh then 2.0 else if r < -flatThresh then 0.0 else 1.0

/-- Whether a fill at a row is followed by an adverse move, from the row's first return. -/
def advSel (logMid : List K) (t : ℕ) (r1 : K) : K :=
  if logMid.length ≤ t + reversionHorizon ∨ |r1| ≤ 1e-6 then 0
  else
    let path := ((logMid.drop (t + 1)).take reversionHorizon).map (· - logMid.getD t 0)
    let reversion := if r1 > 0 then path.min?.getD 0 else -path.max?.getD 0
    if reversion < advSelThresh then 1 else 0

/-- The labels of the rows: a return for every horizon, the direction, and the adverse selection.
With fewer than three horizons there is no third return. -/
def labelsOfRows (rows : List (BookRow K)) (horizons : List ℤ) : Option (List (List K)) :=
  if horizons.length < 3 then none
  else
    let logMid := rows.map (labelLogMid fn)
    let columns := horizons.map (returnColumn logMid)
    some ((List.range rows.length).map fun t =>
      let returns := columns.map (·.getD t 0)
      returns ++ [directionOf (returns.getD 2 0), advSel logMid t (returns.getD 0 0)])

/-- `compute_labels`. -/
def computeLabels (df : LobFrame K) (horizons : List ℤ) : Option (List (List K)) :=
  (bookRows fn df).bind fun rows => labelsOfRows fn rows horizons

/-! ## The data set -/

/-- `DatasetConfig`. -/
structure DatasetConfig where
  seqLen : ℕ
  stride : ℕ
  horizons : List ℤ

/-- `LOBDataset`, with the scalars of a row as a list. -/
structure LobDataset (K : Type*) where
  cfg : DatasetConfig
  lobArr : List (List (List K))
  scalarArr : List (Fin 28 → K)
  labelsArr : List (List K)
  indices : List ℕ

/-- `range(0, T - S + 1, stride)`, where a stride of zero raises. -/
def windowStarts (T seqLen stride : ℕ) : Option (List ℕ) :=
  if stride = 0 then none
  else some (List.range' 0 ((T + 1 - seqLen + (stride - 1)) / stride) stride)

/-- The constructor, where the raw scalars of another data set may be the history. -/
def LobDataset.ofFrame (sqrt : K → K) (df : LobFrame K) (cfg : DatasetConfig) (window : ℕ)
    (scalarMean : Option (List (Fin 28 → K))) : Option (LobDataset K) := do
  let lobArr ← computeLobTensor fn df
  let rawScalar ← computeScalarFeatures fn df
  let labelsArr ← computeLabels fn df cfg.horizons
  (windowStarts lobArr.length cfg.seqLen cfg.stride).map fun indices =>
    { cfg := cfg
      lobArr := lobArr
      scalarArr := rollingNormalise sqrt (rawScalar.map fun row (d : Fin 28) => row.getD d 0) window
        scalarMean
      labelsArr := labelsArr
      indices := indices }

/-- What the data set serves. -/
structure LobItem (K : Type*) where
  lob : List (List (List K))
  scalar : List (Fin 28 → K)
  labels : List (List K)
  mask : List Bool

/-- `__getitem__`. -/
def LobDataset.getItem (ds : LobDataset K) (idx : ℕ) : Option (LobItem K) :=
  ds.indices[idx]?.map fun start =>
    { lob := (ds.lobArr.drop start).take ds.cfg.seqLen
      scalar := (ds.scalarArr.drop start).take ds.cfg.seqLen
      labels := (ds.labelsArr.drop start).take ds.cfg.seqLen
      mask := List.replicate ds.cfg.seqLen false }

/-! ## True labels -/

/-- The log return from a row to the row `h` later, if there is one. -/
def logReturn (rows : List (BookRow K)) (t : ℕ) (h : ℤ) : Option K :=
  if 0 ≤ t + h then
    Option.map₂ (fun later now => fn.log later.bestMid - fn.log now.bestMid)
      rows[(t + h).toNat]? rows[t]?
  else none

/-- The label of a row is true: there is a row over every horizon, each return is the clipped log
return to it, and the direction is the class of the third return. -/
structure IsTrueLabel (rows : List (BookRow K)) (horizons : List ℤ) (t : ℕ) (label : List K) :
    Prop where
  returns : ∀ (i : ℕ) (h : ℤ), horizons[i]? = some h →
    ∃ r, logReturn fn rows t h = some r ∧ label[i]? = some (clipReturn r)
  direction : label[horizons.length]? = some (directionOf (label.getD 2 0))

/-- Every label that is served and not masked is true. -/
def LobDataset.LabelsTrue (ds : LobDataset K) (rows : List (BookRow K)) : Prop :=
  ∀ idx start item, ds.indices[idx]? = some start → ds.getItem idx = some item →
    ∀ pos, item.mask[pos]? = some false →
      IsTrueLabel fn rows ds.cfg.horizons (start + pos) (item.labels.getD pos [])

variable {fn}

omit [LinearOrder K] in
/-- There is a return where both rows are in the frame. -/
theorem logReturn_isSome {rows : List (BookRow K)} {t : ℕ} {h : ℤ} (ht : t < rows.length) :
    (∃ r, logReturn fn rows t h = some r) ↔ 0 ≤ t + h ∧ t + h < rows.length := by
  unfold logReturn
  rw [List.getElem?_eq_getElem ht]
  split_ifs with hsign
  · rcases lt_or_ge (t + h).toNat rows.length with hlt | hge
    · rw [List.getElem?_eq_getElem hlt]
      exact iff_of_true ⟨_, rfl⟩ (by omega)
    · rw [List.getElem?_eq_none hge]
      exact iff_of_false (by simp) (by omega)
  · exact iff_of_false (by simp) (by omega)

/-- **Where the later row is in the frame** the return is the true one. -/
theorem getD_returnColumn {logMid : List K} {t : ℕ} {h : ℤ} (hh : 0 ≤ h)
    (hlater : t + h < logMid.length) :
    (returnColumn logMid h).getD t 0 =
      clipReturn (logMid.getD (t + h.toNat) 0 - logMid.getD t 0) := by
  have hcut : min h (logMid.length - 1) = h := min_eq_left (by omega)
  unfold returnColumn
  dsimp only
  rw [hcut]
  rcases hh.eq_or_lt with rfl | hpos
  · -- the return of a row to itself
    rw [if_neg (by simp), List.getD_eq_getElem _ _ (by simp; omega), List.getElem_map,
      List.getElem_replicate, Int.toNat_zero, Nat.add_zero, sub_self]
  · have hleft : t < (List.zipWith (· - ·) (logMid.drop h.toNat)
        (logMid.take (logMid.length - h.toNat))).length := by
      rw [List.length_zipWith, List.length_drop, List.length_take]
      omega
    rw [if_pos ⟨hpos, by omega⟩, List.getD_eq_getElem _ _ (by simp; omega), List.getElem_map,
      List.getElem_append_left hleft, List.getElem_zipWith, List.getElem_drop, List.getElem_take,
      List.getD_eq_getElem _ _ (by omega), List.getD_eq_getElem _ _ (by omega)]
    congr 3
    omega

/-- The labels of a row. -/
theorem getD_labelsOfRows {rows : List (BookRow K)} {horizons : List ℤ} {labels : List (List K)}
    (hlabels : labelsOfRows fn rows horizons = some labels) {t : ℕ} (ht : t < rows.length) :
    ∃ adverse, labels.getD t [] =
      horizons.map (fun h => (returnColumn (rows.map (labelLogMid fn)) h).getD t 0) ++
        [directionOf ((horizons.map fun h =>
          (returnColumn (rows.map (labelLogMid fn)) h).getD t 0).getD 2 0), adverse] := by
  unfold labelsOfRows at hlabels
  split_ifs at hlabels with hfew
  obtain rfl := Option.some.inj hlabels
  rw [List.getD_eq_getElem _ _ (by simpa using ht), List.getElem_map, List.getElem_range]
  dsimp only
  rw [List.map_map]
  exact ⟨_, rfl⟩

theorem labelLogMid_of_pos {row : BookRow K} (hpos : row.bestMid > 0.0) :
    labelLogMid fn row = fn.log row.bestMid := by
  have hmid : row.mid fn = row.bestMid := if_pos hpos
  rw [labelLogMid, hmid, if_pos hpos]

/-- A true label has a later row for every horizon. -/
theorem IsTrueLabel.later {rows : List (BookRow K)} {horizons : List ℤ} {t : ℕ} {label : List K}
    (h : IsTrueLabel fn rows horizons t label) (ht : t < rows.length) {horizon : ℤ}
    (hhorizon : horizon ∈ horizons) : 0 ≤ t + horizon ∧ t + horizon < rows.length := by
  obtain ⟨i, hi⟩ := List.mem_iff_getElem?.mp hhorizon
  obtain ⟨r, hr, -⟩ := h.returns i horizon hi
  exact (logReturn_isSome ht).mp ⟨r, hr⟩

/-- The labels of a row with a later row for every horizon are true. -/
theorem isTrueLabel_getD {rows : List (BookRow K)} {horizons : List ℤ} {labels : List (List K)}
    (hlabels : labelsOfRows fn rows horizons = some labels)
    (hpos : ∀ row ∈ rows, row.bestMid > 0.0) {t : ℕ} (ht : t < rows.length)
    (hlater : ∀ h ∈ horizons, 0 ≤ h ∧ t + h < rows.length) :
    IsTrueLabel fn rows horizons t (labels.getD t []) := by
  have hmany : 3 ≤ horizons.length := by
    unfold labelsOfRows at hlabels
    split_ifs at hlabels with hfew
    omega
  have hlogMid : ∀ {u : ℕ} (hu : u < rows.length),
      (rows.map (labelLogMid fn)).getD u 0 = fn.log rows[u].bestMid := by
    intro u hu
    rw [List.getD_eq_getElem _ _ (by simpa using hu), List.getElem_map,
      labelLogMid_of_pos (hpos _ (List.getElem_mem hu))]
  obtain ⟨adverse, hlabel⟩ := getD_labelsOfRows hlabels ht
  rw [hlabel]
  set returns := horizons.map fun h => (returnColumn (rows.map (labelLogMid fn)) h).getD t 0
    with hreturns
  have hlength : returns.length = horizons.length := List.length_map _
  constructor
  · intro i h hi
    obtain ⟨hsign, hlt⟩ := hlater h (List.mem_of_getElem? hi)
    have hi' : i < returns.length := by
      rw [hlength]
      exact (List.getElem?_eq_some_iff.mp hi).1
    have hu : t + h.toNat < rows.length := by omega
    refine ⟨fn.log rows[t + h.toNat].bestMid - fn.log rows[t].bestMid, ?_, ?_⟩
    · have hindex : ((t : ℤ) + h).toNat = t + h.toNat := by omega
      rw [logReturn, if_pos (by omega), hindex, List.getElem?_eq_getElem hu,
        List.getElem?_eq_getElem ht]
      rfl
    · rw [List.getElem?_append_left hi', hreturns, List.getElem?_map, hi, Option.map_some,
        getD_returnColumn hsign (by rwa [List.length_map]), hlogMid hu, hlogMid ht]
  · rw [List.getElem?_append_right hlength.le, hlength, Nat.sub_self]
    have hthird : (returns ++ [directionOf (returns.getD 2 0), adverse]).getD 2 0 =
        returns.getD 2 0 := by
      rw [List.getD_append _ _ _ _ (by omega)]
    rw [hthird]
    rfl

/-! ## The windows -/

theorem mem_windowStarts {T seqLen stride : ℕ} {starts : List ℕ}
    (hstarts : windowStarts T seqLen stride = some starts) {start : ℕ} :
    start ∈ starts ↔ stride ∣ start ∧ start + seqLen ≤ T := by
  unfold windowStarts at hstarts
  split_ifs at hstarts with hzero
  obtain rfl := Option.some.inj hstarts
  have hcount : ∀ i, i < (T + 1 - seqLen + (stride - 1)) / stride ↔ i * stride + seqLen ≤ T := by
    intro i
    rw [← Nat.succ_le_iff, Nat.le_div_iff_mul_le (Nat.pos_of_ne_zero hzero), Nat.succ_mul]
    omega
  rw [List.mem_range']
  constructor
  · rintro ⟨i, hi, rfl⟩
    rw [Nat.zero_add, Nat.mul_comm]
    exact ⟨Dvd.intro_left i rfl, (hcount i).mp hi⟩
  · rintro ⟨⟨i, rfl⟩, hi⟩
    rw [Nat.mul_comm] at hi
    exact ⟨i, (hcount i).mpr hi, (Nat.zero_add _).symm⟩

/-- What the constructor makes of a frame. -/
theorem LobDataset.ofFrame_eq_some {sqrt : K → K} {df : LobFrame K} {cfg : DatasetConfig}
    {window : ℕ} {scalarMean : Option (List (Fin 28 → K))} {ds : LobDataset K}
    {rows : List (BookRow K)} (hrows : bookRows fn df = some rows)
    (hds : LobDataset.ofFrame fn sqrt df cfg window scalarMean = some ds) :
    ds.cfg = cfg ∧ labelsOfRows fn rows cfg.horizons = some ds.labelsArr ∧
      windowStarts rows.length cfg.seqLen cfg.stride = some ds.indices := by
  have hlob : computeLobTensor fn df = some (rows.map (lobRow fn)) := by
    rw [computeLobTensor, hrows, Option.map_some]
  have hlabels : computeLabels fn df cfg.horizons = labelsOfRows fn rows cfg.horizons := by
    rw [computeLabels, hrows, Option.bind_some]
  simp only [LobDataset.ofFrame, hlob, hlabels, Option.bind_eq_bind, Option.bind_some,
    Option.bind_eq_some_iff, Option.map_eq_some_iff, List.length_map] at hds
  obtain ⟨raw, -, labels, hsome, starts, hstarts, rfl⟩ := hds
  exact ⟨rfl, hsome, hstarts⟩

omit [Field K] [LinearOrder K] in
/-- What is served for a window. -/
theorem LobDataset.exists_getItem {ds : LobDataset K} {idx start : ℕ}
    (hidx : ds.indices[idx]? = some start) :
    ∃ item, ds.getItem idx = some item ∧
      item.labels = (ds.labelsArr.drop start).take ds.cfg.seqLen ∧
      item.mask = List.replicate ds.cfg.seqLen false := by
  rw [LobDataset.getItem, hidx]
  exact ⟨_, rfl, rfl, rfl⟩

/-- Nothing is masked, so every row of every window counts. -/
theorem LobDataset.labelsTrue_iff {ds : LobDataset K} {rows : List (BookRow K)} :
    ds.LabelsTrue fn rows ↔ ∀ start ∈ ds.indices, ∀ pos < ds.cfg.seqLen,
      IsTrueLabel fn rows ds.cfg.horizons (start + pos) (ds.labelsArr.getD (start + pos) []) := by
  have hserved : ∀ {start pos : ℕ}, pos < ds.cfg.seqLen →
      ((ds.labelsArr.drop start).take ds.cfg.seqLen).getD pos [] =
        ds.labelsArr.getD (start + pos) [] := by
    intro start pos hpos
    rw [List.getD_eq_getElem?_getD, List.getElem?_take_of_lt hpos, List.getElem?_drop,
      List.getD_eq_getElem?_getD]
  constructor
  · intro h start hstart pos hpos
    obtain ⟨idx, hidx⟩ := List.mem_iff_getElem?.mp hstart
    obtain ⟨item, hitem, hitemLabels, hmask⟩ := LobDataset.exists_getItem hidx
    have htrue := h idx start item hidx hitem pos
      (by rw [hmask, List.getElem?_replicate, if_pos hpos])
    rwa [hitemLabels, hserved hpos] at htrue
  · intro h idx start item hidx hitem pos hunmasked
    obtain ⟨item', hitem', hitemLabels, hmask⟩ := LobDataset.exists_getItem hidx
    obtain rfl : item = item' := Option.some.inj (hitem.symm.trans hitem')
    have hpos : pos < ds.cfg.seqLen := by
      rw [hmask] at hunmasked
      simpa using (List.getElem?_eq_some_iff.mp hunmasked).1
    rw [hitemLabels, hserved hpos]
    exact h start (List.mem_of_getElem? hidx) pos hpos

/-- **When the labels are true**: when no window has a row, or the rows that the stride leaves over
behind the last window are as many as the longest horizon. -/
theorem lobDataset_labels_true_iff {sqrt : K → K} {df : LobFrame K} {cfg : DatasetConfig}
    {window : ℕ} {scalarMean : Option (List (Fin 28 → K))} {ds : LobDataset K}
    {rows : List (BookRow K)} (hrows : bookRows fn df = some rows)
    (hpos : ∀ row ∈ rows, row.bestMid > 0.0)
    (hds : LobDataset.ofFrame fn sqrt df cfg window scalarMean = some ds) :
    ds.LabelsTrue fn rows ↔
      cfg.seqLen = 0 ∨ rows.length < cfg.seqLen ∨
        ∀ h ∈ cfg.horizons, 0 ≤ h ∧ h ≤ ((rows.length - cfg.seqLen) % cfg.stride : ℕ) := by
  obtain ⟨rfl, hlabels, hstarts⟩ := LobDataset.ofFrame_eq_some hrows hds
  rw [LobDataset.labelsTrue_iff]
  set S := ds.cfg.seqLen
  set stride := ds.cfg.stride
  have hmem : ∀ {start : ℕ}, start ∈ ds.indices ↔ stride ∣ start ∧ start + S ≤ rows.length :=
    mem_windowStarts hstarts
  constructor
  · intro h
    by_contra hnot
    obtain ⟨hrow, hnot⟩ := not_or.mp hnot
    obtain ⟨hwindow, hnot⟩ := not_or.mp hnot
    refine hnot fun horizon hhorizon => ?_
    -- the first row of the first window, and the last row of the last
    have hfirst := (h 0 (hmem.mpr ⟨dvd_zero _, by omega⟩) 0 (by omega)).later (by omega) hhorizon
    have hlastStart : (rows.length - S) / stride * stride + S ≤ rows.length := by
      have := Nat.div_mul_le_self (rows.length - S) stride
      omega
    have hlast := (h _ (hmem.mpr ⟨Dvd.intro_left _ rfl, hlastStart⟩) (S - 1) (by omega)).later
      (by omega) hhorizon
    have hleft := Nat.div_add_mod (rows.length - S) stride
    rw [Nat.mul_comm] at hleft
    omega
  · intro h start hstart pos hpos
    obtain ⟨hdvd, hend⟩ := hmem.mp hstart
    refine isTrueLabel_getD hlabels ‹_› (by omega) fun horizon hhorizon => ?_
    rcases h with hrow | hwindow | hleft
    · omega
    · omega
    · obtain ⟨hsign, hle⟩ := hleft horizon hhorizon
      -- behind this window there are at least the rows that are left over behind the last
      have hmod : (rows.length - S) % stride ≤ rows.length - S - start := by
        obtain ⟨k, rfl⟩ := hdvd
        rw [← Nat.sub_mul_mod (by omega : stride * k ≤ rows.length - S)]
        exact Nat.mod_le _ _
      omega

end Labels

/-! ## A frame of mids that are one -/

/-- The rows of such a frame. -/
theorem bookRows_framesOfSpreads (n : ℕ) (hn : n = 2 ∨ n = 3) :
    ∃ rows, bookRows exactArrays (framesOfSpreads (List.replicate n 1)) = some rows ∧
      rows.length = n ∧ ∀ row ∈ rows, row.bestMid > 0.0 := by
  have hrows : ∀ m ∈ [2, 3], ((bookRows exactArrays (framesOfSpreads (List.replicate m 1))).isSome ∧
      ((bookRows exactArrays (framesOfSpreads (List.replicate m 1))).getD []).length = m ∧
      ∀ row ∈ (bookRows exactArrays (framesOfSpreads (List.replicate m 1))).getD [],
        row.bestMid > 0.0) := by
    decide +kernel
  obtain ⟨hsome, hlength, hpos⟩ := hrows n (by simpa using hn)
  obtain ⟨rows, heq⟩ := Option.isSome_iff_exists.1 hsome
  rw [heq] at hlength hpos
  exact ⟨rows, heq, hlength, hpos⟩

/-- Three rows, windows of one and a stride of three: two rows are left over. -/
theorem lobDataset_labels_true_three :
    ∃ ds rows, bookRows exactArrays (framesOfSpreads (List.replicate 3 1)) = some rows ∧
      LobDataset.ofFrame exactArrays exactArrays.sqrt (framesOfSpreads (List.replicate 3 1))
        ⟨1, 3, [1, 2, 2]⟩ 500 none = some ds ∧ ds.LabelsTrue exactArrays rows := by
  obtain ⟨ds, hds⟩ := Option.isSome_iff_exists.1
    (show (LobDataset.ofFrame exactArrays exactArrays.sqrt (framesOfSpreads (List.replicate 3 1))
      ⟨1, 3, [1, 2, 2]⟩ 500 none).isSome by decide +kernel)
  obtain ⟨rows, hrows, hlength, hpos⟩ := bookRows_framesOfSpreads 3 (Or.inr rfl)
  refine ⟨ds, rows, hrows, hds, (lobDataset_labels_true_iff hrows hpos hds).mpr ?_⟩
  rw [hlength]
  exact Or.inr (Or.inr (by decide))

/-- With a stride of one the last row is served, unmasked, and has no later row. -/
theorem lobDataset_labels_false :
    ∃ ds rows, bookRows exactArrays (framesOfSpreads (List.replicate 2 1)) = some rows ∧
      (∀ row ∈ rows, row.bestMid > 0.0) ∧
      LobDataset.ofFrame exactArrays exactArrays.sqrt (framesOfSpreads (List.replicate 2 1))
        ⟨2, 1, [1, 10, 100]⟩ 500 none = some ds ∧ ¬ ds.LabelsTrue exactArrays rows := by
  obtain ⟨ds, hds⟩ := Option.isSome_iff_exists.1
    (show (LobDataset.ofFrame exactArrays exactArrays.sqrt (framesOfSpreads (List.replicate 2 1))
      ⟨2, 1, [1, 10, 100]⟩ 500 none).isSome by decide +kernel)
  obtain ⟨rows, hrows, hlength, hpos⟩ := bookRows_framesOfSpreads 2 (Or.inl rfl)
  refine ⟨ds, rows, hrows, hpos, hds, fun htrue => ?_⟩
  obtain ⟨hcfg, -, hstarts⟩ := LobDataset.ofFrame_eq_some hrows hds
  rw [hlength] at hstarts
  rw [LobDataset.labelsTrue_iff, hcfg] at htrue
  have hstart : 0 ∈ ds.indices := (mem_windowStarts hstarts).mpr ⟨dvd_zero _, le_rfl⟩
  have hlater := (htrue 0 hstart 1 (by decide)).later (hlength.symm ▸ by decide)
    (List.mem_cons_self (a := (1 : ℤ)))
  rw [hlength] at hlater
  exact absurd hlater (by decide)

end TradingInfrastructure
