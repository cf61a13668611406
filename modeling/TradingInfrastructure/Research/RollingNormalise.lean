import Mathlib.Analysis.Real.Sqrt
import Mathlib.Tactic

/-!
# Rolling normalisation

`rolling_normalise` of `research/neural_alpha/data/dataset.py`, in exact arithmetic: each row is
normalised with the mean and the deviation of the rows of a window that ends with it, from running
sums over a history and the rows. The history is cut to the window, but the rows are looked for
behind its full length.

A frame that is split into a history and the rest is normalised as it is in one piece exactly if the
history is no longer than the window (`rollingNormalise_drop_eq_iff`). Behind a longer one, rows are
missing (`length_rollingNormalise`).
-/

namespace TradingInfrastructure

variable {K : Type*} {D : ℕ}

/-- `rows[-n:]`. -/
def lastRows {α : Type*} (n : ℕ) (rows : List α) : List α :=
  if n = 0 then rows else rows.drop (rows.length - n)

/-- Zero and the running sums. -/
def runningSums [Field K] (rows : List (Fin D → K)) : List (Fin D → K) := rows.scanl (· + ·) 0

section

variable [Field K] [LinearOrder K] (sqrt : K → K)

/-- The row at an index, normalised with the rows of the window that ends with it. -/
def normalisedRow (window : ℕ) (combined : List (Fin D → K)) (i : ℕ) (d : Fin D) : K :=
  let cum := runningSums combined
  let cum2 := runningSums (combined.map fun row => row ^ 2)
  let stop := i + 1
  let start := stop - window
  let s1 := (cum.getD stop 0) d - (cum.getD start 0) d
  let s2 := (cum2.getD stop 0) d - (cum2.getD start 0) d
  let n : K := ((stop - start : ℕ) : K)
  let mean := s1 / n
  let var := max 0 (s2 / n - mean ^ 2)
  ((combined.getD i 0) d - mean) / (sqrt var + 1e-8)

/-- `rolling_normalise`. -/
def rollingNormalise (x : List (Fin D → K)) (window : ℕ) (history : Option (List (Fin D → K))) :
    List (Fin D → K) :=
  if x = [] then x
  else
    let hist := history.getD []
    let combined := lastRows window hist ++ x
    -- the indices start behind the whole history, not behind what is left of it
    (List.range' hist.length (combined.length - hist.length)).map
      (normalisedRow sqrt window combined)

variable {sqrt} {x : List (Fin D → K)} {window k : ℕ}

theorem length_lastRows {α : Type*} (hwindow : 1 ≤ window) (rows : List α) :
    (lastRows window rows).length = min window rows.length := by
  rw [lastRows, if_neg (by omega), List.length_drop]
  omega

/-- **The rows that come out**, fewer than went in when the history is longer than the window. -/
theorem length_rollingNormalise (hwindow : 1 ≤ window) (hx : x ≠ []) (hist : List (Fin D → K)) :
    (rollingNormalise sqrt x window (some hist)).length =
      min window hist.length + x.length - hist.length := by
  rw [rollingNormalise, if_neg hx]
  simp only [Option.getD_some, List.length_map, List.length_range', List.length_append,
    length_lastRows hwindow]

/-- Behind a history no longer than the window, the rows are those of the whole frame. -/
theorem rollingNormalise_of_short (hwindow : 1 ≤ window) (hx : x ≠ []) {hist : List (Fin D → K)}
    (hhist : hist.length ≤ window) :
    rollingNormalise sqrt x window (some hist) =
      (List.range' hist.length x.length).map (normalisedRow sqrt window (hist ++ x)) := by
  have hlast : lastRows window hist = hist := by
    rw [lastRows, if_neg (by omega), Nat.sub_eq_zero_of_le hhist, List.drop_zero]
  rw [rollingNormalise, if_neg hx]
  simp only [Option.getD_some, hlast, List.length_append, Nat.add_sub_cancel_left]

/-- In one piece, every row is normalised. -/
theorem rollingNormalise_none (hx : x ≠ []) :
    rollingNormalise sqrt x window none =
      (List.range' 0 x.length).map (normalisedRow sqrt window x) := by
  have hlast : lastRows window ([] : List (Fin D → K)) = [] := by
    simp [lastRows]
  rw [rollingNormalise, if_neg hx]
  simp only [Option.getD_none, hlast, List.nil_append, List.length_nil, Nat.sub_zero]

/-- **Normalising a stream** gives the rows that normalising the whole frame gives exactly if the
history is no longer than the window. -/
theorem rollingNormalise_drop_eq_iff (hwindow : 1 ≤ window) (hk : k < x.length) :
    rollingNormalise sqrt (x.drop k) window (some (x.take k)) =
        (rollingNormalise sqrt x window none).drop k ↔
      k ≤ window := by
  have hx : x ≠ [] := List.ne_nil_of_length_pos (by omega)
  have hrest : x.drop k ≠ [] := List.ne_nil_of_length_pos (by rw [List.length_drop]; omega)
  have hlength : (x.take k).length = k := by
    rw [List.length_take]
    omega
  constructor
  · intro h
    -- the number of rows alone tells them apart
    have hrows := congrArg List.length h
    rw [length_rollingNormalise hwindow hrest, hlength, List.length_drop, List.length_drop,
      rollingNormalise_none hx, List.length_map, List.length_range'] at hrows
    omega
  · intro hshort
    rw [rollingNormalise_of_short hwindow hrest (by rwa [hlength]), rollingNormalise_none hx,
      List.take_append_drop, hlength, List.length_drop, ← List.map_drop, List.drop_range']
    congr 2
    omega

end

/-- A row of history and a window of two. -/
theorem rollingNormalise_drop_eq_two :
    rollingNormalise Real.sqrt ([![0], ![1], ![3]].drop 1) 2 (some ([![0], ![1], ![3]].take 1)) =
      (rollingNormalise Real.sqrt [![0], ![1], ![3]] 2 none).drop 1 :=
  (rollingNormalise_drop_eq_iff (by decide) (by decide)).mpr (by decide)

/-- Behind three rows of history, with a window of one, no row of two is left. -/
theorem rollingNormalise_loses_rows :
    rollingNormalise Real.sqrt ([![0], ![1], ![3], ![2], ![5]].drop 3) 1
        (some ([![0], ![1], ![3], ![2], ![5]].take 3)) ≠
      (rollingNormalise Real.sqrt [![0], ![1], ![3], ![2], ![5]] 1 none).drop 3 := by
  intro h
  have hrows := congrArg List.length h
  rw [length_rollingNormalise le_rfl (by simp), List.length_drop, List.length_drop,
    rollingNormalise_none (by simp), List.length_map, List.length_range'] at hrows
  exact absurd hrows (by decide)

end TradingInfrastructure
