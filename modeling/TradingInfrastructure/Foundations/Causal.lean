import Mathlib.Data.List.Basic
import Mathlib.Data.List.Forall2
import Mathlib.Data.List.TakeDrop

/-!
# Columns that do not look ahead

A column is a list with one entry for each row. Two columns agree on their first rows (`AgreeTo`)
when these are the same in both. The operations that compute a row from the rows up to it keep
agreement: maps and zips, and the columns that `ofPrefixes` builds. A column that `ofSuffixes`
builds reads the rows from its own on.
-/

namespace TradingInfrastructure

variable {α β γ : Type*}

/-- The entries of a column whose computation does not fail. -/
theorem getElem?_of_mapM {f : α → Option β} {xs : List α} {ys : List β} (h : xs.mapM f = some ys)
    (i : ℕ) : ys[i]? = xs[i]?.bind f := by
  induction xs generalizing ys i with
  | nil =>
    obtain rfl : [] = ys := Option.some_inj.1 h
    rfl
  | cons x xs ih =>
    simp only [List.mapM_cons, Option.bind_eq_bind, Option.bind_eq_some_iff] at h
    obtain ⟨y, hy, rest, hrest, hys⟩ := h
    obtain rfl : y :: rest = ys := Option.some_inj.1 hys
    cases i with
    | zero => simp [hy]
    | succ i => simpa using ih hrest i

/-- A map of the entries of such a column. -/
theorem map_of_mapM {f : α → Option β} {g : β → γ} {k : α → γ} {xs : List α} {ys : List β}
    (h : xs.mapM f = some ys) (hg : ∀ x y, f x = some y → g y = k x) : ys.map g = xs.map k := by
  induction xs generalizing ys with
  | nil =>
    obtain rfl : [] = ys := Option.some_inj.1 h
    rfl
  | cons x xs ih =>
    simp only [List.mapM_cons, Option.bind_eq_bind, Option.bind_eq_some_iff] at h
    obtain ⟨y, hy, rest, hrest, hys⟩ := h
    obtain rfl : y :: rest = ys := Option.some_inj.1 hys
    exact congrArg₂ List.cons (hg x y hy) (ih hrest)

/-- Two such columns side by side. -/
theorem forall₂_of_mapM {f g : α → Option β} {R : β → β → Prop} {xs : List α} {ys zs : List β}
    (hys : xs.mapM f = some ys) (hzs : xs.mapM g = some zs)
    (hR : ∀ x y z, f x = some y → g x = some z → R y z) : List.Forall₂ R ys zs := by
  induction xs generalizing ys zs with
  | nil =>
    obtain rfl : [] = ys := Option.some_inj.1 hys
    obtain rfl : [] = zs := Option.some_inj.1 hzs
    exact .nil
  | cons x xs ih =>
    simp only [List.mapM_cons, Option.bind_eq_bind, Option.bind_eq_some_iff] at hys hzs
    obtain ⟨y, hy, ys', hys', hys⟩ := hys
    obtain ⟨z, hz, zs', hzs', hzs⟩ := hzs
    rw [← Option.some_inj.1 hys, ← Option.some_inj.1 hzs]
    exact .cons (hR x y z hy hz) (ih hys' hzs')

theorem forall₂_getD {R : α → α → Prop} {xs ys : List α} (h : List.Forall₂ R xs ys) {d : α}
    (hd : R d d) (i : ℕ) : R (xs.getD i d) (ys.getD i d) := by
  induction h generalizing i with
  | nil => exact hd
  | cons hhead _ ih =>
    cases i with
    | zero => exact hhead
    | succ i => exact ih i

/-- Two columns have the same first `n` rows. -/
def AgreeTo (n : ℕ) (xs ys : List α) : Prop := xs.take n = ys.take n

namespace AgreeTo

variable {m n i : ℕ} {xs ys : List α}

theorem refl (n : ℕ) (xs : List α) : AgreeTo n xs xs := rfl

theorem zero (xs ys : List α) : AgreeTo 0 xs ys := rfl

theorem mono (h : AgreeTo n xs ys) (hm : m ≤ n) : AgreeTo m xs ys := by
  have htake := congrArg (List.take m) h
  rwa [List.take_take, List.take_take, Nat.min_eq_left hm] at htake

/-- The rows that columns agree on. -/
theorem getElem?_eq (h : AgreeTo n xs ys) (hi : i < n) : xs[i]? = ys[i]? := by
  have hrow := congrArg (·[i]?) h
  simpa only [List.getElem?_take_of_lt hi] using hrow

theorem of_getElem? (h : ∀ i < n, xs[i]? = ys[i]?) : AgreeTo n xs ys := by
  refine List.ext_getElem? fun i => ?_
  rcases Nat.lt_or_ge i n with hi | hi
  · rw [List.getElem?_take_of_lt hi, List.getElem?_take_of_lt hi, h i hi]
  · rw [List.getElem?_take_eq_none hi, List.getElem?_take_eq_none hi]

/-- Columns that agree are both long enough for a row, or neither is. -/
theorem length_lt_iff (h : AgreeTo n xs ys) (hi : i < n) : i < xs.length ↔ i < ys.length := by
  rw [← Nat.not_le, ← Nat.not_le, ← List.getElem?_eq_none_iff, ← List.getElem?_eq_none_iff,
    h.getElem?_eq hi]

/-! ## Row by row -/

theorem map (h : AgreeTo n xs ys) (f : α → β) : AgreeTo n (xs.map f) (ys.map f) := by
  rw [AgreeTo, ← List.map_take, ← List.map_take, h]

theorem zipWith {xs' ys' : List β} (h : AgreeTo n xs ys) (h' : AgreeTo n xs' ys')
    (f : α → β → γ) : AgreeTo n (List.zipWith f xs xs') (List.zipWith f ys ys') := by
  rw [AgreeTo, List.take_zipWith, List.take_zipWith, h, h']

theorem zip {xs' ys' : List β} (h : AgreeTo n xs ys) (h' : AgreeTo n xs' ys') :
    AgreeTo n (xs.zip xs') (ys.zip ys') :=
  h.zipWith h' Prod.mk

theorem cons (h : AgreeTo n xs ys) (x : α) : AgreeTo (n + 1) (x :: xs) (x :: ys) :=
  congrArg (x :: ·) h

theorem append_left (h : AgreeTo n xs ys) (zs : List α) : AgreeTo n (zs ++ xs) (zs ++ ys) := by
  rw [AgreeTo, List.take_append, List.take_append, h.mono (Nat.sub_le n zs.length)]

/-- Columns whose rows are computed from their index. -/
theorem ofRows (h : AgreeTo n xs ys) {f g : ℕ → β} (hrow : ∀ i < n, f i = g i) :
    AgreeTo n ((List.range xs.length).map f) ((List.range ys.length).map g) := by
  refine of_getElem? fun i hi => ?_
  by_cases hlength : i < xs.length
  · simp [hlength, (h.length_lt_iff hi).1 hlength, hrow i hi]
  · have hlength' : ¬ i < ys.length := fun hlt => hlength ((h.length_lt_iff hi).2 hlt)
    rw [List.getElem?_eq_none (by simpa using hlength),
      List.getElem?_eq_none (by simpa using hlength')]

/-- Running results. -/
theorem scanl (h : AgreeTo n xs ys) (f : β → α → β) (b : β) :
    AgreeTo (n + 1) (List.scanl f b xs) (List.scanl f b ys) := by
  induction n generalizing b xs ys with
  | zero => cases xs <;> cases ys <;> simp only [List.scanl_nil, List.scanl_cons] <;> rfl
  | succ n ih =>
    match xs, ys, h with
    | [], [], _ => exact refl _ _
    | x :: xs, y :: ys, h =>
      obtain ⟨rfl, hrest⟩ := List.cons.inj h
      rw [List.scanl_cons, List.scanl_cons]
      exact (ih hrest (f b x)).cons b

/-- Columns whose entries may fail. -/
theorem mapM (h : AgreeTo n xs ys) {f : α → Option β} {xs' ys' : List β}
    (hxs : xs.mapM f = some xs') (hys : ys.mapM f = some ys') : AgreeTo n xs' ys' :=
  of_getElem? fun i hi => by
    rw [getElem?_of_mapM hxs, getElem?_of_mapM hys, h.getElem?_eq hi]

theorem head?_eq (h : AgreeTo (n + 1) xs ys) : xs.head? = ys.head? := by
  rw [List.head?_eq_getElem?, List.head?_eq_getElem?, h.getElem?_eq n.succ_pos]

theorem getD_eq (h : AgreeTo n xs ys) (hi : i < n) (d : α) : xs.getD i d = ys.getD i d := by
  rw [List.getD_eq_getElem?_getD, List.getD_eq_getElem?_getD, h.getElem?_eq hi]

end AgreeTo

/-! ## Rows computed from the rows up to them -/

/-- The column whose rows are computed from the rows up to their own. -/
def ofPrefixes (f : List α → β) (xs : List α) : List β :=
  (List.range xs.length).map fun i => f (xs.take (i + 1))

@[simp] theorem length_ofPrefixes (f : List α → β) (xs : List α) :
    (ofPrefixes f xs).length = xs.length := by
  simp [ofPrefixes]

/-- **Such a column does not look ahead.** -/
theorem AgreeTo.ofPrefixes {n : ℕ} {xs ys : List α} (h : AgreeTo n xs ys) (f : List α → β) :
    AgreeTo n (ofPrefixes f xs) (ofPrefixes f ys) :=
  h.ofRows fun _ hi => congrArg f (h.mono hi)

/-! ## Rows computed from the rows from them on -/

/-- The column whose rows are computed from the rows from their own on. -/
def ofSuffixes (f : List α → β) (xs : List α) : List β :=
  (List.range xs.length).map fun i => f (xs.drop i)

theorem getElem?_ofSuffixes (f : List α → β) {xs : List α} {i : ℕ} (hi : i < xs.length) :
    (ofSuffixes f xs)[i]? = some (f (xs.drop i)) := by
  simp [ofSuffixes, hi]

/-- **The next entry of a column of rows computed from prefixes** is the first that one of the rows
from here on gives. -/
theorem findSome?_drop_ofPrefixes (f : List α → Option β) (xs : List α) (t : ℕ) :
    ((ofPrefixes f xs).drop t).findSome? id =
      (List.range (xs.length - t)).findSome? fun k => f (xs.take (t + k + 1)) := by
  have hdrop : (ofPrefixes f xs).drop t =
      (List.range (xs.length - t)).map fun k => f (xs.take (t + k + 1)) := by
    refine List.ext_getElem (by simp) fun k hk hk' => ?_
    simp [ofPrefixes]
  rw [hdrop, List.findSome?_map]
  rfl

end TradingInfrastructure
