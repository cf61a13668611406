import Mathlib.Data.List.Sort
import Mathlib.Tactic

/-!
# Sorting by indices

`argsort` lists the indices of a list in the order of their values, so that reading the values in
that order sorts them (`map_argsort`). Values that are written back in an order of all the indices
are the values of the result, in some order (`scatter_perm`).
-/

namespace TradingInfrastructure

variable {α : Type*} [LinearOrder α]

/-- The indices of a list, in the order of their values. -/
def argsort (blank : α) (xs : List α) : List ℕ :=
  (List.range xs.length).insertionSort fun i j => xs.getD i blank ≤ xs.getD j blank

theorem argsort_perm (blank : α) (xs : List α) :
    (argsort blank xs).Perm (List.range xs.length) :=
  List.perm_insertionSort _ _

@[simp] theorem length_argsort (blank : α) (xs : List α) :
    (argsort blank xs).length = xs.length := by
  rw [argsort, List.length_insertionSort, List.length_range]

omit [LinearOrder α] in
/-- The values at all the indices are the list. -/
theorem map_getD_range (blank : α) (xs : List α) :
    (List.range xs.length).map (xs.getD · blank) = xs := by
  refine List.ext_getElem (by simp) fun i hi _ => ?_
  have hlt : i < xs.length := by simpa using hi
  simp [List.getElem?_eq_getElem hlt]

/-- **In the order of the indices** the values are sorted. -/
theorem map_argsort (blank : α) (xs : List α) :
    (argsort blank xs).map (xs.getD · blank) = xs.insertionSort (· ≤ ·) := by
  rw [argsort, List.map_insertionSort (fun i j => xs.getD i blank ≤ xs.getD j blank) (· ≤ ·)
    (xs.getD · blank) _ fun _ _ _ _ => Iff.rfl, map_getD_range]

/-! ## Writing back -/

omit [LinearOrder α]

/-- Write the values at the indices, one after another. -/
def scatter (order : List ℕ) (values xs : List α) : List α :=
  (order.zip values).foldl (fun xs p => xs.set p.1 p.2) xs

variable {order : List ℕ} {values xs : List α}

@[simp] theorem length_scatter : (scatter order values xs).length = xs.length := by
  unfold scatter
  induction order.zip values generalizing xs with
  | nil => rfl
  | cons p rest ih => rw [List.foldl_cons, ih, List.length_set]

theorem scatter_cons {i : ℕ} {v : α} :
    scatter (i :: order) (v :: values) xs = scatter order values (xs.set i v) := rfl

/-- An index that is not written keeps its value. -/
theorem getD_scatter_of_notMem {i : ℕ} (hi : i ∉ order) (blank : α) :
    (scatter order values xs).getD i blank = xs.getD i blank := by
  induction order generalizing values xs with
  | nil => rfl
  | cons j order ih =>
    obtain ⟨hne, hrest⟩ : i ≠ j ∧ i ∉ order := by simpa using hi
    cases values with
    | nil => rfl
    | cons v values =>
      rw [scatter_cons, ih hrest, List.getD_eq_getElem?_getD, List.getD_eq_getElem?_getD,
        List.getElem?_set_ne (Ne.symm hne)]

/-- Reading in the order of writing gives what was written. -/
theorem map_getD_scatter (blank : α) (hnodup : order.Nodup) (hlt : ∀ i ∈ order, i < xs.length)
    (hlength : values.length = order.length) :
    order.map (fun i => (scatter order values xs).getD i blank) = values := by
  induction order generalizing values xs with
  | nil => exact (List.length_eq_zero_iff.mp hlength).symm
  | cons i order ih =>
    obtain ⟨hi, hnodup⟩ := List.nodup_cons.mp hnodup
    cases values with
    | nil => exact absurd hlength (by simp)
    | cons v values =>
      have hhead : (scatter order values (xs.set i v)).getD i blank = v := by
        rw [getD_scatter_of_notMem hi, List.getD_eq_getElem?_getD,
          List.getElem?_set_self (hlt i (by simp)), Option.getD_some]
      rw [List.map_cons, scatter_cons, hhead]
      rw [ih hnodup (fun j hj => by simpa using hlt j (by simp [hj])) (by simpa using hlength)]

/-- **Writing at every index** leaves the values that were written, in some order. -/
theorem scatter_perm (blank : α) (horder : order.Perm (List.range xs.length))
    (hlength : values.length = order.length) : (scatter order values xs).Perm values := by
  have hlt : ∀ i ∈ order, i < xs.length := fun i hi => List.mem_range.mp (horder.mem_iff.mp hi)
  have hread := map_getD_scatter blank (horder.nodup_iff.mpr List.nodup_range) hlt hlength
  have hall := map_getD_range blank (scatter order values xs)
  rw [length_scatter] at hall
  rw [← hall]
  exact (horder.map _).symm.trans (List.Perm.of_eq hread)

end TradingInfrastructure
