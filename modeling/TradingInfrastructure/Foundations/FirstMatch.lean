import Mathlib.Tactic
import Mathlib.Data.List.Pairwise

/-!
# Dropping what is there already

A list is gone over from the front, and an element is dropped that is the `same` as one that was
kept before (`firsts`). The relation need not be an equivalence, so what is kept depends on the
order of the list: in some order it is any selection that has no two elements that are the same, and
that every other element is the same as one of (`forall_perm_iff`).
-/

namespace TradingInfrastructure

variable {α β : Type*} (same : α → α → Prop) [DecidableRel same]

/-- What is kept of a list. -/
def firsts (xs : List α) : List α := (xs.reverse.pwFilter fun x y => ¬ same x y).reverse

variable {same} {xs ys : List α} {x : α}

@[simp] theorem firsts_nil : firsts same [] = [] := rfl

/-- **One step** of the loop. -/
theorem firsts_concat : firsts same (xs ++ [x]) =
    if ∃ y ∈ firsts same xs, same x y then firsts same xs else firsts same xs ++ [x] := by
  rw [firsts, List.reverse_append, List.reverse_singleton, List.singleton_append]
  split_ifs with hold
  · rw [List.pwFilter_cons_of_neg]
    · rfl
    · intro hnew
      obtain ⟨y, hy, hsame⟩ := hold
      exact hnew y (List.mem_reverse.mp hy) hsame
  · rw [List.pwFilter_cons_of_pos]
    · rw [List.reverse_cons]
      rfl
    · intro y hy hsame
      exact hold ⟨y, List.mem_reverse.mpr hy, hsame⟩

theorem firsts_concat_of_old (h : ∃ y ∈ firsts same xs, same x y) :
    firsts same (xs ++ [x]) = firsts same xs := by
  rw [firsts_concat, if_pos h]

theorem firsts_concat_of_new (h : ¬ ∃ y ∈ firsts same xs, same x y) :
    firsts same (xs ++ [x]) = firsts same xs ++ [x] := by
  rw [firsts_concat, if_neg h]

theorem firsts_sublist : List.Sublist (firsts same xs) xs := by
  have h := (List.pwFilter_sublist (R := fun x y => ¬ same x y) xs.reverse).reverse
  rwa [List.reverse_reverse] at h

theorem pairwise_firsts : (firsts same xs).Pairwise fun x y => ¬ same y x :=
  List.pairwise_reverse.mpr (List.pairwise_pwFilter _)

/-- **Nothing is dropped** exactly when no element is the same as one before it. -/
theorem firsts_eq_self_iff : firsts same xs = xs ↔ xs.Pairwise fun x y => ¬ same y x := by
  rw [firsts, List.reverse_eq_iff, List.pwFilter_eq_self, List.pairwise_reverse]

/-! ## Lists one after another -/

/-- What comes after a list is judged by what is kept of the list. -/
theorem firsts_append_congr {zs : List α} (h : firsts same xs = firsts same ys) :
    firsts same (xs ++ zs) = firsts same (ys ++ zs) := by
  induction zs using List.reverseRecOn with
  | nil => simpa using h
  | append_singleton zs z ih =>
    rw [← List.append_assoc, ← List.append_assoc, firsts_concat, firsts_concat, ih]

/-- What is the same as something kept is dropped. -/
theorem firsts_append_of_old (h : ∀ y ∈ ys, ∃ x ∈ firsts same xs, same y x) :
    firsts same (xs ++ ys) = firsts same xs := by
  induction ys using List.reverseRecOn with
  | nil => rw [List.append_nil]
  | append_singleton ys y ih =>
    have hrest := ih fun z hz => h z (List.mem_append_left _ hz)
    have hy := h y (List.mem_append_right _ (List.mem_singleton_self y))
    rw [← List.append_assoc, firsts_concat_of_old (hrest ▸ hy), hrest]

/-- What is kept, or the same as something kept. -/
theorem mem_firsts_or (h : x ∈ xs) : x ∈ firsts same xs ∨ ∃ y ∈ firsts same xs, same x y := by
  induction xs using List.reverseRecOn with
  | nil => cases h
  | append_singleton xs z ih =>
    have hgrow : ∀ y, y ∈ firsts same xs → y ∈ firsts same (xs ++ [z]) := by
      intro y hy
      rw [firsts_concat]
      split_ifs
      · exact hy
      · exact List.mem_append_left _ hy
    rcases List.mem_append.mp h with h | h
    · exact (ih h).imp (hgrow x) fun ⟨y, hy, hsame⟩ => ⟨y, hgrow y hy, hsame⟩
    · obtain rfl := List.mem_singleton.mp h
      by_cases hold : ∃ y ∈ firsts same xs, same x y
      · obtain ⟨y, hy, hsame⟩ := hold
        exact Or.inr ⟨y, hgrow y hy, hsame⟩
      · rw [firsts_concat_of_new hold]
        exact Or.inl (List.mem_append_right _ (List.mem_singleton_self x))

/-- **A repetition is dropped.** -/
theorem firsts_insert_repetition (hx : x ∈ xs) (hsame : same x x) :
    firsts same (xs ++ x :: ys) = firsts same (xs ++ ys) := by
  have hold : ∃ y ∈ firsts same xs, same x y :=
    (mem_firsts_or hx).elim (fun hkept => ⟨x, hkept, hsame⟩) id
  rw [List.append_cons]
  exact firsts_append_congr (firsts_concat_of_old hold)

/-! ## Selections -/

/-- The kept elements of a list and the others: no two that are kept are the same, and each other
one is the same as a kept one. -/
structure IsSelection (same : α → α → Prop) (kept xs : List α) : Prop where
  free : kept.Pairwise fun x y => ¬ same y x
  covers : ∃ dropped, (kept ++ dropped).Perm xs ∧ ∀ x ∈ dropped, ∃ y ∈ kept, same x y

omit [DecidableRel same] in
theorem IsSelection.perm {kept : List α} (h : IsSelection same kept xs) (hperm : xs.Perm ys) :
    IsSelection same kept ys where
  free := h.free
  covers := by
    obtain ⟨dropped, hdropped, hold⟩ := h.covers
    exact ⟨dropped, hdropped.trans hperm, hold⟩

/-- What is kept is a selection. -/
theorem isSelection_firsts (xs : List α) : IsSelection same (firsts same xs) xs where
  free := pairwise_firsts
  covers := by
    induction xs using List.reverseRecOn with
    | nil => exact ⟨[], .nil, fun x hx => by cases hx⟩
    | append_singleton xs z ih =>
      obtain ⟨dropped, hperm, hold⟩ := ih
      by_cases hz : ∃ y ∈ firsts same xs, same z y
      · rw [firsts_concat_of_old hz]
        refine ⟨dropped ++ [z], ?_, ?_⟩
        · rw [← List.append_assoc]
          exact hperm.append_right _
        · intro x hx
          rcases List.mem_append.mp hx with hx | hx
          · exact hold x hx
          · exact List.mem_singleton.mp hx ▸ hz
      · rw [firsts_concat_of_new hz]
        refine ⟨dropped, ?_, fun x hx => ?_⟩
        · rw [List.append_assoc]
          exact (List.perm_append_comm.append_left _).trans
            ((List.append_assoc _ _ _).symm ▸ hperm.append_right [z])
        · obtain ⟨y, hy, hsame⟩ := hold x hx
          exact ⟨y, List.mem_append_left _ hy, hsame⟩

/-- A selection is what is kept, in some order. -/
theorem IsSelection.exists_perm {kept : List α} (h : IsSelection same kept xs) :
    ∃ ys, ys.Perm xs ∧ firsts same ys = kept := by
  obtain ⟨dropped, hperm, hold⟩ := h.covers
  have hkept := firsts_eq_self_iff.mpr h.free
  refine ⟨kept ++ dropped, hperm, ?_⟩
  rw [firsts_append_of_old (hkept.symm ▸ hold), hkept]

/-- **What is made of the kept elements does not depend on the order** exactly when all selections
make the same. -/
theorem forall_perm_iff {f : List α → β} :
    (∀ ys, ys.Perm xs → f (firsts same ys) = f (firsts same xs)) ↔
      ∀ kept kept', IsSelection same kept xs → IsSelection same kept' xs → f kept = f kept' := by
  constructor
  · intro h kept kept' hkept hkept'
    obtain ⟨ys, hys, rfl⟩ := hkept.exists_perm
    obtain ⟨ys', hys', rfl⟩ := hkept'.exists_perm
    rw [h ys hys, h ys' hys']
  · intro h ys hys
    exact h _ _ ((isSelection_firsts ys).perm hys) (isSelection_firsts xs)

end TradingInfrastructure
