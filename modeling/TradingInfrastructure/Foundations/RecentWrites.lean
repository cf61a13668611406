import Mathlib.Tactic

/-!
# A ring that overwrites

Cells that are written in turn, the oldest again when all are taken. Of what has been written, the
last `n` stand in the ring of `n` cells, and nothing else does (`RingHolds`). So a value that was
written stays in the ring for as long as fewer than `n` others come after it (`mem_of_recent`).

While a window moves forward along a line, positions that it shows are noted, each once (`Trails`).
After one that the window still shows, fewer have been noted than twice its width
(`Trails.length_lt`).
-/

namespace TradingInfrastructure

variable {α : Type*}

/-- **The ring holds the last writes**: `written` is all that was, in order, and the cells that
were not written yet are blank. -/
structure RingHolds (n : ℕ) (blank : α) (ring : List α) (written : List α) : Prop where
  length : ring.length = n
  recent : ∀ k a, written[k]? = some a → written.length ≤ k + n → ring[k % n]? = some a
  only : ∀ a ∈ ring, a = blank ∨ a ∈ written

variable {n : ℕ} {blank a : α} {ring written : List α}

theorem ringHolds_replicate (n : ℕ) (blank : α) :
    RingHolds n blank (List.replicate n blank) [] where
  length := List.length_replicate ..
  recent k a h := by simp at h
  only a ha := Or.inl (List.eq_of_mem_replicate ha)

/-- A write at the cursor, which counts the writes. -/
theorem RingHolds.write (h : RingHolds n blank ring written) (hn : 0 < n) (a : α) :
    RingHolds n blank (ring.set (written.length % n) a) (written ++ [a]) where
  length := by rw [List.length_set, h.length]
  recent := by
    intro k b hk hrecent
    rw [List.length_append, List.length_singleton] at hrecent
    have hlt : k < (written ++ [a]).length := (List.getElem?_eq_some_iff.mp hk).1
    rw [List.length_append, List.length_singleton] at hlt
    rcases Nat.lt_succ_iff_lt_or_eq.mp hlt with hold | hnew
    · -- the cell of an earlier write is another one
      rw [List.getElem?_append_left hold] at hk
      have hcell : written.length % n ≠ k % n := by
        intro hsame
        have hdvd := (Nat.modEq_iff_dvd' hold.le).mp hsame.symm
        exact absurd (Nat.le_of_dvd (by omega) hdvd) (by omega)
      rw [List.getElem?_set_ne hcell]
      exact h.recent k b hk (by omega)
    · subst hnew
      rw [List.getElem?_concat_length] at hk
      rw [List.getElem?_set_self (by rw [h.length]; exact Nat.mod_lt _ hn)]
      exact hk
  only := by
    intro b hb
    rcases List.mem_or_eq_of_mem_set hb with hb | rfl
    · exact (h.only b hb).imp_right (List.mem_append_left _)
    · exact Or.inr (by simp)

/-- **What was written lately stands in the ring**. -/
theorem RingHolds.mem_of_recent (h : RingHolds n blank ring written) {before after : List α}
    (hwritten : written = before ++ a :: after) (hafter : after.length < n) : a ∈ ring := by
  have hk : written[before.length]? = some a := by simp [hwritten]
  have hlength : written.length = before.length + (after.length + 1) := by simp [hwritten]
  exact List.mem_of_getElem? (h.recent before.length a hk (by omega))

/-! ## A window that moves forward -/

/-- **The positions noted** by a window of width `w` that starts at `s`, in the order in which they
were: each once, none ahead of the window, and none of them a width or more behind an earlier
one. -/
structure Trails (w s : ℕ) (noted : List ℕ) : Prop where
  nodup : noted.Nodup
  ahead : ∀ x ∈ noted, x < s + w
  close : noted.Pairwise fun x y => x < y + w

variable {w s : ℕ} {noted : List ℕ}

theorem trails_nil (w s : ℕ) : Trails w s [] := ⟨List.nodup_nil, by simp, List.Pairwise.nil⟩

theorem Trails.advance (h : Trails w s noted) {s' : ℕ} (hs : s ≤ s') : Trails w s' noted :=
  { h with ahead := fun x hx => (h.ahead x hx).trans_le (by omega) }

theorem Trails.note (h : Trails w s noted) {y : ℕ} (hlow : s ≤ y) (hhigh : y < s + w)
    (hnew : y ∉ noted) : Trails w s (noted ++ [y]) where
  nodup := List.nodup_append.mpr ⟨h.nodup, List.nodup_singleton y, by
    rintro x hx _ hy rfl
    exact hnew (List.mem_singleton.mp hy ▸ hx)⟩
  ahead := by
    intro x hx
    rcases List.mem_append.mp hx with hx | hx
    · exact h.ahead x hx
    · exact List.mem_singleton.mp hx ▸ hhigh
  close := List.pairwise_append.mpr ⟨h.close, List.pairwise_singleton .., by
    intro x hx z hz
    have := h.ahead x hx
    rw [List.mem_singleton.mp hz]
    omega⟩

/-- **Few come after a position that the window shows**. -/
theorem Trails.length_lt (h : Trails w s noted) {x : ℕ} {before after : List ℕ}
    (hnoted : noted = before ++ x :: after) (hx : s ≤ x) : after.length < 2 * w := by
  subst hnoted
  have hwidth : x < s + w := h.ahead x (by simp)
  have hafter := (List.nodup_cons.mp (List.nodup_append.mp h.nodup).2.1).2
  have hsub : after.toFinset ⊆ Finset.Ico (x + 1 - w) (x + w) := by
    intro y hy
    have hy' : y ∈ after := List.mem_toFinset.mp hy
    have hlow := (List.pairwise_cons.mp (List.pairwise_append.mp h.close).2.1).1 y hy'
    have hhigh := h.ahead y (by simp [hy'])
    exact Finset.mem_Ico.mpr ⟨by omega, by omega⟩
  have hcard := Finset.card_le_card hsub
  rw [List.toFinset_card_of_nodup hafter, Nat.card_Ico] at hcard
  omega

end TradingInfrastructure
