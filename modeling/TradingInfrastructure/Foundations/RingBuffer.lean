import Mathlib.Tactic

/-!
# Ring buffers

A ring of `n` cells with a read and a write index holds the cells from the read index up to the
write index, in order (`contents`). A write at the write index appends to them, a read at the read
index takes the first. One cell always stays free, so that a full ring differs from an empty one.
-/

namespace TradingInfrastructure

namespace Ring

variable {α : Type*}

/-- The index after `i` in a ring of `n` cells. -/
def next (n i : ℕ) : ℕ := if i + 1 < n then i + 1 else 0

/-- The index `i` places after `r`. -/
def slot (n r i : ℕ) : ℕ := if r + i < n then r + i else r + i - n

/-- How many cells lie from the read index `r` up to the write index `w`. -/
def count (n r w : ℕ) : ℕ := if r ≤ w then w - r else w + n - r

/-- The cells from `r` up to `w`. -/
def contents (n : ℕ) (cell : ℕ → α) (r w : ℕ) : List α :=
  (List.range (count n r w)).map fun i => cell (slot n r i)

variable {n r w : ℕ} {cell : ℕ → α}

@[simp] theorem length_contents : (contents n cell r w).length = count n r w := by
  simp [contents]

theorem next_lt (h : 0 < n) (i : ℕ) : next n i < n := by
  unfold next
  split <;> omega

/-- The indices of a ring whose size is a power of two wrap by masking. -/
theorem next_eq_and (k : ℕ) {i : ℕ} (h : i < 2 ^ k) : next (2 ^ k) i = (i + 1) &&& (2 ^ k - 1) := by
  rw [Nat.and_two_pow_sub_one_eq_mod, next]
  split
  · next hlt => rw [Nat.mod_eq_of_lt hlt]
  · next hge =>
    have : i + 1 = 2 ^ k := by omega
    rw [this, Nat.mod_self]

theorem count_lt (hr : r < n) (hw : w < n) : count n r w < n := by
  unfold count
  split <;> omega

theorem contents_eq_nil (hr : r < n) : contents n cell r w = [] ↔ r = w := by
  rw [← List.length_eq_zero_iff, length_contents]
  unfold count
  split <;> omega

/-- The ring is full when the write index comes just before the read index. -/
theorem next_eq_read_iff (hr : r < n) (hw : w < n) : next n w = r ↔ count n r w + 1 = n := by
  unfold next count
  split <;> split <;> omega

/-- The cell at the write index does not belong to the contents. -/
theorem slot_ne_write {i : ℕ} (hr : r < n) (hw : w < n) (hi : i < count n r w) :
    slot n r i < n ∧ slot n r i ≠ w := by
  have := count_lt hr hw
  unfold slot
  unfold count at *
  split_ifs at * <;> omega

/-- What changes at the write index does not change the contents. -/
theorem contents_congr (hr : r < n) (hw : w < n) {cell' : ℕ → α}
    (hcell : ∀ i < n, i ≠ w → cell' i = cell i) : contents n cell' r w = contents n cell r w := by
  refine List.map_congr_left fun i hi => ?_
  obtain ⟨hlt, hne⟩ := slot_ne_write hr hw (List.mem_range.mp hi)
  exact hcell _ hlt hne

/-- **A write at the write index appends to the contents.** -/
theorem contents_write (cell : ℕ → α) (hr : r < n) (hw : w < n) (hroom : next n w ≠ r)
    {cell' : ℕ → α}
    (hcell : ∀ i < n, i ≠ w → cell' i = cell i) :
    contents n cell' r (next n w) = contents n cell r w ++ [cell' w] := by
  have hcount : count n r (next n w) = count n r w + 1 := by
    unfold next count at *
    split_ifs at * <;> omega
  have hlast : slot n r (count n r w) = w := by
    unfold slot count
    split <;> split <;> omega
  rw [contents, hcount, List.range_succ, List.map_append, List.map_singleton, hlast,
    ← contents_congr hr hw hcell]
  rfl

/-- **A read at the read index takes the first of the contents.** -/
theorem contents_read (hr : r < n) (hw : w < n) (h : r ≠ w) :
    contents n cell r w = cell r :: contents n cell (next n r) w := by
  have hcount : count n r w = count n (next n r) w + 1 := by
    unfold next count
    split <;> split <;> split <;> omega
  have hfirst : slot n r 0 = r := by
    unfold slot
    split <;> omega
  rw [contents, hcount, List.range_succ_eq_map, List.map_cons, List.map_map, hfirst, contents]
  congr 1
  refine List.map_congr_left fun i hi => congrArg cell ?_
  have := List.mem_range.mp hi
  have := count_lt (next_lt (by omega) r) hw
  simp only [slot, next]
  split <;> split <;> split <;> omega

end Ring

end TradingInfrastructure
