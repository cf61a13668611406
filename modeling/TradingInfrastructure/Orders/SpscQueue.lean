import TradingInfrastructure.Foundations.RingBuffer

/-!
# The fill queue

`SpscQueue` of `core/execution/common/orders/order_manager.hpp`: a ring of `n` cells, where `n` is
a power of two, with the indices kept below `n` by masking. It is a first-in first-out queue that
holds up to `n - 1` items (`push_spec`, `pop_spec`).
-/

namespace TradingInfrastructure

/-- `SpscQueue<T, N>`, where `N` is `2 ^ k`. -/
structure SpscQueue (α : Type*) (k : ℕ) where
  write : Fin (2 ^ k)
  read : Fin (2 ^ k)
  buf : Vector α (2 ^ k)

namespace SpscQueue

variable {α : Type*} {k : ℕ}

/-- An empty queue. -/
def empty [Inhabited α] : SpscQueue α k where
  write := ⟨0, by positivity⟩
  read := ⟨0, by positivity⟩
  buf := Vector.replicate (2 ^ k) default

/-- `(i + 1) & mask_`. -/
def advance (i : Fin (2 ^ k)) : Fin (2 ^ k) :=
  ⟨(i + 1) &&& (2 ^ k - 1), by
    have := Nat.two_pow_pos k
    have := Nat.and_le_right (n := i.val + 1) (m := 2 ^ k - 1)
    omega⟩

/-- `push`: nothing when the queue is full. -/
def push (q : SpscQueue α k) (item : α) : Option (SpscQueue α k) :=
  if advance q.write = q.read then none
  else some { q with buf := q.buf.set q.write item, write := advance q.write }

/-- `pop`: nothing when the queue is empty. -/
def pop (q : SpscQueue α k) : Option (α × SpscQueue α k) :=
  if q.read = q.write then none
  else some (q.buf[q.read], { q with read := advance q.read })

/-! ## The queue as a list -/

theorem advance_eq_next (i : Fin (2 ^ k)) : (advance i : ℕ) = Ring.next (2 ^ k) i :=
  (Ring.next_eq_and k i.isLt).symm

variable [Inhabited α]

/-- The items of the queue, in the order in which they will be popped. -/
def items (q : SpscQueue α k) : List α :=
  Ring.contents (2 ^ k) (fun i => q.buf.getD i default) q.read q.write

@[simp] theorem items_empty : (empty : SpscQueue α k).items = [] :=
  (Ring.contents_eq_nil (Nat.two_pow_pos k)).mpr rfl

theorem length_items_lt (q : SpscQueue α k) : q.items.length < 2 ^ k := by
  rw [items, Ring.length_contents]
  exact Ring.count_lt q.read.isLt q.write.isLt

/-- **A push appends the item**, and is refused exactly when the queue is full. -/
theorem push_spec (q : SpscQueue α k) (item : α) :
    (q.items.length + 1 = 2 ^ k ∧ q.push item = none) ∨
      (q.items.length + 1 < 2 ^ k ∧
        ∃ q', q.push item = some q' ∧ q'.items = q.items ++ [item]) := by
  have hfull : advance q.write = q.read ↔ q.items.length + 1 = 2 ^ k := by
    rw [Fin.ext_iff, advance_eq_next, items, Ring.length_contents,
      Ring.next_eq_read_iff q.read.isLt q.write.isLt]
  by_cases h : advance q.write = q.read
  · exact Or.inl ⟨hfull.mp h, by simp [push, h]⟩
  · right
    have hne := mt hfull.mpr h
    have hlt := q.length_items_lt
    refine ⟨by omega, _, if_neg h, ?_⟩
    have hnext : Ring.next (2 ^ k) q.write ≠ q.read := by
      rw [← advance_eq_next]
      exact fun he => h (Fin.ext he)
    simp only [items, advance_eq_next]
    rw [Ring.contents_write (fun i => q.buf.getD i default) q.read.isLt q.write.isLt hnext]
    · simp [Vector.getD]
    · intro i hi hne
      simp [Vector.getD, hi, Ne.symm hne]

/-- **A pop takes the first item**, and is refused exactly when the queue is empty. -/
theorem pop_spec (q : SpscQueue α k) :
    (q.items = [] ∧ q.pop = none) ∨
      ∃ item q', q.pop = some (item, q') ∧ q.items = item :: q'.items := by
  by_cases h : q.read = q.write
  · left
    refine ⟨(Ring.contents_eq_nil q.read.isLt).mpr (congrArg Fin.val h), ?_⟩
    simp [pop, h]
  · right
    refine ⟨_, _, if_neg h, ?_⟩
    simp only [items, advance_eq_next]
    rw [Ring.contents_read q.read.isLt q.write.isLt fun he => h (Fin.ext he)]
    simp [Vector.getD]

end SpscQueue

end TradingInfrastructure
