import TradingInfrastructure.Foundations.Runs
import TradingInfrastructure.Orders.SpscQueue

/-!
# The fill queue between two threads

`SpscQueue` of `core/execution/common/orders/order_manager.hpp`, with its operations cut into single
loads, stores and accesses of a cell. One thread pushes and another one pops, and their turns come
in any order. Each thread knows the index of the other only as it was when it loaded it, and an
access of a cell takes time: while the cell is written it holds anything.

The queue is a bounded first-in first-out queue all the same (`boundedFifo_run`).
-/

namespace TradingInfrastructure

/-! ## The turns -/

/-- Where the producer stands in `push`. -/
inductive PushStage (α : Type*) (k : ℕ)
  | idle
  | loadedWrite (item : α) (w : Fin (2 ^ k))
  /-- The load of `read_` has shown a free cell. -/
  | hasRoom (item : α) (w : Fin (2 ^ k))
  /-- The cell is being written. -/
  | writing (item : α) (w : Fin (2 ^ k))
  | written (item : α) (w : Fin (2 ^ k))

/-- Where the consumer stands in `pop`. -/
inductive PopStage (α : Type*) (k : ℕ)
  | idle
  | loadedRead (r : Fin (2 ^ k))
  /-- The load of `write_` has shown an item. -/
  | hasItem (r : Fin (2 ^ k))
  /-- The cell is being read. -/
  | reading (r : Fin (2 ^ k))
  | copied (item : α) (r : Fin (2 ^ k))

/-- The queue with its two threads, the items that were pushed and those that were popped. -/
structure SharedQueue (α : Type*) (k : ℕ) where
  queue : SpscQueue α k
  pushing : PushStage α k
  popping : PopStage α k
  pushed : List α
  popped : List α

/-- A turn of a thread. An idle producer takes up the item, and what a cell holds while it is
written is the rest. -/
inductive QueueTurn (α : Type*)
  | producer (item rest : α)
  | consumer

/-- The cell that the producer accesses. -/
def PushStage.cell {α : Type*} {k : ℕ} : PushStage α k → Option (Fin (2 ^ k))
  | .writing _ w => some w
  | .idle | .loadedWrite _ _ | .hasRoom _ _ | .written _ _ => none

/-- The cell that the consumer accesses. -/
def PopStage.cell {α : Type*} {k : ℕ} : PopStage α k → Option (Fin (2 ^ k))
  | .reading r => some r
  | .idle | .loadedRead _ | .hasItem _ | .copied _ _ => none

/-- What the producer knows: its index, then that there is room, and what it has written. -/
def PushStage.Sound {α : Type*} {k : ℕ} (q : SpscQueue α k) : PushStage α k → Prop
  | .idle => True
  | .loadedWrite _ w => w = q.write
  | .hasRoom _ w | .writing _ w => w = q.write ∧ SpscQueue.advance w ≠ q.read
  | .written item w => w = q.write ∧ SpscQueue.advance w ≠ q.read ∧ q.buf[w] = item

/-- What the consumer knows: its index, then that there is an item, and what it has read. -/
def PopStage.Sound {α : Type*} {k : ℕ} (q : SpscQueue α k) : PopStage α k → Prop
  | .idle => True
  | .loadedRead r => r = q.read
  | .hasItem r | .reading r => r = q.read ∧ r ≠ q.write
  | .copied item r => r = q.read ∧ r ≠ q.write ∧ q.buf[r] = item

namespace SharedQueue

open SpscQueue

variable {α : Type*} {k : ℕ}

/-- An empty queue that nobody uses. -/
def start [Inhabited α] : SharedQueue α k := ⟨.empty, .idle, .idle, [], []⟩

/-- The next step of `push`. -/
def pushTurn (s : SharedQueue α k) (item rest : α) : SharedQueue α k :=
  match s.pushing with
  | .idle => { s with pushing := .loadedWrite item s.queue.write }
  | .loadedWrite item w =>
    if advance w = s.queue.read then { s with pushing := .idle }
    else { s with pushing := .hasRoom item w }
  | .hasRoom item w =>
    { s with pushing := .writing item w, queue.buf := s.queue.buf.set w rest }
  | .writing item w =>
    { s with pushing := .written item w, queue.buf := s.queue.buf.set w item }
  | .written item w =>
    { s with pushing := .idle, queue.write := advance w, pushed := s.pushed ++ [item] }

/-- The next step of `pop`. -/
def popTurn (s : SharedQueue α k) : SharedQueue α k :=
  match s.popping with
  | .idle => { s with popping := .loadedRead s.queue.read }
  | .loadedRead r =>
    if r = s.queue.write then { s with popping := .idle } else { s with popping := .hasItem r }
  | .hasItem r => { s with popping := .reading r }
  | .reading r => { s with popping := .copied s.queue.buf[r] r }
  | .copied item r =>
    { s with popping := .idle, queue.read := advance r, popped := s.popped ++ [item] }

/-- A turn of either thread. -/
def turn (s : SharedQueue α k) : QueueTurn α → SharedQueue α k
  | .producer item rest => s.pushTurn item rest
  | .consumer => s.popTurn

/-- The producer is about to load `read_`, and `push` will return false. -/
def PushFails (s : SharedQueue α k) : Prop :=
  ∃ item w, s.pushing = .loadedWrite item w ∧ advance w = s.queue.read

/-- The consumer is about to load `write_`, and `pop` will return false. -/
def PopFails (s : SharedQueue α k) : Prop :=
  ∃ r, s.popping = .loadedRead r ∧ r = s.queue.write

/-- A bounded first-in first-out queue. -/
structure BoundedFifo (s : SharedQueue α k) : Prop where
  fifo : s.popped <+: s.pushed
  bounded : s.pushed.length < s.popped.length + 2 ^ k
  full : s.PushFails → s.pushed.length = s.popped.length + (2 ^ k - 1)
  empty : s.PopFails → s.pushed.length = s.popped.length
  exclusive : ∀ cell ∈ s.pushing.cell, cell ∉ s.popping.cell

/-! ## Turns that nothing comes between -/

/-- The turns of the producer are `push`. -/
theorem pushTurns_eq_push (q : SpscQueue α k) (stage : PopStage α k) (pushed popped : List α)
    (item rest : α) : ∃ n, (List.replicate n (QueueTurn.producer item rest)).foldl turn
      ⟨q, .idle, stage, pushed, popped⟩ =
        ⟨(q.push item).getD q, .idle, stage,
          pushed ++ ((q.push item).map fun _ => item).toList, popped⟩ := by
  unfold SpscQueue.push
  by_cases hfull : advance q.write = q.read
  · exact ⟨2, by simp [List.replicate, turn, pushTurn, hfull]⟩
  · exact ⟨5, by simp [List.replicate, turn, pushTurn, hfull]⟩

/-- The turns of the consumer are `pop`. -/
theorem popTurns_eq_pop (q : SpscQueue α k) (stage : PushStage α k) (pushed popped : List α) :
    ∃ n, (List.replicate n QueueTurn.consumer).foldl turn ⟨q, stage, .idle, pushed, popped⟩ =
      ⟨(q.pop.map Prod.snd).getD q, stage, .idle, pushed,
        popped ++ (q.pop.map Prod.fst).toList⟩ := by
  unfold SpscQueue.pop
  by_cases hempty : q.read = q.write
  · exact ⟨2, by simp [List.replicate, turn, popTurn, hempty]⟩
  · exact ⟨5, by simp [List.replicate, turn, popTurn, hempty]⟩

/-! ## The queue between the turns -/

theorem advance_injective {i j : Fin (2 ^ k)} (h : advance i = advance j) : i = j := by
  have hi := i.isLt
  have hj := j.isLt
  rw [Fin.ext_iff, advance_eq_next, advance_eq_next] at h
  unfold Ring.next at h
  apply Fin.ext
  split_ifs at h <;> omega

section Items

variable [Inhabited α]

/-- A write at the write index changes no item. -/
theorem items_set_write (q : SpscQueue α k) (item : α) :
    { q with buf := q.buf.set q.write item q.write.isLt }.items = q.items := by
  refine Ring.contents_congr q.read.isLt q.write.isLt fun i hi hne => ?_
  simp [Vector.getD, hi, Ne.symm hne]

/-- The store of the write index appends what its cell holds. -/
theorem items_store_write {q : SpscQueue α k} (h : advance q.write ≠ q.read) :
    { q with write := advance q.write }.items =
      q.items ++ [getElem q.buf q.write q.write.isLt] := by
  have hnext : Ring.next (2 ^ k) q.write ≠ q.read := by
    rw [← advance_eq_next]
    exact fun he => h (Fin.ext he)
  simp only [items, advance_eq_next]
  rw [Ring.contents_write (fun i => q.buf.getD i default) q.read.isLt q.write.isLt hnext
    fun _ _ _ => rfl]
  simp [Vector.getD]

/-- The store of the read index drops what its cell holds. -/
theorem items_store_read {q : SpscQueue α k} (h : q.read ≠ q.write) :
    q.items = getElem q.buf q.read q.read.isLt :: { q with read := advance q.read }.items := by
  simp only [items, advance_eq_next]
  rw [Ring.contents_read q.read.isLt q.write.isLt fun he => h (Fin.ext he)]
  simp [Vector.getD]

end Items

variable {q : SpscQueue α k} {s : SharedQueue α k}

/-- What the consumer knows stays true while the producer writes its cell. -/
theorem popping_set_write {stage : PopStage α k} (h : stage.Sound q) (item : α) :
    stage.Sound { q with buf := q.buf.set q.write item q.write.isLt } := by
  cases stage with
  | copied item' r =>
    obtain ⟨hr, hne, hcell⟩ := h
    refine ⟨hr, hne, ?_⟩
    simpa [Fin.val_ne_of_ne hne.symm] using hcell
  | _ => exact h

/-- What the consumer knows stays true when the producer stores its index. -/
theorem popping_store_write {stage : PopStage α k} (h : stage.Sound q)
    (hroom : advance q.write ≠ q.read) : stage.Sound { q with write := advance q.write } := by
  cases stage with
  | idle => trivial
  | loadedRead r => exact h
  | hasItem r | reading r => exact ⟨h.1, h.1 ▸ hroom.symm⟩
  | copied item r => exact ⟨h.1, h.1 ▸ hroom.symm, h.2.2⟩

/-- What the producer knows stays true when the consumer stores its index. -/
theorem pushing_store_read {stage : PushStage α k} (h : stage.Sound q)
    (hitem : q.read ≠ q.write) : stage.Sound { q with read := advance q.read } := by
  have hroom : ∀ {w}, w = q.write → advance w ≠ advance q.read := fun hw he =>
    hitem ((advance_injective he).symm.trans hw)
  cases stage with
  | idle => trivial
  | loadedWrite item w => exact h
  | hasRoom item w | writing item w => exact ⟨h.1, hroom h.1⟩
  | written item w => exact ⟨h.1, hroom h.1, h.2.2⟩

/-- **The invariant**: both threads know what they need to, and the items of the queue are those
that were pushed and not popped. -/
structure Sound [Inhabited α] (s : SharedQueue α k) : Prop where
  pushing : s.pushing.Sound s.queue
  popping : s.popping.Sound s.queue
  items : s.pushed = s.popped ++ s.queue.items

variable [Inhabited α]

theorem sound_start : (start : SharedQueue α k).Sound := ⟨trivial, trivial, by simp [start]⟩

theorem Sound.pushTurn (h : s.Sound) (item rest : α) : (s.pushTurn item rest).Sound := by
  obtain ⟨hpushing, hpopping, hitems⟩ := h
  unfold SharedQueue.pushTurn
  split
  · exact ⟨rfl, hpopping, hitems⟩
  · next w hstage =>
    rw [hstage] at hpushing
    split_ifs with hfull
    · exact ⟨trivial, hpopping, hitems⟩
    · exact ⟨⟨hpushing, hfull⟩, hpopping, hitems⟩
  · next w hstage =>
    rw [hstage] at hpushing
    obtain ⟨rfl, hroom⟩ := hpushing
    exact ⟨⟨rfl, hroom⟩, popping_set_write hpopping rest,
      hitems.trans (by rw [items_set_write])⟩
  · next item w hstage =>
    rw [hstage] at hpushing
    obtain ⟨rfl, hroom⟩ := hpushing
    exact ⟨⟨rfl, hroom, by simp⟩, popping_set_write hpopping item,
      hitems.trans (by rw [items_set_write])⟩
  · next item w hstage =>
    rw [hstage] at hpushing
    obtain ⟨rfl, hroom, rfl⟩ := hpushing
    refine ⟨trivial, popping_store_write hpopping hroom, ?_⟩
    rw [items_store_write hroom, hitems, List.append_assoc]

theorem Sound.popTurn (h : s.Sound) : s.popTurn.Sound := by
  obtain ⟨hpushing, hpopping, hitems⟩ := h
  unfold SharedQueue.popTurn
  split
  · exact ⟨hpushing, rfl, hitems⟩
  · next r hstage =>
    rw [hstage] at hpopping
    split_ifs with hempty
    · exact ⟨hpushing, trivial, hitems⟩
    · exact ⟨hpushing, ⟨hpopping, hempty⟩, hitems⟩
  · next r hstage =>
    rw [hstage] at hpopping
    exact ⟨hpushing, hpopping, hitems⟩
  · next r hstage =>
    rw [hstage] at hpopping
    exact ⟨hpushing, ⟨hpopping.1, hpopping.2, rfl⟩, hitems⟩
  · next item r hstage =>
    rw [hstage] at hpopping
    obtain ⟨rfl, hitem, rfl⟩ := hpopping
    refine ⟨pushing_store_read hpushing hitem, trivial, ?_⟩
    rw [hitems, items_store_read hitem, List.append_assoc, List.singleton_append]

theorem sound_run (turns : List (QueueTurn α)) :
    (turns.foldl turn (start : SharedQueue α k)).Sound := by
  refine foldl_induction (fun s t hs (_ : True) => ?_) sound_start
    fun _ _ => trivial
  cases t with
  | producer item rest => exact hs.pushTurn item rest
  | consumer => exact hs.popTurn

/-! ## What the invariant says -/

theorem Sound.boundedFifo (h : s.Sound) : s.BoundedFifo := by
  have hlength : s.pushed.length = s.popped.length + s.queue.items.length := by
    rw [h.items, List.length_append]
  refine ⟨⟨_, h.items.symm⟩, ?_, ?_, ?_, ?_⟩
  · have := s.queue.length_items_lt
    omega
  · rintro ⟨item, w, hstage, hnext⟩
    have hw := h.pushing
    rw [hstage] at hw
    obtain rfl := hw
    have hfull : s.queue.items.length + 1 = 2 ^ k := by
      rw [SpscQueue.items, Ring.length_contents,
        ← Ring.next_eq_read_iff s.queue.read.isLt s.queue.write.isLt, ← advance_eq_next, hnext]
    omega
  · rintro ⟨r, hstage, hr⟩
    have hread := h.popping
    rw [hstage] at hread
    have hempty : s.queue.items = [] :=
      (Ring.contents_eq_nil s.queue.read.isLt).mpr (congrArg Fin.val (hread.symm.trans hr))
    rw [hlength, hempty, List.length_nil, add_zero]
  · intro cell hpush hpop
    have hpushing := h.pushing
    have hpopping := h.popping
    cases hstage : s.pushing with
    | writing item w =>
      cases hstage' : s.popping with
      | reading r =>
        rw [hstage] at hpush hpushing
        rw [hstage'] at hpop hpopping
        obtain rfl : w = cell := Option.some.inj hpush
        obtain rfl : r = w := Option.some.inj hpop
        exact hpopping.2 hpushing.1
      | _ => rw [hstage'] at hpop; cases hpop
    | _ => rw [hstage] at hpush; cases hpush

/-- **The queue is a bounded first-in first-out queue** after any turns of the two threads: what is
popped is what was pushed first, a push fails only when all cells but one hold an item, and a pop
only when none does, and no cell is written and read at the same time. -/
theorem boundedFifo_run (turns : List (QueueTurn α)) :
    (turns.foldl turn (start : SharedQueue α k)).BoundedFifo := (sound_run turns).boundedFifo

end SharedQueue

end TradingInfrastructure
