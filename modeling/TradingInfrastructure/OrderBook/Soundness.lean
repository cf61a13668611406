import TradingInfrastructure.OrderBook.Steps
import TradingInfrastructure.Foundations.Runs

/-!
# The book shows no ghost levels

A `Tracked` book carries the history of what its feed wrote on each side: the levels of the
snapshot, and each delta that was not stale. Every level the book shows is the last one written
at its price, along every run (`Tracked.Faithful.run`).
-/

namespace TradingInfrastructure

/-! ## Runs -/

/-- A book with the history of what its feed wrote on each side. -/
structure Tracked where
  book : OrderBook
  written : Side → List (ℚ × (ℚ × ℕ))

namespace Tracked

/-- The last size and order count written at each price of a side. -/
def last (t : Tracked) (side : Side) : ℚ → Option (ℚ × ℕ) := lastWrite (t.written side)

/-- A book after its first snapshot. -/
def ofSnapshot (bytesOf : ℚ → List UInt8) (b : OrderBook) (s : Snapshot) : Tracked where
  book := (b.applySnapshot bytesOf s).2
  written side := (s.levels side).map PriceLevel.entry

/-- A delta is written on its side unless it is stale. -/
def delta (t : Tracked) (d : Delta) : Tracked where
  book := (t.book.applyDelta d).2
  written side :=
    if t.book.stale d = false ∧ d.side = side then t.written side ++ [d.entry] else t.written side

/-- The book after a sequence of deltas. -/
def run (t : Tracked) (ds : List Delta) : Tracked := ds.foldl delta t

theorem last_delta_of_stale {t : Tracked} {d : Delta} (h : t.book.stale d = true) :
    (t.delta d).last = t.last := by
  funext side
  simp [last, delta, h]

theorem last_delta_self {t : Tracked} {d : Delta} (h : t.book.stale d = false) :
    (t.delta d).last d.side =
      Function.update (t.last d.side) d.price (some (d.size, d.orderCount)) := by
  simp [last, delta, h, Delta.entry, lastWrite_append_singleton]

theorem last_delta_of_ne {t : Tracked} {d : Delta} {side : Side} (h : side ≠ d.side) :
    (t.delta d).last side = t.last side := by
  simp [last, delta, Ne.symm h]

/-- Every level the book shows is the last one written at its price, which is positive. -/
structure Faithful (tick : ℚ) (t : Tracked) : Prop where
  gridded : t.book.Gridded
  tick_eq : t.book.tickSize = tick
  sound : ∀ side, PartialView.Sound OrderBook.HasSize (t.book.shown side) (t.last side)
  price_pos : ∀ side, ∀ w ∈ t.written side, 0 < w.1

variable {tick : ℚ} {b : OrderBook} {s : Snapshot} {bytesOf : ℚ → List UInt8}

theorem faithful_ofSnapshot (hb : b.Allocated) (hs : s.Regular b.tickSize)
    (h : (b.applySnapshot bytesOf s).1 = .success) :
    (ofSnapshot bytesOf b s).Faithful b.tickSize := by
  obtain ⟨hg, hw, hm⟩ := hb.applySnapshot hs h
  refine ⟨hg, hw.tickSize, fun side p v hv hsize => ?_, fun side w hmem => ?_⟩
  · exact ((hg.shown_of_mirrors (hm side) hsize).mp hv).1
  · obtain ⟨level, hl, rfl⟩ := List.mem_map.mp hmem
    exact (hs side level hl).1

/-- **A delta keeps the view faithful.** -/
theorem Faithful.delta {t : Tracked} (h : t.Faithful tick) {d : Delta} (hd : d.Regular tick) :
    (t.delta d).Faithful tick := by
  obtain ⟨hg, rfl, hsound, hpos⟩ := h
  obtain ⟨hg', htick'⟩ := hg.applyDelta hd
  refine ⟨hg', htick', fun side => ?_, fun side w hmem => ?_⟩
  · have hbook : (t.delta d).book = (t.book.applyDelta d).2 := rfl
    rcases hg.applyDelta_cases hd with ⟨hst, he⟩ | ⟨hst, i, hi, hp, he⟩ | ⟨hst, hidx, -, he⟩ |
        ⟨hst, hidx, -, he⟩ <;> rw [hbook, he]
    · rw [last_delta_of_stale hst]
      exact hsound side
    · by_cases hs : side = d.side
      · subst hs
        rw [hg.shown_storeDelta d hi hp, last_delta_self hst]
        exact (hsound d.side).write _ _
      · rw [OrderBook.shown_storeDelta_of_ne _ _ _ hs, last_delta_of_ne hs]
        exact hsound side
    · rw [OrderBook.shown_skipDelta]
      by_cases hs : side = d.side
      · subst hs
        rw [last_delta_self hst]
        exact (hsound d.side).skip (OrderBook.shown_of_priceToIndex_none hidx _) _
      · rw [last_delta_of_ne hs]
        exact hsound side
    · have hmoved : PartialView.Sound OrderBook.HasSize
          ((t.book.recenterGrid d.price).shown side) (t.last side) :=
        (hsound side).mono fun p v hv hsize =>
          ((hg.shown_recenterGrid hd.onTick hsize).mp hv).1
      by_cases hs : side = d.side
      · subst hs
        rw [hg.shown_moveAndStore hd, last_delta_self hst]
        exact hmoved.write _ _
      · rw [OrderBook.shown_moveAndStore_of_ne _ hs, last_delta_of_ne hs]
        exact hmoved
  · simp only [Tracked.delta] at hmem
    split at hmem
    · rcases List.mem_append.mp hmem with hmem | hmem
      · exact hpos side w hmem
      · rw [List.mem_singleton.mp hmem]
        exact hd.price_pos
    · exact hpos side w hmem

theorem Faithful.run {ds : List Delta} (hds : ∀ d ∈ ds, d.Regular tick) {t : Tracked}
    (h : t.Faithful tick) : (t.run ds).Faithful tick :=
  foldl_induction (fun _ _ h hd => h.delta hd) h hds

/-- Every level returned by `get_top_levels` is the last one written at its price, and the levels
are in order of price. -/
theorem Faithful.topLevels {t : Tracked} (h : t.Faithful tick) (side : Side) (n : ℕ) :
    (∀ level ∈ t.book.topLevels side n,
      t.last side level.price = some (level.size, level.orderCount)) ∧
    (t.book.topLevels side n).Pairwise fun l l' => side.Ahead l.price l'.price := by
  refine ⟨fun level hl => ?_, h.gridded.topLevels_pairwise side n⟩
  obtain ⟨hshown, hsize⟩ := h.gridded.shown_of_mem_topLevels hl
  exact h.sound side _ _ hshown hsize

end Tracked

namespace OrderBook

/-- **The book shows no ghost levels.** After a successful snapshot and any deltas, every level
of `get_top_levels` has the size and the order count last written at its price, the bids are
strictly descending and the asks strictly ascending. -/
theorem getTopLevels_sound {tick : ℚ} (htick : 0 < tick) {maxLevels : ℕ} (hmax : 2 ≤ maxLevels)
    (bytesOf : ℚ → List UInt8) {s : Snapshot} (hs : s.Regular tick)
    (hok : ((new tick maxLevels).applySnapshot bytesOf s).1 = .success) {ds : List Delta}
    (hds : ∀ d ∈ ds, d.Regular tick) (n : ℕ) :
    let t := (Tracked.ofSnapshot bytesOf (new tick maxLevels) s).run ds
    (∀ level ∈ (t.book.getTopLevels n).1,
        t.last .bid level.price = some (level.size, level.orderCount)) ∧
      (∀ level ∈ (t.book.getTopLevels n).2,
        t.last .ask level.price = some (level.size, level.orderCount)) ∧
      (t.book.getTopLevels n).1.Pairwise (fun l l' => l'.price < l.price) ∧
      (t.book.getTopLevels n).2.Pairwise (fun l l' => l.price < l'.price) := by
  intro t
  have ht : t.Faithful tick :=
    (Tracked.faithful_ofSnapshot (allocated_new htick hmax) hs hok).run hds
  obtain ⟨hbids, hdesc⟩ := ht.topLevels .bid n
  obtain ⟨hasks, hasc⟩ := ht.topLevels .ask n
  exact ⟨hbids, hasks, hdesc, hasc⟩

/-- A bid at 100 and an ask at 101. -/
def touchSnapshot : Snapshot where
  sequence := 10
  bids := [⟨100, 1, 1⟩]
  asks := [⟨101, 2, 1⟩]

theorem regular_touchSnapshot : touchSnapshot.Regular 1 := by
  intro side level hl
  cases side <;> obtain rfl := List.mem_singleton.mp hl
  · exact ⟨by norm_num, ⟨100, by norm_num⟩, by norm_num⟩
  · exact ⟨by norm_num, ⟨101, by norm_num⟩, by norm_num⟩

theorem touchSnapshot_success :
    ((new 1 4).applySnapshot (fun _ => []) touchSnapshot).1 = .success := by
  decide +kernel

/-- A book of four levels around 100, with its bid at 100 and its ask at 101. -/
def atTouchBook : OrderBook := ((new 1 4).applySnapshot (fun _ => []) touchSnapshot).2

/-- A bid far above the grid, which moves it. -/
def farDelta : Delta where
  price := 107
  size := 3
  orderCount := 2
  sequence := 11

/-- The grid has moved to the far bid, which is the only level returned. -/
theorem getTopLevels_sound_farDelta :
    let t := (Tracked.ofSnapshot (fun _ => []) (new 1 4) touchSnapshot).run [farDelta]
    t.book.getTopLevels 5 = ([⟨107, 3, 2⟩], []) ∧ t.last .bid 107 = some (3, 2) := by
  have hfar : farDelta.Regular 1 := ⟨by norm_num [farDelta], ⟨107, by norm_num [farDelta]⟩,
    by norm_num [farDelta]⟩
  have hshown : ((Tracked.ofSnapshot (fun _ => []) (new 1 4) touchSnapshot).run
      [farDelta]).book.getTopLevels 5 = ([⟨107, 3, 2⟩], []) := by
    decide +kernel
  obtain ⟨hbids, -⟩ := getTopLevels_sound one_pos (by norm_num : 2 ≤ 4) (fun _ => [])
    regular_touchSnapshot touchSnapshot_success
    (by simpa using hfar : ∀ d ∈ [farDelta], d.Regular 1) 5
  rw [hshown] at hbids
  exact ⟨hshown, hbids ⟨107, 3, 2⟩ (by simp)⟩

end OrderBook

end TradingInfrastructure
