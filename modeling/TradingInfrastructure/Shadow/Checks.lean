import TradingInfrastructure.Shadow.LedgerAgreement
import TradingInfrastructure.Shadow.OrderLife

/-!
# What a check leaves

What `check_fills` does to the position and to the orders, from what the book offers. Each order
trades what is matched of it (`tradeAt`), and the trades go to the position one after the other
(`netPosition_checkFills`). An order ends when all but the tolerance of it is matched, or when it is
cancelled or rejected (`EndsAt`), so nothing is active after the check exactly when every order
ends (`idle_checkFills_iff`).
-/

namespace TradingInfrastructure

instance (x q : ℚ) : Decidable (LeavesDust x q) := inferInstanceAs (Decidable (_ ∧ _ ∧ _))

namespace ShadowAccounts

/-- The position after a trade of a signed quantity. Dust is dropped. -/
def settle (x q : ℚ) : ℚ := if LeavesDust x q then 0 else x + q

@[simp] theorem settle_zero (x : ℚ) : settle x 0 = x := by
  simp [settle, LeavesDust]

/-- The position after a fill. -/
theorem netPosition_applyPositionFill (a : ShadowAccounts) (side : Side) {qty : ℚ} (hq : 0 < qty)
    (price : ℚ) (now : ℤ) : (a.applyPositionFill side qty price now).netPosition =
      settle a.netPosition (side.signed qty) := by
  unfold settle
  split_ifs with hdust
  · exact a.netPosition_applyPositionFill_of_dust side price now hdust
  · have hposition := congrArg CostBasis.position
      (a.basis_applyPositionFill side price now hq hdust)
    rwa [CostBasis.fill_position] at hposition

end ShadowAccounts

namespace ShadowOrder

variable {cfg : ShadowConfig} {book : OrderBook} {now : ℤ} {s : ShadowOrder} {a : ShadowAccounts}

/-- What taking a quantity of an order to the best price adds to the position. -/
def tradeOf (book : OrderBook) (s : ShadowOrder) (qty : ℚ) : ℚ :=
  if 0 < qty ∧ 0 < oppositeBest book s.side then s.side.signed qty else 0

/-- What a check adds to the position. -/
def tradeAt (cfg : ShadowConfig) (book : OrderBook) (now : ℤ) (s : ShadowOrder) : ℚ :=
  s.tradeOf book (s.matchedQty cfg book now)

/-- A check ends the order, or finds it ended: it is released, and a rest of it is taken, or there
is none, or it need not wait for one. -/
def EndsAt (cfg : ShadowConfig) (book : OrderBook) (now : ℤ) (s : ShadowOrder) : Prop :=
  s.active = true → s.releaseTsNs ≤ now ∧
    if s.type = .market then 0 < s.quantity - s.filledQty
    else if s.isImmediatelyFillable book = true then
      s.quantity - s.filledQty ≤ 0 ∨ 0 < s.matchableQty cfg book ∧
        s.quantity - s.filledQty - fillTolerance ≤ s.matchableQty cfg book
    else s.tif = .ioc

instance (cfg : ShadowConfig) (book : OrderBook) (now : ℤ) (s : ShadowOrder) :
    Decidable (s.EndsAt cfg book now) := by
  unfold EndsAt
  infer_instance

theorem netPosition_fillAtBest (qty : ℚ) : (s.fillAtBest cfg book now a qty).1.netPosition =
    ShadowAccounts.settle a.netPosition (s.tradeOf book qty) := by
  unfold tradeOf
  split_ifs with h
  · rw [fillAtBest_of_pos h.1 h.2]
    exact ShadowAccounts.netPosition_applyPositionFill _ _ h.1 _ _
  · rw [ShadowAccounts.settle_zero]
    rcases fillAtBest_of_not cfg now a h with ⟨-, heq⟩ | ⟨-, heq⟩ <;> rw [heq]; rfl

/-- Nothing is traded of a quantity that is not positive. -/
theorem tradeOf_of_nonpos {qty : ℚ} (h : qty ≤ 0) : s.tradeOf book qty = 0 :=
  if_neg fun hpos => absurd h (not_le.mpr hpos.1)

/-- **The position after a visit of `check_fills`.** -/
theorem netPosition_checkFill : (s.checkFill cfg book now a).1.netPosition =
    ShadowAccounts.settle a.netPosition (s.tradeAt cfg book now) := by
  unfold tradeAt matchedQty
  by_cases hreleased : s.active = true ∧ s.releaseTsNs ≤ now
  · rw [if_pos hreleased, checkFill_released hreleased.1 hreleased.2]
    by_cases htype : s.type = .market
    · rw [if_pos htype, if_pos htype]
      exact netPosition_fillAtBest _
    · rw [if_neg htype, if_neg htype]
      by_cases hfillable : s.isImmediatelyFillable book = true
      · rw [if_pos hfillable, if_pos hfillable]
        rcases fillPassiveOrCross_cases cfg now a (oppositeBest_pos htype hfillable) with
          ⟨hrem, heq⟩ | ⟨-, queueAhead, ⟨hnone, heq⟩ | ⟨-, heq⟩⟩
        · rw [heq, tradeOf_of_nonpos (min_le_of_left_le hrem), ShadowAccounts.settle_zero]
        · rw [heq, tradeOf_of_nonpos (min_le_of_right_le hnone), ShadowAccounts.settle_zero]
        · rw [heq]
          exact netPosition_fillAtBest _
      · rw [if_neg hfillable, if_neg hfillable, tradeOf_of_nonpos le_rfl,
          ShadowAccounts.settle_zero]
        split_ifs <;> rfl
  · rw [if_neg hreleased, checkFill_waiting hreleased, tradeOf_of_nonpos le_rfl,
      ShadowAccounts.settle_zero]

theorem filledBy_inactive_iff {px qty : ℚ} (hactive : s.active = true) :
    (s.filledBy px qty).active = false ↔ s.quantity - fillTolerance ≤ s.filledQty + qty := by
  simp [filledBy, hactive]

/-- `fill_at_best` of all that remains ends the order. -/
theorem fillAtBest_ends (hactive : s.active = true) (hremains : 0 < s.quantity - s.filledQty) :
    (s.fillAtBest cfg book now a (s.quantity - s.filledQty)).2.active = false := by
  by_cases hbest : 0 < oppositeBest book s.side
  · rw [fillAtBest_of_pos hremains hbest]
    refine (filledBy_inactive_iff hactive).mpr ?_
    have htolerance := fillTolerance_pos
    linarith
  · rcases fillAtBest_of_not cfg now a fun h => hbest h.2 with ⟨hle, -⟩ | ⟨-, heq⟩
    · exact absurd hremains (not_lt.mpr hle)
    · rw [heq]
      rfl

/-- When `fill_passive_or_cross` ends an order, where the other side has a price. -/
theorem inactive_fillPassiveOrCross_iff (hactive : s.active = true)
    (hbest : 0 < oppositeBest book s.side) :
    (s.fillPassiveOrCross cfg book now a).2.active = false ↔
      s.quantity - s.filledQty ≤ 0 ∨ 0 < s.matchableQty cfg book ∧
        s.quantity - s.filledQty - fillTolerance ≤ s.matchableQty cfg book := by
  have htolerance := fillTolerance_pos
  rcases fillPassiveOrCross_cases cfg now a hbest with
    ⟨hrem, heq⟩ | ⟨hrem, queueAhead, ⟨hnone, heq⟩ | ⟨hsome, heq⟩⟩
  · rw [heq]
    exact iff_of_true rfl (Or.inl hrem)
  · rw [heq, or_iff_right (not_le.mpr hrem)]
    exact iff_of_false (fun h => Bool.noConfusion (hactive.symm.trans h)) fun h =>
      absurd h.1 (not_lt.mpr hnone)
  · have hqueue : 0 < oppositeBest book (s.withQueue queueAhead).side := hbest
    have hlive : (s.withQueue queueAhead).active = true := hactive
    rw [heq, fillAtBest_of_pos (lt_min hrem hsome) hqueue, filledBy_inactive_iff hlive,
      or_iff_right (not_le.mpr hrem), and_iff_right hsome]
    change s.quantity - fillTolerance ≤ s.filledQty + _ ↔ _
    rw [add_comm, ← sub_le_iff_le_add, le_min_iff]
    constructor
    · intro h
      linarith [h.2]
    · intro h
      constructor <;> linarith

/-- **When a visit of `check_fills` leaves no active order.** -/
theorem inactive_checkFill_iff :
    (s.checkFill cfg book now a).2.active = false ↔ s.EndsAt cfg book now := by
  by_cases hactive : s.active = true
  · rw [EndsAt, imp_iff_right hactive]
    by_cases hreleased : s.releaseTsNs ≤ now
    · rw [and_iff_right hreleased, checkFill_released hactive hreleased]
      by_cases htype : s.type = .market
      · rw [if_pos htype, if_pos htype]
        by_cases hrem : 0 < s.quantity - s.filledQty
        · exact iff_of_true (fillAtBest_ends hactive hrem) hrem
        · rw [fillAtBest, if_pos (not_lt.mp hrem)]
          exact iff_of_false (by simp [hactive]) hrem
      · rw [if_neg htype, if_neg htype]
        by_cases hfillable : s.isImmediatelyFillable book = true
        · rw [if_pos hfillable, if_pos hfillable]
          exact inactive_fillPassiveOrCross_iff hactive (oppositeBest_pos htype hfillable)
        · rw [if_neg hfillable, if_neg hfillable]
          by_cases hioc : s.tif = .ioc
          · rw [if_pos hioc]
            exact iff_of_true rfl hioc
          · rw [if_neg hioc]
            exact iff_of_false (by simp [hactive]) hioc
    · rw [checkFill_waiting fun h => hreleased h.2]
      exact iff_of_false (by simp [hactive]) fun h => hreleased h.1
  · rw [checkFill_waiting fun h => hactive h.1]
    exact iff_of_true (Bool.eq_false_iff.mpr hactive) fun h => absurd h hactive

end ShadowOrder

/-! ## All orders of a connector -/

namespace ShadowConnector

/-- The trades of a check, in the order of the slots. -/
def tradesAt (c : ShadowConnector) (book : OrderBook) (now : ℤ) : List ℚ :=
  c.orders.map fun s => s.tradeAt c.cfg book now

/-- No order is active. -/
def Idle (c : ShadowConnector) : Prop := ∀ s ∈ c.orders, s.active = false

/-- Every order ends at a check. -/
def AllEnd (c : ShadowConnector) (book : OrderBook) (now : ℤ) : Prop :=
  ∀ s ∈ c.orders, s.EndsAt c.cfg book now

/-- The slot that `submit_order` finds. -/
def freeSlot (c : ShadowConnector) : Option ℕ := c.orders.findIdx? fun s => !s.active

variable {c : ShadowConnector} {book : OrderBook} {now last : ℤ} {o : Order} {i : ℕ}

instance : Decidable c.Idle := by
  unfold Idle
  infer_instance

instance : Decidable (c.AllEnd book now) := by
  unfold AllEnd
  infer_instance

/-- **The position after a check.** -/
theorem netPosition_checkFills : (c.checkFills book now).accounts.netPosition =
    (c.tradesAt book now).foldl ShadowAccounts.settle c.accounts.netPosition :=
  SlotPool.foldl_sweep (fun a s => @ShadowOrder.netPosition_checkFill c.cfg book now s a)
    c.accounts c.orders

/-- **When nothing is active after a check.** -/
theorem idle_checkFills_iff : (c.checkFills book now).Idle ↔ c.AllEnd book now :=
  SlotPool.forall_sweep_iff (fun a s => @ShadowOrder.inactive_checkFill_iff c.cfg book now s a)
    c.accounts c.orders

/-! ## An order that crosses, and a check after it -/

/-- The order has a price that crosses. -/
structure CrossesOn (book : OrderBook) (o : Order) : Prop where
  type_limit : o.type = .limit
  quantity_pos : 0 < o.quantity
  best_pos : 0 < ShadowOrder.oppositeBest book o.side
  price_crosses : match o.side with
    | .bid => book.getBestAsk ≤ o.price
    | .ask => o.price ≤ book.getBestBid

/-- `submit_order` releases the order at once. -/
def ReleasedAtOnce (c : ShadowConnector) (o : Order) : Prop :=
  modeledLatencyNs c.cfg o.clientOrderId ≤ 0

instance : Decidable (c.ReleasedAtOnce o) := inferInstanceAs (Decidable (_ ≤ _))

/-- The order as it rests. -/
def restingOrder (c : ShadowConnector) (book : OrderBook) (now : ℤ) (o : Order) : ShadowOrder :=
  (newOrder c.cfg book now o).withMarks true true

/-- The trades of an order that crosses and of the check after it. Without a slot it is not
placed. -/
def tradesWith (c : ShadowConnector) (book : OrderBook) (now last : ℤ) (o : Order) : List ℚ :=
  match c.freeSlot with
  | none => c.tradesAt book last
  | some i =>
    if c.ReleasedAtOnce o then o.side.signed o.quantity :: c.tradesAt book last
    else (c.tradesAt book last).set i ((c.restingOrder book now o).tradeAt c.cfg book last)

/-- The order ends: it has no slot, or is filled at once, or ends at the check. -/
def EndsPlaced (c : ShadowConnector) (book : OrderBook) (now last : ℤ) (o : Order) : Prop :=
  c.freeSlot = none ∨ c.ReleasedAtOnce o ∨ (c.restingOrder book now o).EndsAt c.cfg book last

instance : Decidable (c.EndsPlaced book now last o) := inferInstanceAs (Decidable (_ ∨ _ ∨ _))

theorem CrossesOn.fillable (h : CrossesOn book o) :
    (newOrder c.cfg book now o).isImmediatelyFillable book = true := by
  have hbest := h.best_pos
  have hprice := h.price_crosses
  unfold ShadowOrder.isImmediatelyFillable
  simp only [newOrder, h.type_limit]
  unfold ShadowOrder.oppositeBest at hbest
  cases hside : o.side <;> simp only [hside] at hbest hprice <;> simp [hbest, hprice]

theorem released_iff : (newOrder c.cfg book now o).releaseTsNs ≤
    (newOrder c.cfg book now o).submitTsNs ↔ c.ReleasedAtOnce o := by
  simp [newOrder, ReleasedAtOnce]

/-- What `submit_order` leaves of an order that crosses, in the slot it finds. -/
theorem submitOrder_crossing (h : CrossesOn book o) (hi : c.freeSlot = some i) :
    ∃ accounts slot, (c.submitOrder book now o).2 =
        { c with orders := c.orders.set i slot, accounts := accounts } ∧
      ((c.ReleasedAtOnce o ∧ slot.active = false ∧ accounts.netPosition =
          ShadowAccounts.settle c.accounts.netPosition (o.side.signed o.quantity)) ∨
        (¬ c.ReleasedAtOnce o ∧ slot = c.restingOrder book now o ∧ accounts = c.accounts)) := by
  refine ⟨(placeOrder c.cfg book now c.accounts (newOrder c.cfg book now o)).1,
    (placeOrder c.cfg book now c.accounts (newOrder c.cfg book now o)).2, ?_, ?_⟩
  · rw [freeSlot] at hi
    rw [submitOrder, hi]
  · rw [ShadowOrder.placeOrder_eq]
    by_cases hreleased : c.ReleasedAtOnce o
    · rw [if_pos ⟨released_iff.mpr hreleased, h.fillable⟩]
      have hends := @ShadowOrder.fillAtBest_ends c.cfg book now (newOrder c.cfg book now o)
        c.accounts rfl (by simpa [newOrder] using h.quantity_pos)
      have hwhole : (newOrder c.cfg book now o).quantity - (newOrder c.cfg book now o).filledQty =
        (newOrder c.cfg book now o).quantity := sub_zero _
      have htrade : (newOrder c.cfg book now o).tradeOf book o.quantity =
        o.side.signed o.quantity := if_pos ⟨h.quantity_pos, h.best_pos⟩
      rw [hwhole] at hends
      rw [← htrade]
      exact Or.inl ⟨hreleased, hends, ShadowOrder.netPosition_fillAtBest _⟩
    · rw [if_neg fun hplaced => hreleased (released_iff.mp hplaced.1)]
      exact Or.inr ⟨hreleased, rfl, rfl⟩

theorem tradeAt_of_inactive {s : ShadowOrder} (h : s.active = false) :
    s.tradeAt c.cfg book now = 0 := by
  unfold ShadowOrder.tradeAt ShadowOrder.matchedQty
  rw [if_neg fun hactive => by simp [h] at hactive]
  exact ShadowOrder.tradeOf_of_nonpos le_rfl

theorem endsAt_of_inactive {s : ShadowOrder} (h : s.active = false) :
    s.EndsAt c.cfg book now := fun hactive => by simp [h] at hactive

/-- Where another order is put in a slot, its trade is put among the trades. -/
theorem tradesAt_set {accounts : ShadowAccounts} {slot : ShadowOrder} :
    ({ c with orders := c.orders.set i slot, accounts := accounts } : ShadowConnector).tradesAt
        book now = (c.tradesAt book now).set i (slot.tradeAt c.cfg book now) := by
  simp only [tradesAt, List.map_set]

/-- A free slot trades nothing. -/
theorem tradesAt_set_zero (hi : c.freeSlot = some i) :
    (c.tradesAt book now).set i 0 = c.tradesAt book now := by
  obtain ⟨free, hfree, hidle, -⟩ := SlotPool.getElem?_of_findIdx? hi
  have htrade : (c.tradesAt book now)[i]? = some 0 := by
    rw [tradesAt, List.getElem?_map, hfree, Option.map_some,
      tradeAt_of_inactive (by simpa using hidle)]
  obtain ⟨hlength, hzero⟩ := List.getElem?_eq_some_iff.mp htrade
  rw [← hzero]
  exact List.set_getElem_self hlength

/-- Where another order is put in a free slot, it has to end as well. -/
theorem allEnd_set {accounts : ShadowAccounts} {slot : ShadowOrder} (hi : c.freeSlot = some i) :
    ({ c with orders := c.orders.set i slot, accounts := accounts } : ShadowConnector).AllEnd
        book now ↔ c.AllEnd book now ∧ slot.EndsAt c.cfg book now := by
  obtain ⟨free, hfree, hidle, -⟩ := SlotPool.getElem?_of_findIdx? hi
  obtain ⟨hlength, -⟩ := List.getElem?_eq_some_iff.mp hfree
  constructor
  · intro h
    refine ⟨fun s hs => ?_, h slot (List.mem_set hlength slot)⟩
    obtain ⟨j, hj⟩ := List.mem_iff_getElem?.mp hs
    by_cases hij : i = j
    · subst hij
      rw [hfree] at hj
      rw [← Option.some.inj hj]
      exact endsAt_of_inactive (by simpa using hidle)
    · exact h s (List.mem_of_getElem? ((List.getElem?_set_ne hij).trans hj))
  · rintro ⟨h, hslot⟩ s hs
    rcases List.mem_or_eq_of_mem_set hs with hold | rfl
    · exact h s hold
    · exact hslot

/-- **The position after an order that crosses and a check.** -/
theorem netPosition_check_submit (h : CrossesOn book o) :
    ((c.submitOrder book now o).2.checkFills book last).accounts.netPosition =
      (c.tradesWith book now last o).foldl ShadowAccounts.settle c.accounts.netPosition := by
  rw [netPosition_checkFills, tradesWith]
  cases hi : c.freeSlot with
  | none =>
    rw [freeSlot] at hi
    rw [submitOrder, hi]
  | some i =>
    obtain ⟨accounts, slot, heq, ⟨hreleased, hslot, hposition⟩ | ⟨hreleased, rfl, rfl⟩⟩ :=
      @submitOrder_crossing c book now o i h hi
    · rw [heq, tradesAt_set, tradeAt_of_inactive hslot, tradesAt_set_zero hi, hposition]
      simp only
      rw [if_pos hreleased, List.foldl_cons]
    · rw [heq, tradesAt_set]
      simp only
      rw [if_neg hreleased]

/-- **When nothing is active after an order that crosses and a check.** -/
theorem idle_check_submit_iff (h : CrossesOn book o) :
    ((c.submitOrder book now o).2.checkFills book last).Idle ↔
      c.AllEnd book last ∧ c.EndsPlaced book now last o := by
  rw [idle_checkFills_iff, EndsPlaced]
  cases hi : c.freeSlot with
  | none =>
    have hsame : (c.submitOrder book now o).2 = c := by
      rw [freeSlot] at hi
      rw [submitOrder, hi]
    rw [hsame]
    simp
  | some i =>
    obtain ⟨accounts, slot, heq, ⟨hreleased, hslot, -⟩ | ⟨hreleased, rfl, -⟩⟩ :=
      @submitOrder_crossing c book now o i h hi
    · rw [heq, allEnd_set hi]
      simp [hreleased, endsAt_of_inactive hslot]
    · rw [heq, allEnd_set hi]
      simp [hreleased]

end ShadowConnector

end TradingInfrastructure
