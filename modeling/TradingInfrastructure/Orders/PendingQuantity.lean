import TradingInfrastructure.Orders.Channels
import TradingInfrastructure.Orders.PendingLedger
import TradingInfrastructure.Shadow.Accounting
import TradingInfrastructure.Foundations.Runs

/-!
# The pending quantity of a desk

A manager that trades through a shadow connector, under any interleaving of the calls of both. The
ledger of the manager has pending what is left of the open orders, as long as every call is
`Clean`: it submits only what the ledger can book, cancels no order of which a part is filled, and
fills no order to within the tolerance without completing it.

The updates of a cancel or a reject carry a cumulative quantity of zero. So the cancel of an order
of which a part is filled releases the whole of its quantity, and takes the difference from the
other orders of the record.
-/

namespace TradingInfrastructure

/-- The connector once its updates have been handed on. -/
def ShadowConnector.silent (c : ShadowConnector) : ShadowConnector :=
  { c with accounts := { c.accounts with updates := [] } }

/-- `OrderManager` and the `ShadowConnector` it trades through. -/
structure Desk where
  manager : OrderManager
  connector : ShadowConnector

/-- The calls of the manager and the connector, with the book they read and the times they read
from the clock. -/
inductive DeskCall
  | submit (book : OrderBook) (stamp now : ℤ) (order : Order)
  | cancel (now : ℤ) (clientId : ℕ)
  | cancelAll (now : ℤ) (symbol : CString)
  | drainFills (now : ℤ)
  | checkFills (book : OrderBook) (now : ℤ)

namespace Desk

/-- A new manager of a new connector, with what is in the memory of `position_`. -/
def start (cfg : ShadowConfig) (position : ℚ) : Desk := ⟨.new position, .new cfg⟩

/-- What the connector answers to a call and becomes. A submission reaches it only when the
manager has a slot for the order. -/
def answer (t : Desk) : DeskCall → ConnectorResult × ShadowConnector
  | .submit book stamp now order =>
    match t.manager.beginSubmit order stamp with
    | none => (.errorUnknown, t.connector)
    | some _ => t.connector.submitOrder book now (t.manager.numbered order stamp)
  | .cancel now clientId => t.connector.cancelOrder now clientId
  | .cancelAll now symbol => t.connector.cancelAll now symbol
  | .drainFills _ => (.ok, t.connector)
  | .checkFills book now => (.ok, t.connector.checkFills book now)

/-- The updates that the connector emits during a call. -/
def emitted (t : Desk) (c : DeskCall) : List FillUpdate := (t.answer c).2.accounts.updates

/-- What the manager becomes by a call. -/
def managerAfter (t : Desk) : DeskCall → OrderManager
  | .submit book stamp now order =>
    (t.manager.submit order stamp fun o =>
      let (result, connector) := t.connector.submitOrder book now o
      (result, connector.accounts.updates)).2
  | .drainFills now => t.manager.drainFills now
  | c => (t.emitted c).foldl OrderManager.receive t.manager

def call (t : Desk) (c : DeskCall) : Desk := ⟨t.managerAfter c, (t.answer c).2.silent⟩

/-- The queue has room for what the connector emits. -/
def NoDrop (t : Desk) (c : DeskCall) : Prop :=
  t.manager.fillQueue.items.length + (t.emitted c).length < 2 ^ 7

/-- The call submits only what the ledger can book, cancels no order of which a part is filled, and
does not come to within the tolerance of completing one. -/
def Clean (t : Desk) : DeskCall → Prop
  | .submit _ _ _ order => t.manager.findFreeSlot.isSome →
      0 ≤ order.quantity ∧ t.manager.ledger.HasRoomFor order.exchange order.symbol.chars
  | .cancel _ clientId => ∀ s ∈ t.connector.orders, s.active = true → s.clientOrderId = clientId →
      s.filledQty = 0
  | .cancelAll _ symbol => ∀ s ∈ t.connector.orders, s.active = true →
      strncmpEq 15 s.symbol.chars symbol = true → s.filledQty = 0
  | .drainFills _ => True
  | .checkFills book now => ∀ s ∈ t.connector.orders,
      s.CleanVisit t.connector.cfg book (s.ExpiresAt book now) (s.CrossesAt book now)

instance (t : Desk) (c : DeskCall) : Decidable (t.NoDrop c) := inferInstanceAs (Decidable (_ < _))

instance (t : Desk) : ∀ c, Decidable (t.Clean c)
  | .submit .. => inferInstanceAs (Decidable (_ → _ ∧ _))
  | .cancel .. => inferInstanceAs (Decidable (∀ s ∈ t.connector.orders, _))
  | .cancelAll .. => inferInstanceAs (Decidable (∀ s ∈ t.connector.orders, _))
  | .drainFills _ => isTrue trivial
  | .checkFills .. => inferInstanceAs (Decidable (∀ s ∈ t.connector.orders, _))

/-- Once the queue is empty, the ledger has pending what is left of the open orders. -/
def PendingExact (m : OrderManager) : Prop :=
  m.fillQueue.items = [] → ∀ side,
    m.ledger.pendingQty side = (m.slots.map (·.outstanding side)).sum

/-- **The invariant of a manager**, with the updates in its queue and the orders of its
connector. -/
structure Consistent (m : OrderManager) (orders : List ShadowOrder) : Prop where
  numbered : m.WellNumbered
  queue_lt : ∀ u ∈ m.fillQueue.items, u.clientOrderId < m.nextId
  linked : Linked m.slots m.fillQueue.items orders
  booked : Booked m.slots m.ledger

variable {m : OrderManager} {orders : List ShadowOrder}

theorem Consistent.pendingExact (h : Consistent m orders) : PendingExact m :=
  fun _ side => h.booked.pendingQty_eq side

theorem consistent_start (cfg : ShadowConfig) (position : ℚ) :
    Consistent (start cfg position).manager (start cfg position).connector.orders where
  numbered := OrderManager.wellNumbered_new position
  queue_lt u hu := by simp [start, OrderManager.new] at hu
  linked := by
    refine ⟨fun i j a b k ha _ hk _ => ?_, fun s hs k hk => ?_, fun s hs hactive => ?_,
      fun mo hmo k hk => ?_⟩
    · rw [List.eq_of_mem_replicate (List.mem_of_getElem? ha)] at hk
      cases hk
    · rw [List.eq_of_mem_replicate hs] at hk
      cases hk
    · rw [List.eq_of_mem_replicate hs] at hactive
      cases hactive
    · rw [List.eq_of_mem_replicate hmo] at hk
      cases hk
  booked := by
    have hslots : ∀ mo ∈ (start cfg position).manager.slots, mo.active = false := by
      intro mo hmo
      rw [List.eq_of_mem_replicate hmo]
    have hvenues : ∀ v ∈ (start cfg position).manager.ledger.venues, v.key = none := by
      intro v hv
      rw [List.eq_of_mem_replicate hv]
      rfl
    refine ⟨fun i j a b k ha _ hk _ => ?_, fun mo hmo hactive => ?_, fun mo hmo hactive => ?_,
      fun v hv key hkey => ?_⟩
    · rw [hvenues a (List.mem_of_getElem? ha)] at hk
      cases hk
    · simp [hslots mo hmo] at hactive
    · simp [hslots mo hmo] at hactive
    · rw [hvenues v hv] at hkey
      cases hkey

/-! ## Draining -/

/-- **The ledger and the slot of an order change together** when its first update is applied. -/
theorem Consistent.booked_applied (h : Consistent m orders) {u : FillUpdate} {us : List FillUpdate}
    (hitems : m.fillQueue.items = u :: us) {i : ℕ} {mo : ManagedOrder}
    (hslot : m.slots[i]? = some mo) (hkey : mo.key = some u.clientOrderId) (now : ℤ) :
    Booked (m.applyFillAt now u i mo.order).slots (m.applyFillAt now u i mo.order).ledger := by
  obtain ⟨hactive, -⟩ := ManagedOrder.key_eq_some.mp hkey
  have hmem := List.mem_of_getElem? hslot
  obtain ⟨r, hch, -⟩ := h.linked.channel mo hmem _ hkey
  rw [hitems, Linked.inLine_cons_self] at hch
  rcases hch.head_cases with ⟨hopen, hpos, hcum, hrest⟩ | ⟨hterm, -, -, hlast⟩
  · -- a part of the order
    have hle := hrest.filled_le
    have hbook := h.booked.filled (f := (·.updatedBy u)) hslot hactive (u := u)
      (hcum ▸ hle) now rfl (fun _ => hle) fun key side => ?_
    · simpa [OrderManager.applyFillAt, hpos, hopen] using hbook
    · simp only [ManagedOrder.share, ManagedOrder.updatedBy, hopen, hactive, hcum,
        Bool.false_eq_true, if_false, true_and, @eq_comm _ key, @eq_comm _ side]
      split <;> ring
  · rcases hlast with ⟨hpos, hcum, hqty⟩ | ⟨hnone, hcum, hfilled, hle⟩
    · -- the last part, after which nothing is left to close
      have hbook := h.booked.filled (f := (·.updatedBy u)) hslot hactive (u := u)
        hqty.le now rfl (fun _ => hcum.le) fun key side => ?_
      · have hclose := hbook.onOrderClosed_zero mo.order
        simp only [OrderManager.applyFillAt, hpos, hterm, if_true, hcum, sub_self, max_self, hclose]
        exact hbook
      · simp only [ManagedOrder.share, ManagedOrder.updatedBy, hterm, hactive,
          Bool.false_eq_true, if_true, false_and, if_false, true_and, zero_sub,
          @eq_comm _ key, @eq_comm _ side]
        split
        · linarith
        · exact neg_zero
    · -- a cancel or a reject of an order of which nothing is filled
      have hshare : mo.share mo.order.venueKey mo.order.side = mo.order.quantity := by
        simp [ManagedOrder.share, hactive, hfilled]
      have hbook := h.booked.closed (f := (·.updatedBy u)) hslot (h.booked.known mo hmem hactive)
        hle (hshare ▸ h.booked.share_le_owed hmem _ _) rfl (fun _ => hcum.trans_le hle)
        fun key side => ?_
      · simp only [OrderManager.applyFillAt, hnone, lt_irrefl, if_false, hterm, if_true,
          hcum, sub_zero, max_eq_right hle]
        exact hbook
      · simp only [ManagedOrder.share, ManagedOrder.updatedBy, hterm, hactive, hfilled,
          Bool.false_eq_true, if_true, false_and, if_false, true_and, zero_sub, sub_zero,
          @eq_comm _ key, @eq_comm _ side]
        split
        · rfl
        · exact neg_zero

/-- **Applying the first update of the queue keeps the invariant.** -/
theorem Consistent.applied (h : Consistent m orders) {u : FillUpdate} {q : SpscQueue FillUpdate 7}
    (hitems : m.fillQueue.items = u :: q.items) (now : ℤ) :
    Consistent ({ m with fillQueue := q }.applyFill now u) orders := by
  have hnum : OrderManager.WellNumbered { m with fillQueue := q } :=
    ⟨h.numbered.unique, h.numbered.lt⟩
  have hlink := h.linked
  rw [hitems] at hlink
  have hlt : ∀ w ∈ q.items, w.clientOrderId < m.nextId := fun w hw =>
    h.queue_lt w (by simp [hitems, hw])
  cases hopen : OrderManager.isOpen { m with fillQueue := q } u.clientOrderId with
  | false =>
    rw [OrderManager.applyFill_of_closed hopen]
    exact ⟨hnum, hlt, hlink.popped (mt OrderManager.isOpen_iff.mpr (Bool.eq_false_iff.mp hopen)),
      h.booked⟩
  | true =>
    obtain ⟨i, mo, hslot, hkey, he⟩ := OrderManager.applyFill_of_open now hopen
    refine ⟨hnum.applyFill now u, by simpa using hlt, ?_, ?_⟩ <;> rw [he]
    · exact hlink.applied h.numbered.unique hslot hkey
    · exact h.booked_applied hitems hslot hkey now

theorem Consistent.drainFills (h : Consistent m orders) (now : ℤ) :
    Consistent (m.drainFills now) orders := by
  have hloop : ∀ n, ∀ m : OrderManager, Consistent m orders →
      Consistent (OrderManager.drainLoop now n m) orders := by
    intro n
    induction n with
    | zero => exact fun _ h => h
    | succ n ih =>
      intro m h
      unfold OrderManager.drainLoop
      rcases m.fillQueue.pop_spec with ⟨-, hpop⟩ | ⟨u, q, hpop, hitems⟩
      · rw [hpop]
        exact h
      · rw [hpop]
        exact ih _ (h.applied hitems now)
  exact hloop _ m h

/-! ## The connector -/

/-- A call that turns `c` into `c'` reports what it does to the orders of the manager. -/
def Relays (slots : List ManagedOrder) (items : List FillUpdate) (c c' : ShadowConnector) : Prop :=
  ∃ us, c'.accounts.updates = c.accounts.updates ++ us ∧ Linked slots (items ++ us) c'.orders ∧
    ∀ u ∈ us, SlotPool.HasKey ManagedOrder.key slots u.clientOrderId

section Relays

variable {slots : List ManagedOrder} {items : List FillUpdate} {c : ShadowConnector}
  {book : OrderBook} {now : ℤ}

theorem Relays.refl (h : Linked slots items c.orders) : Relays slots items c c :=
  ⟨[], by simp, by simpa using h, by simp⟩

theorem relays_checkFills (h : Linked slots items c.orders) (hclean : ∀ s ∈ c.orders,
      s.CleanVisit c.cfg book (s.ExpiresAt book now) (s.CrossesAt book now)) :
    Relays slots items c (c.checkFills book now) :=
  h.sweep fun _ s hs hmarket => ShadowOrder.checkFill_step.reports (hclean s hs) hmarket

theorem relays_cancelAll (h : Linked slots items c.orders) {symbol : CString}
    (hclean : ∀ s ∈ c.orders, s.active = true →
      strncmpEq 15 s.symbol.chars symbol = true → s.filledQty = 0) :
    Relays slots items c (c.cancelAll now symbol).2 :=
  h.sweep fun a s hs hmarket => by
    have hstep : s.SlotStep c.cfg (.new 1 2) now (strncmpEq 15 s.symbol.chars symbol = true) False a
        (s.cancelMatching symbol now a) := ShadowOrder.cancelMatching_step symbol
    exact hstep.reports ⟨hclean s hs, nofun⟩ hmarket

theorem relays_cancelOrder (h : Linked slots items c.orders) {clientId : ℕ}
    (hclean : ∀ s ∈ c.orders, s.active = true → s.clientOrderId = clientId → s.filledQty = 0) :
    Relays slots items c (c.cancelOrder now clientId).2 := by
  unfold ShadowConnector.cancelOrder
  cases hfind : c.orders.findIdx? fun s => s.active && s.clientOrderId == clientId with
  | none => exact .refl h
  | some i =>
    obtain ⟨s, hs, hfound, hmem⟩ := SlotPool.getElem?_of_findIdx? hfind
    rw [Bool.and_eq_true, beq_iff_eq] at hfound
    have hget : c.orders.getD i {} = s := by
      rw [List.getD_eq_getElem?_getD, hs, Option.getD_some]
    have hrep : Reports s { s with active := false } [s.cancelUpdate now] :=
      ShadowOrder.reports_close hfound.1 (hclean s hmem hfound.1 hfound.2) rfl rfl rfl rfl
    refine ⟨[s.cancelUpdate now], ?_, ?_, fun u hu => h.known s hmem _ (hrep.ids u hu)⟩
    · simp only [hget]
      rfl
    · simp only [hget, List.set_eq_modify]
      exact h.visit hs hrep

/-- A submission of an order that the manager has opened, and of which nothing is known yet. -/
theorem relays_submitOrder (h : Linked slots items c.orders) {order : Order}
    (hline : inLine order.clientOrderId items = [])
    (hnone : ∀ b ∈ c.orders, b.key ≠ some order.clientOrderId)
    (hhas : SlotPool.HasKey ManagedOrder.key slots order.clientOrderId)
    (hmo : ∀ mo ∈ slots, mo.key = some order.clientOrderId →
      mo.filledQty = 0 ∧ order.quantity = mo.order.quantity) :
    Relays slots items c (c.submitOrder book now order).2 := by
  unfold ShadowConnector.submitOrder
  cases hfind : c.orders.findIdx? fun s => !s.active with
  | none => exact .refl h
  | some j =>
    obtain ⟨free, hj, -, -⟩ := SlotPool.getElem?_of_findIdx? hfind
    -- the new order rests, and is then visited
    set s := ShadowConnector.newOrder c.cfg book now order with hs
    have hkey : s.key = some order.clientOrderId := rfl
    have hrest := h.placed j hkey rfl hline hnone hhas hmo
    have hslot : (c.orders.modify j fun _ => s)[j]? = some s := by simp [hj]
    have hstep : s.SlotStep c.cfg book now False False c.accounts
        (ShadowConnector.placeOrder c.cfg book now c.accounts s) :=
      ShadowConnector.placeOrder_step rfl rfl
    obtain ⟨us, hus, hrep⟩ := hstep.reports ⟨nofun, nofun⟩ fun _ _ => rfl
    refine ⟨us, hus, ?_, fun u hu => ?_⟩
    · have hvisit := hrest.visit hslot hrep
      rw [List.modify_modify_eq] at hvisit
      simp only [List.set_eq_modify]
      exact hvisit
    · rw [Option.some.inj ((hrep.ids u hu).symm.trans hkey)]
      exact hhas

/-- A connector without a free slot refuses the order, and emits nothing. -/
theorem submitOrder_cases (c : ShadowConnector) (book : OrderBook) (now : ℤ) (order : Order) :
    (c.submitOrder book now order).1 = .ok ∨ c.submitOrder book now order = (.errorUnknown, c) := by
  unfold ShadowConnector.submitOrder
  split
  · exact Or.inr rfl
  · exact Or.inl rfl

end Relays

/-! ## The calls -/

/-- **The updates of a call join the queue.** -/
theorem Consistent.heard (h : Consistent m orders) {c c' : ShadowConnector}
    (hsilent : c.accounts.updates = []) (hrelays : Relays m.slots m.fillQueue.items c c')
    (hroom : m.fillQueue.items.length + c'.accounts.updates.length < 2 ^ 7) :
    Consistent (c'.accounts.updates.foldl OrderManager.receive m) c'.orders := by
  obtain ⟨us, hus, hlink, hids⟩ := hrelays
  rw [hsilent, List.nil_append] at hus
  rw [hus] at hroom ⊢
  obtain ⟨q, hq, hitems⟩ := m.foldl_receive_spec us hroom
  rw [hq]
  refine ⟨⟨h.numbered.unique, h.numbered.lt⟩, fun u hu => ?_, ?_, h.booked⟩
  · rcases List.mem_append.mp (hitems ▸ hu) with hu | hu
    · exact h.queue_lt u hu
    · exact h.numbered.isOpen_lt (OrderManager.isOpen_iff.mpr (hids u hu))
  · change Linked m.slots q.items c'.orders
    rwa [hitems]

/-- The manager `m'` has opened the order `o` in the slot `i`. -/
structure Opened (m m' : OrderManager) (i : ℕ) (o : Order) (orders : List ShadowOrder) : Prop where
  numbered : m'.WellNumbered
  queue_lt : ∀ u ∈ m'.fillQueue.items, u.clientOrderId < m'.nextId
  slots_eq : m'.slots = m.slots.modify i fun _ => { order := o, active := true }
  rest_eq : m'.fillQueue = m.fillQueue ∧ m'.ledger = m.ledger
  free : ∃ free, m.slots[i]? = some free ∧ free.active = false
  linked : Linked m'.slots m'.fillQueue.items orders
  inLine : inLine o.clientOrderId m'.fillQueue.items = []
  fresh : ∀ b ∈ orders, b.key ≠ some o.clientOrderId

theorem Consistent.opened (h : Consistent m orders) {order : Order} {stamp : ℤ} {i : ℕ}
    {m' : OrderManager} (hbegin : m.beginSubmit order stamp = some (i, m'))
    (hqty : 0 ≤ order.quantity) : Opened m m' i (m.numbered order stamp) orders := by
  obtain ⟨hnum, hid, -, ⟨free, hslot, hfree⟩, he⟩ := OrderManager.beginSubmit_spec h.numbered hbegin
  have hnone : ¬ SlotPool.HasKey ManagedOrder.key m.slots m.nextId := fun hhas =>
    lt_irrefl _ (h.numbered.isOpen_lt (OrderManager.isOpen_iff.mpr hhas))
  have hline : TradingInfrastructure.inLine m.nextId m.fillQueue.items = [] :=
    List.filter_eq_nil_iff.mpr fun u hu => by simpa using (h.queue_lt u hu).ne
  have hlt : ∀ u ∈ m.fillQueue.items, u.clientOrderId < m'.nextId := fun u hu => by
    rw [hid]
    exact (h.queue_lt u hu).trans (Nat.lt_succ_self _)
  subst he
  exact ⟨hnum, hlt, rfl, ⟨rfl, rfl⟩, ⟨free, hslot, hfree⟩,
    h.linked.opened hslot hfree rfl rfl hqty hline hnone, hline,
    fun b hb hk => hnone (h.linked.known b hb _ hk)⟩

namespace Opened

variable {m' : OrderManager} {i : ℕ} {o : Order}

theorem slot (h : Opened m m' i o orders) :
    m'.slots[i]? = some { order := o, active := true } := by
  obtain ⟨free, hslot, -⟩ := h.free
  rw [h.slots_eq]
  simp [hslot]

theorem key : ManagedOrder.key { order := o, active := true } = some o.clientOrderId := rfl

/-- What the connector does to the order it is handed. -/
theorem relays {c : ShadowConnector} (h : Opened m m' i o c.orders) (book : OrderBook) (now : ℤ) :
    Relays m'.slots m'.fillQueue.items c (c.submitOrder book now o).2 := by
  refine relays_submitOrder h.linked h.inLine h.fresh ⟨_, List.mem_of_getElem? h.slot, key⟩ ?_
  intro mo hmo hk
  obtain ⟨j, hj⟩ := List.mem_iff_getElem?.mp hmo
  obtain rfl : j = i := h.numbered.unique j i mo _ _ hj h.slot hk key
  obtain rfl := Option.some.inj (hj.symm.trans h.slot)
  exact ⟨rfl, rfl⟩

/-- The connector has taken the order, which is then booked. -/
theorem accepted (h : Opened m m' i o orders) (hm : Consistent m orders) (hqty : 0 ≤ o.quantity)
    (hroom : m.ledger.HasRoomFor o.exchange o.symbol.chars) {q : SpscQueue FillUpdate 7}
    {us : List FillUpdate} (hitems : q.items = m'.fillQueue.items ++ us)
    {orders' : List ShadowOrder} (hlink : Linked m'.slots q.items orders')
    (hids : ∀ u ∈ us, SlotPool.HasKey ManagedOrder.key m'.slots u.clientOrderId) :
    Consistent (OrderManager.finishSubmit { m' with fillQueue := q } i o .ok).2 orders' := by
  obtain ⟨free, hslot, hfree⟩ := h.free
  refine ⟨⟨h.numbered.unique, h.numbered.lt⟩, fun u hu => ?_, hlink, ?_⟩
  · rcases List.mem_append.mp (hitems ▸ hu) with hu | hu
    · exact h.queue_lt u hu
    · exact h.numbered.isOpen_lt (OrderManager.isOpen_iff.mpr (hids u hu))
  · change Booked m'.slots (m'.ledger.onOrderSubmitted o)
    rw [h.slots_eq, h.rest_eq.2]
    exact hm.booked.submitted hslot hfree hqty hroom

/-- The connector has refused the order, which is then given up. -/
theorem refused (h : Opened m m' i o orders) (hm : Consistent m orders) {result : ConnectorResult}
    (hresult : result ≠ .ok) : Consistent (m'.finishSubmit i o result).2 orders := by
  obtain ⟨free, hslot, hfree⟩ := h.free
  obtain ⟨hnum, -, he⟩ := OrderManager.finishSubmit_refused h.numbered hresult h.slot key
  refine ⟨hnum, ?_, ?_, ?_⟩ <;> rw [he]
  · exact h.queue_lt
  · exact h.linked.refused h.numbered.unique h.slot key h.fresh
  · change Booked (m'.slots.modify i fun s => { s with active := false }) m'.ledger
    rw [h.slots_eq, h.rest_eq.2, List.modify_modify_eq]
    exact hm.booked.refused hslot hfree rfl

end Opened

/-- **A submission keeps the invariant.** -/
theorem Consistent.submit {t : Desk} (h : Consistent t.manager t.connector.orders)
    (hsilent : t.connector.accounts.updates = []) {book : OrderBook} {stamp now : ℤ} {order : Order}
    (hroom : t.NoDrop (.submit book stamp now order))
    (hclean : t.Clean (.submit book stamp now order)) :
    Consistent (t.call (.submit book stamp now order)).manager
      (t.call (.submit book stamp now order)).connector.orders := by
  simp only [NoDrop, emitted, answer] at hroom
  simp only [call, managerAfter, answer, OrderManager.submit, ShadowConnector.silent]
  cases hbegin : t.manager.beginSubmit order stamp with
  | none => exact h
  | some r =>
    obtain ⟨i, m'⟩ := r
    simp only [hbegin] at hroom
    have hfound : t.manager.findFreeSlot.isSome := by
      unfold OrderManager.beginSubmit at hbegin
      cases hf : t.manager.findFreeSlot with
      | none => simp [hf] at hbegin
      | some => rfl
    obtain ⟨hqty, hledger⟩ := hclean hfound
    have hopened := h.opened hbegin hqty
    rcases submitOrder_cases t.connector book now (t.manager.numbered order stamp) with hok | hno
    · obtain ⟨us, hus, hlink, hids⟩ := hopened.relays book now
      rw [hsilent, List.nil_append] at hus
      rw [hus, ← hopened.rest_eq.1] at hroom
      obtain ⟨q, hq, hitems⟩ := m'.foldl_receive_spec us hroom
      simp only [hus, hq, hok]
      exact hopened.accepted h hqty hledger hitems (hitems ▸ hlink) hids
    · simp only [hno, hsilent, List.foldl_nil]
      exact hopened.refused h nofun

/-- **Every clean call keeps the invariant.** -/
theorem Consistent.call {t : Desk} (h : Consistent t.manager t.connector.orders)
    (hsilent : t.connector.accounts.updates = []) {c : DeskCall} (hroom : t.NoDrop c)
    (hclean : t.Clean c) : Consistent (t.call c).manager (t.call c).connector.orders := by
  cases c with
  | submit book stamp now order => exact h.submit hsilent hroom hclean
  | cancel now clientId => exact h.heard hsilent (relays_cancelOrder h.linked hclean) hroom
  | cancelAll now symbol => exact h.heard hsilent (relays_cancelAll h.linked hclean) hroom
  | drainFills now => exact h.drainFills now
  | checkFills book now => exact h.heard hsilent (relays_checkFills h.linked hclean) hroom

/-- **The pending quantity is exact** after every run whose calls are clean, as long as no update
finds the queue full. -/
theorem pendingExact_run (cfg : ShadowConfig) (position : ℚ) {calls : List DeskCall}
    (h : AllSteps call (fun t c => t.NoDrop c ∧ t.Clean c) (start cfg position) calls) :
    PendingExact (calls.foldl call (start cfg position)).manager := by
  have hrun := h.foldl
    (P := fun t => Consistent t.manager t.connector.orders ∧ t.connector.accounts.updates = [])
    (fun t c ht hc => ⟨ht.1.call ht.2 hc.1 hc.2, rfl⟩) ⟨consistent_start cfg position, rfl⟩
  exact hrun.1.pendingExact

/-- A book with its bid at 98 and an ask of four at 99. -/
def lowerBook : OrderBook :=
  ((OrderBook.new 1 4).applySnapshot (fun _ => [])
    { sequence := 1, bids := [⟨98, 1, 1⟩], asks := [⟨99, 4, 1⟩] }).2

/-- A bid that rests. -/
def restingBid (price quantity : ℚ) : Order where
  symbol := copySymbol "BTCUSDT".toList
  exchange := .binance
  price := price
  quantity := quantity

/-- Two bids, of ten and of five. The market falls and four of the first are filled. -/
def partlyFilled : List DeskCall :=
  [.submit OrderBook.atTouchBook 1 1 (restingBid 99 10),
    .submit OrderBook.atTouchBook 2 2 (restingBid 98 5),
    .checkFills lowerBook 3, .drainFills 4]

theorem partlyFilled_clean : AllSteps call (fun t c => t.NoDrop c ∧ t.Clean c)
    (start ShadowConnector.flatFees 0) partlyFilled := by
  decide +kernel

/-- The first bid is cancelled. -/
def thenCancelled : List DeskCall := [.cancel 5 1, .drainFills 6]

/-- Before the cancel, the ledger has eleven pending. -/
theorem pendingExact_run_partlyFilled :
    let m := (partlyFilled.foldl call (start ShadowConnector.flatFees 0)).manager
    m.ledger.pendingQty .bid = 11 ∧ (m.slots.map (·.outstanding .bid)).sum = 11 := by
  have hexact := pendingExact_run ShadowConnector.flatFees 0 partlyFilled_clean
    (by decide +kernel) .bid
  have hledger : (partlyFilled.foldl call
      (start ShadowConnector.flatFees 0)).manager.ledger.pendingQty .bid = 11 := by
    decide +kernel
  exact ⟨hledger, hexact.symm.trans hledger⟩

/-- **The cancel releases all of the first bid**, with the four that are filled: one is pending,
but the second bid has five left. -/
theorem thenCancelled_pending_wrong :
    let t := (partlyFilled ++ thenCancelled).foldl call (start ShadowConnector.flatFees 0)
    AllSteps call NoDrop (start ShadowConnector.flatFees 0) (partlyFilled ++ thenCancelled) ∧
      t.manager.fillQueue.items = [] ∧ t.manager.ledger.pendingQty .bid = 1 ∧
      (t.manager.slots.map (·.outstanding .bid)).sum = 5 ∧ ¬ PendingExact t.manager := by
  have hempty : ((partlyFilled ++ thenCancelled).foldl call
      (start ShadowConnector.flatFees 0)).manager.fillQueue.items = [] := by decide +kernel
  have hledger : ((partlyFilled ++ thenCancelled).foldl call
      (start ShadowConnector.flatFees 0)).manager.ledger.pendingQty .bid = 1 := by decide +kernel
  have hleft : (((partlyFilled ++ thenCancelled).foldl call
      (start ShadowConnector.flatFees 0)).manager.slots.map (·.outstanding .bid)).sum =
        5 := by decide +kernel
  refine ⟨by decide +kernel, hempty, hledger, hleft, fun hexact => ?_⟩
  have h := hexact hempty .bid
  rw [hledger, hleft] at h
  norm_num at h

end Desk

end TradingInfrastructure
