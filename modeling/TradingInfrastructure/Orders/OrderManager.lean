import TradingInfrastructure.Orders.SpscQueue
import TradingInfrastructure.Portfolio.PositionLedger
import TradingInfrastructure.Foundations.Inbox

/-!
# The order manager

`OrderManager` of `core/execution/common/orders/order_manager.hpp`: a pool of orders, a ledger, a
position, and the queue in which the connector's callback leaves its fill updates until they are
drained.

The connector is not part of the manager. A submission is split where the connector is called:
`beginSubmit` takes a slot for the order, the connector answers and may emit updates, and
`finishSubmit` acts on its answer; `submit` puts them together. The code leaves `position_`
uninitialized, so the position of a new manager is an argument.
-/

namespace TradingInfrastructure

structure ManagedOrder where
  order : Order := {}
  state : OrderState := .pending
  filledQty : ℚ := 0
  avgFillPrice : ℚ := 0
  active : Bool := false
  deriving DecidableEq, Inhabited

namespace ManagedOrder

/-- The order after an update: what it says is copied, and a terminal state frees the slot. -/
def updatedBy (mo : ManagedOrder) (u : FillUpdate) : ManagedOrder :=
  { mo with
    filledQty := u.cumulativeFilledQty
    avgFillPrice := u.avgFillPrice
    state := u.newState
    active := if u.newState.terminal then false else mo.active }

end ManagedOrder

/-- `OrderManager`, with its queue of `FILL_QUEUE_DEPTH` = 128 cells. -/
structure OrderManager where
  nextId : ℕ
  slots : List ManagedOrder
  position : ℚ
  ledger : PositionLedger
  fillQueue : SpscQueue FillUpdate 7

namespace OrderManager

/-- `MAX_ORDERS`. -/
def maxOrders : ℕ := 64

/-- The constructor, with what is in the memory of `position_`. -/
def new (position : ℚ) : OrderManager where
  nextId := 1
  slots := List.replicate maxOrders {}
  position := position
  ledger := .new
  fillQueue := .empty

/-- `find_free_slot`. -/
def findFreeSlot (m : OrderManager) : Option ℕ := m.slots.findIdx? fun s => !s.active

/-- `find_order`. -/
def findOrder (m : OrderManager) (clientId : ℕ) : Option ℕ :=
  m.slots.findIdx? fun s => s.active && s.order.clientOrderId == clientId

/-- The callback given to the connector: a full queue drops the update. -/
def receive (m : OrderManager) (u : FillUpdate) : OrderManager :=
  match m.fillQueue.push u with
  | some q => { m with fillQueue := q }
  | none => m

/-- The order that `submit` hands to the connector. -/
def numbered (m : OrderManager) (order : Order) (now : ℤ) : Order :=
  { order with clientOrderId := m.nextId, submitTsNs := now }

/-- `submit` up to the call of the connector: the slot taken and the manager, or nothing when the
pool is full. -/
def beginSubmit (m : OrderManager) (order : Order) (now : ℤ) : Option (ℕ × OrderManager) :=
  match m.findFreeSlot with
  | none => none
  | some i =>
    some (i, { m with
      nextId := m.nextId + 1
      slots := m.slots.modify i fun _ =>
        { order := m.numbered order now, state := .pending, filledQty := 0, avgFillPrice := 0,
          active := true } })

/-- `submit` after the connector has answered: the id returned, and the manager. -/
def finishSubmit (m : OrderManager) (i : ℕ) (order : Order) (result : ConnectorResult) :
    ℕ × OrderManager :=
  if result ≠ .ok then
    (0, { m with slots := m.slots.modify i fun s => { s with active := false } })
  else (order.clientOrderId, { m with ledger := m.ledger.onOrderSubmitted order })

/-- `submit`, given what the connector answers to the order it is handed and the updates that it
emits meanwhile. -/
def submit (m : OrderManager) (order : Order) (now : ℤ)
    (connector : Order → ConnectorResult × List FillUpdate) : ℕ × OrderManager :=
  match m.beginSubmit order now with
  | none => (0, m)
  | some (i, m') =>
    let answer := connector (m.numbered order now)
    (answer.2.foldl receive m').finishSubmit i (m.numbered order now) answer.1

/-- `apply_fill` once the order has been found: what the update does to the slot `i`, whose order
is given. -/
def applyFillAt (m : OrderManager) (now : ℤ) (u : FillUpdate) (i : ℕ) (order : Order) :
    OrderManager :=
  let ledger := if u.fillQty > 0 then m.ledger.onFill order u now else m.ledger
  { m with
    slots := m.slots.modify i (·.updatedBy u)
    position := if u.fillQty > 0 then m.position + order.side.sign * u.fillQty else m.position
    ledger :=
      if u.newState.terminal then
        ledger.onOrderClosed order (max 0 (order.quantity - u.cumulativeFilledQty))
      else ledger }

/-- `apply_fill`. -/
def applyFill (m : OrderManager) (now : ℤ) (u : FillUpdate) : OrderManager :=
  match m.findOrder u.clientOrderId with
  | none => m
  | some i => m.applyFillAt now u i (m.slots.getD i {}).order

/-- The loop of `drain_fills`, for some rounds. -/
def drainLoop (now : ℤ) : ℕ → OrderManager → OrderManager
  | 0, m => m
  | n + 1, m =>
    match m.fillQueue.pop with
    | none => m
    | some (u, q) => drainLoop now n ({ m with fillQueue := q }.applyFill now u)

/-- `drain_fills`: the queue is empty before its cells are used up (`drainFills_items`). -/
def drainFills (m : OrderManager) (now : ℤ) : OrderManager := drainLoop now (2 ^ 7) m

end OrderManager

/-- The id of the order in a slot that is in use. -/
def ManagedOrder.key (mo : ManagedOrder) : Option ℕ :=
  if mo.active then some mo.order.clientOrderId else none

theorem ManagedOrder.key_eq_some {mo : ManagedOrder} {k : ℕ} :
    mo.key = some k ↔ mo.active = true ∧ mo.order.clientOrderId = k := by
  simp [key]

theorem ManagedOrder.key_eq_none {mo : ManagedOrder} : mo.key = none ↔ mo.active = false := by
  simp [key]

namespace OrderManager

/-! ## The slots -/

/-- The order with this id is in use. -/
def isOpen (m : OrderManager) (clientId : ℕ) : Bool := (m.findOrder clientId).isSome

/-- The ids in use are different, and have all been given out. -/
structure WellNumbered (m : OrderManager) : Prop where
  unique : SlotPool.KeysUnique ManagedOrder.key m.slots
  lt : ∀ mo ∈ m.slots, ∀ k, mo.key = some k → k < m.nextId

variable {m : OrderManager} {i k : ℕ} {now : ℤ}

theorem key_iff_found {mo : ManagedOrder} :
    (mo.active && mo.order.clientOrderId == k) = true ↔ mo.key = some k := by
  rw [ManagedOrder.key_eq_some, Bool.and_eq_true, beq_iff_eq]

/-- The slot that `find_order` returns. -/
theorem findOrder_spec (h : m.findOrder k = some i) :
    ∃ mo, m.slots[i]? = some mo ∧ mo.key = some k := by
  obtain ⟨mo, hmo, hfound, -⟩ := SlotPool.getElem?_of_findIdx? h
  exact ⟨mo, hmo, key_iff_found.mp hfound⟩

theorem isOpen_iff : m.isOpen k = true ↔ SlotPool.HasKey ManagedOrder.key m.slots k := by
  rw [isOpen, Option.isSome_iff_exists]
  constructor
  · rintro ⟨i, hi⟩
    obtain ⟨mo, hmo, hkey⟩ := findOrder_spec hi
    exact ⟨mo, List.mem_of_getElem? hmo, hkey⟩
  · rintro ⟨mo, hmem, hkey⟩
    exact SlotPool.exists_findIdx? hmem (key_iff_found.mpr hkey)

theorem isOpen_congr {m' : OrderManager} (h : m'.slots = m.slots) : m'.isOpen = m.isOpen := by
  funext k
  rw [isOpen, isOpen, findOrder, findOrder, h]

theorem WellNumbered.isOpen_lt (hm : m.WellNumbered) (h : m.isOpen k = true) : k < m.nextId := by
  obtain ⟨mo, hmem, hkey⟩ := isOpen_iff.mp h
  exact hm.lt mo hmem k hkey

theorem wellNumbered_new (position : ℚ) : (new position).WellNumbered where
  unique i j a b k ha _ hk _ := by
    rw [List.eq_of_mem_replicate (List.mem_of_getElem? ha)] at hk
    cases hk
  lt mo hmem k hk := by
    rw [List.eq_of_mem_replicate hmem] at hk
    cases hk

theorem isOpen_new (position : ℚ) : (new position).isOpen = fun _ => false := by
  funext k
  rw [Bool.eq_false_iff, ne_eq, isOpen_iff]
  rintro ⟨mo, hmem, hk⟩
  rw [List.eq_of_mem_replicate hmem] at hk
  cases hk

/-- A slot that keeps or gives up its id. -/
theorem WellNumbered.modify (hm : m.WellNumbered) {f : ManagedOrder → ManagedOrder}
    (hf : ∀ mo, m.slots[i]? = some mo → (f mo).key = mo.key ∨ (f mo).key = none)
    {m' : OrderManager} (hslots : m'.slots = m.slots.modify i f) (hid : m'.nextId = m.nextId) :
    m'.WellNumbered where
  unique := hslots ▸ hm.unique.modify_of_key_eq hf
  lt mo hmem k hk := by
    rw [hid]
    rw [hslots] at hmem
    rcases SlotPool.mem_modify hmem with hmem | ⟨old, hold, rfl⟩
    · exact hm.lt mo hmem k hk
    · rcases hf old hold with he | he
      · exact hm.lt old (List.mem_of_getElem? hold) k (he ▸ hk)
      · rw [he] at hk
        cases hk

/-! ## What the operations do -/

/-- What `submit` does before the connector is called. -/
theorem beginSubmit_spec (hm : m.WellNumbered) {order : Order} {m' : OrderManager}
    (h : m.beginSubmit order now = some (i, m')) :
    m'.WellNumbered ∧ m'.nextId = m.nextId + 1 ∧
      m'.isOpen = Function.update m.isOpen m.nextId true ∧
      (∃ free, m.slots[i]? = some free ∧ free.active = false) ∧
      m' = { m with
        nextId := m.nextId + 1
        slots := m.slots.modify i fun _ =>
          { order := m.numbered order now, state := .pending, filledQty := 0, avgFillPrice := 0,
            active := true } } := by
  unfold beginSubmit at h
  cases hfree : m.findFreeSlot with
  | none => simp [hfree] at h
  | some j =>
    simp only [hfree, Option.some.injEq, Prod.mk.injEq] at h
    obtain ⟨rfl, rfl⟩ := h
    obtain ⟨free, hget, hinactive, -⟩ := SlotPool.getElem?_of_findIdx? hfree
    have hinactive' : free.active = false := by simpa using hinactive
    have hkey := ManagedOrder.key_eq_none.mpr hinactive'
    refine ⟨⟨?_, ?_⟩, rfl, ?_, ⟨free, hget, hinactive'⟩, rfl⟩
    · refine hm.unique.modify fun mo k _ hk j' b _ hb hkb => ?_
      have hlt := hm.lt b (List.mem_of_getElem? hb) k hkb
      obtain ⟨-, rfl⟩ := ManagedOrder.key_eq_some.mp hk
      exact absurd hlt (lt_irrefl m.nextId)
    · intro mo hmem k hk
      rcases SlotPool.mem_modify hmem with hmem | ⟨-, -, rfl⟩
      · exact (hm.lt mo hmem k hk).trans (Nat.lt_succ_self _)
      · obtain ⟨-, rfl⟩ := ManagedOrder.key_eq_some.mp hk
        exact Nat.lt_succ_self _
    · funext k
      rw [Bool.eq_iff_iff, isOpen_iff, SlotPool.hasKey_modify_of_take hget hkey
        (show _ = some m.nextId by simp [ManagedOrder.key, numbered]), ← isOpen_iff]
      by_cases hk : k = m.nextId
      · subst hk
        simp
      · simp [hk]

/-- A submission that the connector refuses gives its id up. -/
theorem finishSubmit_refused (hm : m.WellNumbered) {order : Order} {result : ConnectorResult}
    (h : result ≠ .ok) {mo : ManagedOrder} (hget : m.slots[i]? = some mo)
    (hkey : mo.key = some order.clientOrderId) :
    (m.finishSubmit i order result).2.WellNumbered ∧
      (m.finishSubmit i order result).2.isOpen =
        Function.update m.isOpen order.clientOrderId false ∧
      (m.finishSubmit i order result).2 =
        { m with slots := m.slots.modify i fun s => { s with active := false } } := by
  have he : (m.finishSubmit i order result).2 =
      { m with slots := m.slots.modify i fun s => { s with active := false } } := by
    simp [finishSubmit, h]
  rw [he]
  refine ⟨hm.modify (fun _ _ => Or.inr (by simp [ManagedOrder.key])) rfl rfl, ?_, rfl⟩
  funext k
  rw [Bool.eq_iff_iff, isOpen_iff,
    hm.unique.hasKey_modify_of_drop hget hkey (by simp [ManagedOrder.key]), ← isOpen_iff]
  by_cases hk : k = order.clientOrderId
  · subst hk
    simp
  · simp [hk]

/-- An update for an order that is not in use does nothing. -/
theorem applyFill_of_closed {u : FillUpdate} (h : m.isOpen u.clientOrderId = false) :
    m.applyFill now u = m := by
  have : m.findOrder u.clientOrderId = none := by simpa [isOpen] using h
  simp [applyFill, this]

/-- An update for an order in use changes the slot of the order. -/
theorem applyFill_of_open (now : ℤ) {u : FillUpdate} (h : m.isOpen u.clientOrderId = true) :
    ∃ j mo, m.slots[j]? = some mo ∧ mo.key = some u.clientOrderId ∧
      m.applyFill now u = m.applyFillAt now u j mo.order := by
  obtain ⟨j, hj⟩ := Option.isSome_iff_exists.mp h
  obtain ⟨mo, hget, hkey⟩ := findOrder_spec hj
  have hmo : m.slots.getD j {} = mo := by
    rw [List.getD_eq_getElem?_getD, hget, Option.getD_some]
  exact ⟨j, mo, hget, hkey, by simp only [applyFill, hj, hmo]⟩

theorem key_updatedBy (mo : ManagedOrder) (u : FillUpdate) :
    (mo.updatedBy u).key = if u.newState.terminal then none else mo.key := by
  cases hterm : u.newState.terminal <;> simp [ManagedOrder.key, ManagedOrder.updatedBy, hterm]

@[simp] theorem nextId_applyFill (m : OrderManager) (now : ℤ) (u : FillUpdate) :
    (m.applyFill now u).nextId = m.nextId := by
  unfold applyFill
  split <;> rfl

@[simp] theorem fillQueue_applyFill (m : OrderManager) (now : ℤ) (u : FillUpdate) :
    (m.applyFill now u).fillQueue = m.fillQueue := by
  unfold applyFill
  split <;> rfl

/-- A slot after an update is an old slot, or an old slot that the update has changed. -/
theorem mem_slots_applyFill {now : ℤ} {u : FillUpdate} {mo : ManagedOrder}
    (h : mo ∈ (m.applyFill now u).slots) :
    mo ∈ m.slots ∨ ∃ old ∈ m.slots, mo = old.updatedBy u := by
  cases hu : m.isOpen u.clientOrderId with
  | false =>
    rw [applyFill_of_closed hu] at h
    exact Or.inl h
  | true =>
    obtain ⟨j, mo', -, -, he⟩ := applyFill_of_open now hu
    rw [he] at h
    rcases SlotPool.mem_modify h with h | ⟨old, hold, rfl⟩
    · exact Or.inl h
    · exact Or.inr ⟨old, List.mem_of_getElem? hold, rfl⟩

theorem WellNumbered.applyFill (hm : m.WellNumbered) (now : ℤ) (u : FillUpdate) :
    (m.applyFill now u).WellNumbered := by
  cases h : m.isOpen u.clientOrderId with
  | false => rwa [applyFill_of_closed h]
  | true =>
    obtain ⟨j, mo, -, -, he⟩ := applyFill_of_open now h
    rw [he]
    refine hm.modify (fun old _ => ?_) rfl rfl
    rw [key_updatedBy]
    split
    · exact Or.inr rfl
    · exact Or.inl rfl

/-- A terminal update closes its order, any other leaves it open. -/
theorem isOpen_applyFill (hm : m.WellNumbered) (now : ℤ) (u : FillUpdate) :
    (m.applyFill now u).isOpen =
      Inbox.close FillUpdate.clientOrderId (·.newState.terminal) m.isOpen u := by
  cases h : m.isOpen u.clientOrderId with
  | false => rw [applyFill_of_closed h, Inbox.close_of_closed h]
  | true =>
    obtain ⟨j, mo, hget, hkey, he⟩ := applyFill_of_open now h
    have hslots : (m.applyFill now u).slots = m.slots.modify j (·.updatedBy u) := by
      rw [he]
      rfl
    funext k
    rw [Bool.eq_iff_iff, isOpen_iff, hslots, Inbox.close]
    cases hterm : u.newState.terminal with
    | false =>
      rw [SlotPool.hasKey_modify_of_same hget (by simp [key_updatedBy, hterm]), ← isOpen_iff]
      simp
    | true =>
      rw [hm.unique.hasKey_modify_of_drop hget hkey (by simp [key_updatedBy, hterm]), ← isOpen_iff]
      by_cases hk : k = u.clientOrderId
      · subst hk
        simp
      · simp [hk]

/-! ## The queue -/

/-- With room in the queue, an update that is received joins it. -/
theorem receive_spec (u : FillUpdate) (hroom : m.fillQueue.items.length + 1 < 2 ^ 7) :
    ∃ q : SpscQueue FillUpdate 7, m.receive u = { m with fillQueue := q } ∧
      q.items = m.fillQueue.items ++ [u] := by
  rcases m.fillQueue.push_spec u with ⟨hfull, -⟩ | ⟨-, q, hq, hitems⟩
  · omega
  · exact ⟨q, by simp [receive, hq], hitems⟩

/-- With room in the queue, the updates that are received join it in order. -/
theorem foldl_receive_spec (us : List FillUpdate) (m : OrderManager)
    (hroom : m.fillQueue.items.length + us.length < 2 ^ 7) :
    ∃ q : SpscQueue FillUpdate 7, us.foldl receive m = { m with fillQueue := q } ∧
      q.items = m.fillQueue.items ++ us := by
  induction us generalizing m with
  | nil => exact ⟨m.fillQueue, rfl, by simp⟩
  | cons u us ih =>
    rw [List.length_cons] at hroom
    obtain ⟨q, hq, hitems⟩ := m.receive_spec u (by omega)
    obtain ⟨q', hq', hitems'⟩ := ih (m.receive u) (by
      rw [hq]
      simp only [hitems, List.length_append, List.length_singleton]
      omega)
    refine ⟨q', by rw [List.foldl_cons, hq', hq], ?_⟩
    rw [hitems', hq]
    simp [hitems]

/-- **`drain_fills` empties the queue.** -/
theorem drainFills_items (m : OrderManager) (now : ℤ) :
    (m.drainFills now).fillQueue.items = [] := by
  have hloop : ∀ n (m : OrderManager), m.fillQueue.items.length ≤ n →
      (drainLoop now n m).fillQueue.items = [] := by
    intro n
    induction n with
    | zero => exact fun m h => List.length_eq_zero_iff.mp (Nat.le_zero.mp h)
    | succ n ih =>
      intro m h
      unfold drainLoop
      rcases m.fillQueue.pop_spec with ⟨hempty, hpop⟩ | ⟨u, q, hpop, hitems⟩
      · rw [hpop]
        exact hempty
      · rw [hpop]
        refine ih _ ?_
        rw [fillQueue_applyFill]
        rw [hitems, List.length_cons] at h
        exact Nat.le_of_succ_le_succ h
  exact hloop _ m m.fillQueue.length_items_lt.le

end OrderManager

end TradingInfrastructure
