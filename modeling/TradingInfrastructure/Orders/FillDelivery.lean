import TradingInfrastructure.Orders.OrderManager
import TradingInfrastructure.Foundations.Runs

/-!
# Fill updates are delivered once

A connector emits updates while the manager submits orders and drains its queue, in any
interleaving. A `Delivery` runs a manager beside what it should do: the updates that are `due`,
those emitted for an order that was accepted and had no terminal update yet, and the updates
`applied` so far. What lies in the queue is the difference between the two (`Tracks`), so once the
queue is drained every update due has been applied, once and in order, as long as no update finds
the queue full.
-/

namespace TradingInfrastructure

/-- An update for an order that is not open does nothing; a terminal one closes its order. -/
abbrev FillUpdate.isLast (u : FillUpdate) : Bool := u.newState.terminal

/-- A manager with what is due to it and what it has applied. -/
structure Delivery where
  manager : OrderManager
  openIds : ℕ → Bool
  sideOf : ℕ → Side
  due : List FillUpdate
  applied : List FillUpdate

namespace Delivery

/-- What an update that is applied adds to the position. -/
def credit (sideOf : ℕ → Side) (u : FillUpdate) : ℚ :=
  if u.fillQty > 0 then (sideOf u.clientOrderId).sign * u.fillQty else 0

/-- A new manager. -/
def start (position : ℚ) : Delivery where
  manager := .new position
  openIds := fun _ => false
  sideOf := fun _ => .bid
  due := []
  applied := []

/-- The connector emits an update. It is due when its order is open. -/
def emit (t : Delivery) (u : FillUpdate) : Delivery :=
  { t with
    manager := t.manager.receive u
    openIds := Inbox.close FillUpdate.clientOrderId FillUpdate.isLast t.openIds u
    due := if t.openIds u.clientOrderId then t.due ++ [u] else t.due }

/-- The order that a submission has opened, with the manager that has a slot for it. -/
def openOrder (t : Delivery) (side : Side) (m : OrderManager) : Delivery :=
  { t with
    manager := m
    openIds := Function.update t.openIds t.manager.nextId true
    sideOf := Function.update t.sideOf t.manager.nextId side }

/-- The connector refuses the order: nothing is due for it. -/
def refuse (t : Delivery) (k : ℕ) (m : OrderManager) : Delivery :=
  { t with
    manager := m
    openIds := Function.update t.openIds k false
    due := t.due.filter fun u => u.clientOrderId ≠ k }

/-- A submission, with the connector's answer and the updates it emits meanwhile. -/
def submit (t : Delivery) (order : Order) (now : ℤ) (result : ConnectorResult)
    (emitted : List FillUpdate) : Delivery :=
  match t.manager.beginSubmit order now with
  | none => t
  | some (i, m) =>
    let told := emitted.foldl emit (t.openOrder order.side m)
    let finished := (told.manager.finishSubmit i (t.manager.numbered order now) result).2
    if result = .ok then { told with manager := finished }
    else told.refuse t.manager.nextId finished

/-- The update `u` has been popped, which leaves the queue `q`. It is applied when its order is in
use. -/
def applyNext (t : Delivery) (now : ℤ) (u : FillUpdate) (q : SpscQueue FillUpdate 7) : Delivery :=
  { t with
    manager := { t.manager with fillQueue := q }.applyFill now u
    applied := if t.manager.isOpen u.clientOrderId then t.applied ++ [u] else t.applied }

/-- One round of the loop of `drain_fills`. -/
def drainOne (t : Delivery) (now : ℤ) : Delivery :=
  match t.manager.fillQueue.pop with
  | none => t
  | some (u, q) => t.applyNext now u q

/-- What happens in a run. -/
inductive Event
  | submit (order : Order) (now : ℤ) (result : ConnectorResult) (emitted : List FillUpdate)
  | emit (u : FillUpdate)
  | drainOne (now : ℤ)

def step (t : Delivery) : Event → Delivery
  | .submit order now result emitted => t.submit order now result emitted
  | .emit u => t.emit u
  | .drainOne now => t.drainOne now

/-- The connector only reports on orders that it has been given, and finds room in the queue. -/
def Roomy (t : Delivery) : Event → Prop
  | .submit _ _ _ emitted => (∀ u ∈ emitted, u.clientOrderId ≤ t.manager.nextId) ∧
      t.manager.fillQueue.items.length + emitted.length < 2 ^ 7
  | .emit u => u.clientOrderId < t.manager.nextId ∧
      t.manager.fillQueue.items.length + 1 < 2 ^ 7
  | .drainOne _ => True

/-- **The invariant of a delivery**: what is due has been applied or waits in the queue for an
order in use. -/
structure Tracks (position : ℚ) (t : Delivery) : Prop where
  numbered : t.manager.WellNumbered
  queue_lt : ∀ u ∈ t.manager.fillQueue.items, u.clientOrderId < t.manager.nextId
  applied_lt : ∀ u ∈ t.applied, u.clientOrderId < t.manager.nextId
  side_eq : ∀ mo ∈ t.manager.slots, ∀ k, mo.key = some k → mo.order.side = t.sideOf k
  open_eq : t.openIds = Inbox.after FillUpdate.clientOrderId FillUpdate.isLast t.manager.isOpen
    t.manager.fillQueue.items
  due_eq : t.due = t.applied ++ Inbox.taken FillUpdate.clientOrderId FillUpdate.isLast
    t.manager.isOpen t.manager.fillQueue.items
  position_eq : t.manager.position = position + (t.applied.map (credit t.sideOf)).sum

variable {position : ℚ} {t : Delivery}

theorem tracks_start (position : ℚ) : (start position).Tracks position where
  numbered := OrderManager.wellNumbered_new position
  queue_lt u hu := by simp [start, OrderManager.new] at hu
  applied_lt u hu := by simp [start] at hu
  side_eq mo hmem k hk := by
    rw [List.eq_of_mem_replicate hmem] at hk
    cases hk
  open_eq := (OrderManager.isOpen_new position).symm
  due_eq := by simp [start, OrderManager.new]
  position_eq := by simp [start, OrderManager.new]

/-! ## Emission -/

theorem Tracks.emit (h : t.Tracks position) {u : FillUpdate}
    (hlt : u.clientOrderId < t.manager.nextId)
    (hroom : t.manager.fillQueue.items.length + 1 < 2 ^ 7) :
    (t.emit u).Tracks position ∧ ∃ q : SpscQueue FillUpdate 7,
      (t.emit u).manager = { t.manager with fillQueue := q } ∧
        q.items = t.manager.fillQueue.items ++ [u] := by
  obtain ⟨q, hq, hitems⟩ := t.manager.receive_spec u hroom
  have hm : (t.emit u).manager = { t.manager with fillQueue := q } := hq
  have hopen : (t.emit u).manager.isOpen = t.manager.isOpen := by
    rw [hm]
    exact OrderManager.isOpen_congr rfl
  refine ⟨⟨?_, ?_, ?_, ?_, ?_, ?_, ?_⟩, q, hm, hitems⟩
  · rw [hm]
    exact ⟨h.numbered.unique, h.numbered.lt⟩
  · intro w hw
    rw [hm] at hw ⊢
    rw [hitems, List.mem_append, List.mem_singleton] at hw
    rcases hw with hw | rfl
    · exact h.queue_lt w hw
    · exact hlt
  · rw [hm]
    exact h.applied_lt
  · rw [hm]
    exact h.side_eq
  · rw [hopen, hm, hitems, Inbox.after_append, ← h.open_eq]
    rfl
  · rw [hopen, hm, hitems, Inbox.taken_append_singleton, ← h.open_eq, ← List.append_assoc]
    simp only [Delivery.emit]
    rw [← h.due_eq]
    split <;> simp
  · rw [hm]
    exact h.position_eq

theorem Tracks.emits {us : List FillUpdate} :
    ∀ {t : Delivery}, t.Tracks position → (∀ u ∈ us, u.clientOrderId < t.manager.nextId) →
      t.manager.fillQueue.items.length + us.length < 2 ^ 7 →
      (us.foldl Delivery.emit t).Tracks position ∧
        (us.foldl Delivery.emit t).applied = t.applied ∧
        ∃ q, (us.foldl Delivery.emit t).manager = { t.manager with fillQueue := q } := by
  induction us with
  | nil => exact fun h _ _ => ⟨h, rfl, _, rfl⟩
  | cons u us ih =>
    intro t h hlt hroom
    rw [List.length_cons] at hroom
    obtain ⟨h', q, hm, hitems⟩ := h.emit (hlt u (by simp)) (by omega)
    have hroom' : (t.emit u).manager.fillQueue.items.length + us.length < 2 ^ 7 := by
      rw [hm]
      simp only [hitems, List.length_append, List.length_singleton]
      omega
    have hlt' : ∀ w ∈ us, w.clientOrderId < (t.emit u).manager.nextId := by
      intro w hw
      rw [hm]
      exact hlt w (by simp [hw])
    obtain ⟨h'', happ, q', hm'⟩ := ih h' hlt' hroom'
    exact ⟨h'', happ, q', by rw [List.foldl_cons, hm', hm]⟩

/-! ## Submission -/

theorem Tracks.openOrder (h : t.Tracks position) {order : Order} {now : ℤ} {i : ℕ}
    {m : OrderManager} (hm : t.manager.beginSubmit order now = some (i, m)) :
    (t.openOrder order.side m).Tracks position := by
  obtain ⟨hwell, hid, hopen, -, he⟩ := OrderManager.beginSubmit_spec h.numbered hm
  have hne : ∀ u ∈ t.manager.fillQueue.items, u.clientOrderId ≠ t.manager.nextId :=
    fun u hu => (h.queue_lt u hu).ne
  have hq : m.fillQueue = t.manager.fillQueue := by rw [he]
  refine ⟨hwell, ?_, ?_, ?_, ?_, ?_, ?_⟩
  · intro u hu
    rw [Delivery.openOrder, hid]
    exact (h.queue_lt u (hq ▸ hu)).trans (Nat.lt_succ_self _)
  · intro u hu
    rw [Delivery.openOrder, hid]
    exact (h.applied_lt u hu).trans (Nat.lt_succ_self _)
  · intro mo hmem k hk
    simp only [Delivery.openOrder, he] at hmem ⊢
    rcases SlotPool.mem_modify hmem with hmem | ⟨-, -, rfl⟩
    · rw [Function.update_of_ne (h.numbered.lt mo hmem k hk).ne]
      exact h.side_eq mo hmem k hk
    · obtain ⟨-, rfl⟩ := ManagedOrder.key_eq_some.mp hk
      simp [OrderManager.numbered]
  · simp only [Delivery.openOrder, hopen, hq]
    rw [Inbox.after_open hne, h.open_eq]
  · simp only [Delivery.openOrder, hopen, hq]
    rw [Inbox.taken_open hne, h.due_eq]
  · have hsame : t.applied.map (credit (t.openOrder order.side m).sideOf) =
        t.applied.map (credit t.sideOf) := by
      refine List.map_congr_left fun u hu => ?_
      simp [credit, Delivery.openOrder, Function.update_of_ne (h.applied_lt u hu).ne]
    have hpos : m.position = t.manager.position := by rw [he]
    have happ : (t.openOrder order.side m).applied = t.applied := rfl
    rw [happ, hsame, ← h.position_eq]
    exact hpos

theorem Tracks.refuse (h : t.Tracks position) {order : Order} {i : ℕ} {result : ConnectorResult}
    (hresult : result ≠ .ok) {mo : ManagedOrder} (hget : t.manager.slots[i]? = some mo)
    (hkey : mo.key = some order.clientOrderId)
    (happlied : ∀ u ∈ t.applied, u.clientOrderId ≠ order.clientOrderId) :
    (t.refuse order.clientOrderId (t.manager.finishSubmit i order result).2).Tracks position := by
  obtain ⟨hwell, hopen, he⟩ := OrderManager.finishSubmit_refused h.numbered hresult hget hkey
  have hq : (t.manager.finishSubmit i order result).2.fillQueue = t.manager.fillQueue := by rw [he]
  have hid : (t.manager.finishSubmit i order result).2.nextId = t.manager.nextId := by rw [he]
  refine ⟨hwell, ?_, ?_, ?_, ?_, ?_, ?_⟩
  · intro u hu
    simp only [Delivery.refuse, hq, hid] at hu ⊢
    exact h.queue_lt u hu
  · intro u hu
    simp only [Delivery.refuse, hid] at hu ⊢
    exact h.applied_lt u hu
  · intro mo' hmem k hk
    simp only [Delivery.refuse, he] at hmem ⊢
    rcases SlotPool.mem_modify hmem with hmem | ⟨old, -, rfl⟩
    · exact h.side_eq mo' hmem k hk
    · simp [ManagedOrder.key] at hk
  · simp only [Delivery.refuse, hopen, hq]
    rw [Inbox.after_shut, h.open_eq]
  · simp only [Delivery.refuse, hopen, hq]
    rw [Inbox.taken_shut, h.due_eq, List.filter_append]
    congr 1
    exact List.filter_eq_self.mpr fun u hu => by simpa using happlied u hu
  · have hpos : (t.manager.finishSubmit i order result).2.position = t.manager.position := by
      rw [he]
    exact hpos.trans h.position_eq

theorem Tracks.withLedger (h : t.Tracks position) (ledger : PositionLedger) :
    { t with manager := { t.manager with ledger := ledger } }.Tracks position :=
  ⟨⟨h.numbered.unique, h.numbered.lt⟩, h.queue_lt, h.applied_lt, h.side_eq, h.open_eq, h.due_eq,
    h.position_eq⟩

theorem Tracks.submit (h : t.Tracks position) {order : Order} {now : ℤ} {result : ConnectorResult}
    {emitted : List FillUpdate} (hids : ∀ u ∈ emitted, u.clientOrderId ≤ t.manager.nextId)
    (hroom : t.manager.fillQueue.items.length + emitted.length < 2 ^ 7) :
    (t.submit order now result emitted).Tracks position := by
  unfold Delivery.submit
  split
  · exact h
  · next i m hm =>
    obtain ⟨-, hid, -, ⟨free, hget, -⟩, he⟩ := OrderManager.beginSubmit_spec h.numbered hm
    have hroom' : (t.openOrder order.side m).manager.fillQueue.items.length + emitted.length <
        2 ^ 7 := by
      simp only [Delivery.openOrder, he]
      exact hroom
    have hids' : ∀ u ∈ emitted, u.clientOrderId < (t.openOrder order.side m).manager.nextId := by
      intro u hu
      simp only [Delivery.openOrder, hid]
      exact Nat.lt_succ_of_le (hids u hu)
    obtain ⟨htold, happ, q, hmq⟩ := (h.openOrder hm).emits hids' hroom'
    split
    · next hresult =>
      -- an accepted order only changes the ledger
      subst hresult
      exact htold.withLedger _
    · next hresult =>
      have hslot : (emitted.foldl Delivery.emit (t.openOrder order.side m)).manager.slots[i]? =
          some { order := t.manager.numbered order now, active := true } := by
        rw [hmq]
        simp [Delivery.openOrder, he, hget]
      refine htold.refuse hresult hslot (by simp [ManagedOrder.key]) fun u hu => ?_
      rw [happ] at hu
      exact (h.applied_lt u hu).ne

/-! ## Draining -/

/-- What an applied update adds to the position. -/
theorem position_applyFill {m : OrderManager} {sideOf : ℕ → Side}
    (hside : ∀ mo ∈ m.slots, ∀ k, mo.key = some k → mo.order.side = sideOf k) (now : ℤ)
    {u : FillUpdate} (hu : m.isOpen u.clientOrderId = true) :
    (m.applyFill now u).position = m.position + credit sideOf u := by
  obtain ⟨j, mo, hget, hkey, he⟩ := OrderManager.applyFill_of_open now hu
  rw [he]
  simp only [OrderManager.applyFillAt, credit, hside mo (List.mem_of_getElem? hget) _ hkey]
  split <;> simp

/-- Applying the first update of the queue keeps the invariant. -/
theorem Tracks.applyNext (h : t.Tracks position) (now : ℤ) {u : FillUpdate}
    {q : SpscQueue FillUpdate 7} (hitems : t.manager.fillQueue.items = u :: q.items) :
    (t.applyNext now u q).Tracks position := by
  have hmem : ∀ w ∈ q.items, w ∈ t.manager.fillQueue.items := fun w hw => by simp [hitems, hw]
  have hid : (t.applyNext now u q).manager.nextId = t.manager.nextId :=
    OrderManager.nextId_applyFill ..
  have hq : (t.applyNext now u q).manager.fillQueue = q := OrderManager.fillQueue_applyFill ..
  have hwell : { t.manager with fillQueue := q }.WellNumbered :=
    ⟨h.numbered.unique, h.numbered.lt⟩
  have hopen : (t.applyNext now u q).manager.isOpen = Inbox.close FillUpdate.clientOrderId
      FillUpdate.isLast t.manager.isOpen u := OrderManager.isOpen_applyFill hwell now u
  refine ⟨hwell.applyFill now u, ?_, ?_, ?_, ?_, ?_, ?_⟩
  · intro w hw
    rw [hid]
    exact h.queue_lt w (hmem w (hq ▸ hw))
  · intro w hw
    rw [hid]
    simp only [Delivery.applyNext] at hw
    split at hw
    · rcases List.mem_append.mp hw with hw | hw
      · exact h.applied_lt w hw
      · rw [List.mem_singleton.mp hw]
        exact h.queue_lt u (by simp [hitems])
    · exact h.applied_lt w hw
  · intro mo hmo k hk
    rcases OrderManager.mem_slots_applyFill hmo with hmo | ⟨old, hold, rfl⟩
    · exact h.side_eq mo hmo k hk
    · rw [OrderManager.key_updatedBy] at hk
      split at hk
      · cases hk
      · exact h.side_eq old hold k hk
  · rw [hopen, hq]
    exact h.open_eq.trans (by rw [hitems]; rfl)
  · rw [hopen, hq]
    refine h.due_eq.trans ?_
    rw [hitems]
    simp only [Inbox.taken, Delivery.applyNext]
    split <;> simp
  · simp only [Delivery.applyNext]
    cases hu : t.manager.isOpen u.clientOrderId with
    | false =>
      have hu' : OrderManager.isOpen { t.manager with fillQueue := q } u.clientOrderId = false := hu
      rw [OrderManager.applyFill_of_closed hu']
      exact h.position_eq
    | true =>
      have hpos := position_applyFill (m := { t.manager with fillQueue := q }) h.side_eq now hu
      rw [hpos, h.position_eq]
      simp [add_assoc]

theorem Tracks.drainOne (h : t.Tracks position) (now : ℤ) :
    (t.drainOne now).Tracks position := by
  unfold Delivery.drainOne
  rcases t.manager.fillQueue.pop_spec with ⟨-, hpop⟩ | ⟨u, q, hpop, hitems⟩
  · rwa [hpop]
  · rw [hpop]
    exact h.applyNext now hitems

/-- `drain_fills`. -/
def drain (t : Delivery) (now : ℤ) : Delivery := Nat.iterate (·.drainOne now) (2 ^ 7) t

/-- Draining round by round is `drain_fills`. -/
theorem manager_drain (t : Delivery) (now : ℤ) :
    (t.drain now).manager = t.manager.drainFills now := by
  have hloop : ∀ n (t : Delivery),
      (Nat.iterate (·.drainOne now) n t).manager = OrderManager.drainLoop now n t.manager := by
    intro n
    induction n with
    | zero => exact fun _ => rfl
    | succ n ih =>
      intro t
      rw [Function.iterate_succ_apply, ih]
      unfold Delivery.drainOne
      cases hpop : t.manager.fillQueue.pop with
      | none => cases n <;> simp [OrderManager.drainLoop, hpop]
      | some r => simp [OrderManager.drainLoop, hpop, Delivery.applyNext]
  exact hloop _ t

theorem Tracks.drain (h : t.Tracks position) (now : ℤ) : (t.drain now).Tracks position := by
  have hloop : ∀ n, ∀ t : Delivery, t.Tracks position →
      (Nat.iterate (·.drainOne now) n t).Tracks position := by
    intro n
    induction n with
    | zero => exact fun _ h => h
    | succ n ih => exact fun t h => ih _ (h.drainOne now)
  exact hloop _ t h

/-- Draining leaves what is due alone. -/
theorem drain_frame (t : Delivery) (now : ℤ) :
    (t.drain now).due = t.due ∧ (t.drain now).sideOf = t.sideOf := by
  have hone : ∀ t : Delivery, (t.drainOne now).due = t.due ∧
    (t.drainOne now).sideOf = t.sideOf := by
    intro t
    unfold Delivery.drainOne
    split <;> exact ⟨rfl, rfl⟩
  have hloop : ∀ n, ∀ t : Delivery, (Nat.iterate (·.drainOne now) n t).due = t.due ∧
      (Nat.iterate (·.drainOne now) n t).sideOf = t.sideOf := by
    intro n
    induction n with
    | zero => exact fun _ => ⟨rfl, rfl⟩
    | succ n ih =>
      intro t
      obtain ⟨hdue, hside⟩ := ih (t.drainOne now)
      exact ⟨hdue.trans (hone t).1, hside.trans (hone t).2⟩
  exact hloop _ t

/-! ## Runs -/

theorem Tracks.step (h : t.Tracks position) {e : Event} (he : t.Roomy e) :
    (t.step e).Tracks position := by
  cases e with
  | submit order now result emitted => exact h.submit he.1 he.2
  | emit u => exact (h.emit he.1 he.2).1
  | drainOne now => exact h.drainOne now

theorem tracks_run {events : List Event}
    (hroomy : AllSteps Delivery.step Roomy (start position) events) :
    (events.foldl Delivery.step (start position)).Tracks position :=
  hroomy.foldl (fun _ _ h he => h.step he) (tracks_start position)

/-- **No fill is lost or duplicated** while no update finds the queue full: once the queue has
been drained, the updates applied are the updates due, each once and in order, and the position
has moved by the signed sum of their quantities. -/
theorem drained_run (position : ℚ) {events : List Event}
    (hroomy : AllSteps Delivery.step Roomy (start position) events) (now : ℤ) :
    let t := events.foldl Delivery.step (start position)
    (t.manager.drainFills now).fillQueue.items = [] ∧
      (t.drain now).manager = t.manager.drainFills now ∧ (t.drain now).applied = t.due ∧
      (t.manager.drainFills now).position = position + (t.due.map (credit t.sideOf)).sum := by
  intro t
  have h : (t.drain now).Tracks position := (tracks_run hroomy).drain now
  obtain ⟨hdue, hside⟩ := t.drain_frame now
  have hempty := t.manager.drainFills_items now
  have happlied : (t.drain now).applied = t.due := by
    rw [← hdue, h.due_eq, t.manager_drain now, hempty, Inbox.taken_nil, List.append_nil]
  refine ⟨hempty, t.manager_drain now, happlied, ?_⟩
  rw [← t.manager_drain now, h.position_eq, happlied, hside]

/-- The first of two fills of the order 1. -/
def firstFill : FillUpdate where
  clientOrderId := 1
  fillPrice := 1
  fillQty := 1
  cumulativeFilledQty := 1
  newState := .partiallyFilled

/-- The second fill, which completes the order. -/
def lastFill : FillUpdate where
  clientOrderId := 1
  fillPrice := 1
  fillQty := 2
  cumulativeFilledQty := 3
  newState := .filled

/-- An order to sell three, filled at its submission and after a first drain. -/
def twoFills : List Event :=
  [.submit { side := .ask, quantity := 3 } 1 .ok [firstFill], .drainOne 2, .emit lastFill]

theorem roomy_twoFills : AllSteps Delivery.step Roomy (start 5) twoFills := by
  refine ⟨⟨?_, ?_⟩, trivial, ⟨?_, ?_⟩, trivial⟩
  · intro u hu
    rw [List.mem_singleton.mp hu]
    exact le_rfl
  all_goals decide +kernel

/-- The position moves from whatever it was by the three sold. -/
theorem drained_run_twoFills :
    let t := twoFills.foldl Delivery.step (start 5)
    (t.drain 3).applied = t.due ∧ (t.manager.drainFills 3).position = 5 + -3 := by
  obtain ⟨-, -, happlied, hpos⟩ := drained_run 5 roomy_twoFills 3
  refine ⟨happlied, hpos.trans ?_⟩
  decide +kernel

/-- One order, filled in 128 parts before the queue is drained. -/
def flood : List Event :=
  .submit { quantity := 200 } 1 .ok [] :: List.replicate 128 (.emit firstFill)

/-- **The last of the updates is lost**: 128 are due, but the position moves by 127. -/
theorem flood_loses_fill :
    let t := flood.foldl Delivery.step (start 0)
    (t.due.map (credit t.sideOf)).sum = 128 ∧ (t.manager.drainFills 2).position = 127 ∧
      (t.drain 2).applied.length = 127 := by
  decide +kernel

end Delivery

end TradingInfrastructure
