import TradingInfrastructure.Orders.OrderManager
import TradingInfrastructure.Portfolio.Conservation

/-!
# The pending quantity of the ledger

Each record of the ledger keeps, for each side, the quantity of the open orders of its exchange
and symbol that is not filled. `Booked` says that it does so exactly. The operations keep it when
they change what an order has left and what its record has pending by the same quantity
(`Booked.update`), and then the totals of the ledger are those of the orders
(`Booked.pendingQty_eq`).
-/

namespace TradingInfrastructure

/-- The exchange and symbol of a record in use. -/
def VenuePosition.key (v : VenuePosition) : Option (Exchange × Symbol) :=
  if v.active then some (v.exchange, v.symbol) else none

/-- The exchange and symbol of an order. -/
def Order.venueKey (o : Order) : Exchange × Symbol := (o.exchange, o.symbol)

theorem VenuePosition.isFor_iff {v : VenuePosition} {ex : Exchange} {s : Symbol} :
    isFor ex s.chars v = true ↔ v.key = some (ex, s) := by
  simp only [isFor, key, Bool.and_eq_true, beq_iff_eq, strncmpEq_symbol]
  split <;> simp_all

namespace ManagedOrder

/-- What is left of an order of the given exchange, symbol and side. -/
def share (key : Exchange × Symbol) (side : Side) (mo : ManagedOrder) : ℚ :=
  if mo.active = true ∧ mo.order.venueKey = key ∧ mo.order.side = side then
    mo.order.quantity - mo.filledQty
  else 0

/-- What is left of an order on a side. -/
def outstanding (side : Side) (mo : ManagedOrder) : ℚ :=
  if mo.active = true ∧ mo.order.side = side then mo.order.quantity - mo.filledQty else 0

end ManagedOrder

/-- What is left of all orders of the given exchange, symbol and side. -/
def owed (slots : List ManagedOrder) (key : Exchange × Symbol) (side : Side) : ℚ :=
  (slots.map (·.share key side)).sum

/-- The ledger has the pending quantities of the orders in use, each in a record of its own. -/
structure Booked (slots : List ManagedOrder) (l : PositionLedger) : Prop where
  unique : SlotPool.KeysUnique VenuePosition.key l.venues
  known : ∀ mo ∈ slots, mo.active = true →
    SlotPool.HasKey VenuePosition.key l.venues mo.order.venueKey
  nonneg : ∀ mo ∈ slots, mo.active = true → mo.filledQty ≤ mo.order.quantity
  pending : ∀ v ∈ l.venues, ∀ key, v.key = some key → ∀ side,
    v.pendingQty side = owed slots key side

namespace Booked

variable {slots : List ManagedOrder} {l : PositionLedger} {i j : ℕ} {mo : ManagedOrder}

theorem share_nonneg (h : mo.active = true → mo.filledQty ≤ mo.order.quantity)
    (key : Exchange × Symbol) (side : Side) : 0 ≤ mo.share key side := by
  unfold ManagedOrder.share
  split
  · next hin => linarith [h hin.1]
  · exact le_rfl

/-- What is left of one order is no more than what is left of all. -/
theorem share_le_owed (h : Booked slots l) (hmo : mo ∈ slots) (key : Exchange × Symbol)
    (side : Side) : mo.share key side ≤ owed slots key side := by
  refine List.single_le_sum (fun q hq => ?_) _ (List.mem_map_of_mem hmo)
  obtain ⟨mo', hmo', rfl⟩ := List.mem_map.mp hq
  exact share_nonneg (h.nonneg mo' hmo') key side

/-- **An order and its record change together.** -/
theorem update (h : Booked slots l) {l' : PositionLedger} {v : VenuePosition}
    {g : VenuePosition → VenuePosition} {f : ManagedOrder → ManagedOrder}
    {key₀ : Exchange × Symbol} {side₀ : Side} {d : ℚ}
    (hv : l.venues[j]? = some v) (hkey : v.key = some key₀) (hgkey : (g v).key = v.key)
    (hl : l'.venues = l.venues.modify j g)
    (hg : ∀ side, (g v).pendingQty side = v.pendingQty side + if side = side₀ then d else 0)
    (hmo : slots[i]? = some mo)
    (hknown : (f mo).active = true → (f mo).order.venueKey = key₀)
    (hnonneg : (f mo).active = true → (f mo).filledQty ≤ (f mo).order.quantity)
    (hf : ∀ key side, (f mo).share key side - mo.share key side =
      if key = key₀ ∧ side = side₀ then d else 0) : Booked (slots.modify i f) l' := by
  have howed : ∀ key side, owed (slots.modify i f) key side =
      owed slots key side + if key = key₀ ∧ side = side₀ then d else 0 := by
    intro key side
    rw [owed, SlotPool.sum_map_modify hmo, hf, owed]
  have hhas : ∀ key, SlotPool.HasKey VenuePosition.key l'.venues key ↔
      SlotPool.HasKey VenuePosition.key l.venues key := by
    intro key
    rw [hl]
    exact SlotPool.hasKey_modify_of_same hv hgkey
  have hget : ∀ a, l.venues[j]? = some a → a = v := fun a ha => Option.some.inj (ha.symm.trans hv)
  refine ⟨?_, ?_, ?_, ?_⟩
  · rw [hl]
    exact h.unique.modify_of_key_eq fun a ha => Or.inl (hget a ha ▸ hgkey)
  · intro mo' hmo' hactive
    rw [hhas]
    rcases SlotPool.mem_modify hmo' with hmo' | ⟨old, hold, rfl⟩
    · exact h.known mo' hmo' hactive
    · obtain rfl : old = mo := Option.some.inj (hold.symm.trans hmo)
      rw [hknown hactive]
      exact ⟨v, List.mem_of_getElem? hv, hkey⟩
  · intro mo' hmo' hactive
    rcases SlotPool.mem_modify hmo' with hmo' | ⟨old, hold, rfl⟩
    · exact h.nonneg mo' hmo' hactive
    · obtain rfl : old = mo := Option.some.inj (hold.symm.trans hmo)
      exact hnonneg hactive
  · intro w hw key hwkey side
    rw [howed]
    rw [hl] at hw
    obtain ⟨m, hm⟩ := List.mem_iff_getElem?.mp hw
    rcases SlotPool.getElem?_modify_cases hm with ⟨hjm, hold⟩ | ⟨rfl, a, ha, rfl⟩
    · -- another record, of another exchange or symbol
      have hne : key ≠ key₀ := by
        rintro rfl
        exact hjm (h.unique j m v w key hv hold hkey hwkey)
      rw [if_neg fun hc => hne hc.1, add_zero]
      exact h.pending w (List.mem_of_getElem? hold) key hwkey side
    · obtain rfl := hget a ha
      rw [hgkey, hkey] at hwkey
      obtain rfl := Option.some.inj hwkey
      rw [hg, h.pending a (List.mem_of_getElem? hv) key₀ hkey side]
      simp

/-- **The pending quantity of the ledger is what is left of the orders.** -/
theorem pendingQty_eq (h : Booked slots l) (side : Side) :
    l.pendingQty side = (slots.map (·.outstanding side)).sum := by
  have hshare : ∀ mo ∈ slots, (∃ key₀, SlotPool.HasKey VenuePosition.key l.venues key₀ ∧
        ∀ key, mo.share key side = if key = key₀ then mo.outstanding side else 0) ∨
      (mo.outstanding side = 0 ∧ ∀ key, mo.share key side = 0) := by
    intro mo hmo
    by_cases hin : mo.active = true ∧ mo.order.side = side
    · refine Or.inl ⟨mo.order.venueKey, h.known mo hmo hin.1, fun key => ?_⟩
      simp only [ManagedOrder.share, ManagedOrder.outstanding, hin.1, hin.2, and_true, true_and,
        if_true, @eq_comm _ key]
    · exact Or.inr ⟨if_neg hin, fun key => if_neg fun hc => hin ⟨hc.1, hc.2.2⟩⟩
  have hactive : ∀ v : VenuePosition, v.active = v.key.isSome := by
    intro v
    cases hv : v.active <;> simp [VenuePosition.key, hv]
  have hpart : ∀ v ∈ l.venues, ∀ key, v.key = some key →
      (if v.active then v.pendingQty side else 0) = (slots.map (·.share key side)).sum := by
    intro v hv key hkey
    rw [hactive, hkey]
    exact h.pending v hv key hkey side
  have hidle : ∀ v ∈ l.venues, v.key = none → (if v.active then v.pendingQty side else 0) = 0 := by
    intro v _ hkey
    rw [hactive, hkey]
    rfl
  rw [← h.unique.sum_shares hshare hpart hidle, PositionLedger.pendingQty]
  induction l.venues with
  | nil => rfl
  | cons v vs ih => cases hv : v.active <;> simp [hv, ih]

/-! ## The operations of the ledger -/

/-- The record of an order in use. -/
theorem findVenue_of_hasKey {o : Order}
    (h : SlotPool.HasKey VenuePosition.key l.venues o.venueKey) :
    ∃ j v, l.findVenue o.exchange o.symbol.chars = some j ∧ l.venues[j]? = some v ∧
      v.key = some o.venueKey := by
  obtain ⟨w, hw, hwkey⟩ := h
  obtain ⟨j, hj⟩ := SlotPool.exists_findIdx? hw (VenuePosition.isFor_iff.mpr hwkey)
  obtain ⟨v, hv, hfound, -⟩ := SlotPool.getElem?_of_findIdx? hj
  exact ⟨j, v, hj, hv, VenuePosition.isFor_iff.mp hfound⟩

/-- Looking up a record, or taking a free slot for it. -/
theorem findOrCreate (h : Booked slots l) {l' : PositionLedger} {o : Order}
    (hfind : l.findOrCreateVenue o.exchange o.symbol.chars = some (l', j)) :
    Booked slots l' ∧ ∃ v, l'.venues[j]? = some v ∧ v.key = some o.venueKey := by
  unfold PositionLedger.findOrCreateVenue at hfind
  cases hf : l.findVenue o.exchange o.symbol.chars with
  | some i =>
    simp only [hf, Option.some.injEq, Prod.mk.injEq] at hfind
    obtain ⟨rfl, rfl⟩ := hfind
    obtain ⟨v, hv, hfound, -⟩ := SlotPool.getElem?_of_findIdx? hf
    exact ⟨h, v, hv, VenuePosition.isFor_iff.mp hfound⟩
  | none =>
    cases hfree : l.findFreeSlot with
    | none => simp [hf, hfree] at hfind
    | some i =>
      simp only [hf, hfree, Option.some.injEq, Prod.mk.injEq] at hfind
      obtain ⟨rfl, rfl⟩ := hfind
      obtain ⟨free, hv, hinactive, -⟩ := SlotPool.getElem?_of_findIdx? hfree
      have hfreekey : free.key = none := by
        have : free.active = false := by simpa using hinactive
        simp [VenuePosition.key, this]
      -- no record answers to the key yet, so no order in use does
      have hnone : ¬ SlotPool.HasKey VenuePosition.key l.venues o.venueKey := by
        intro hc
        obtain ⟨_, _, hsome, -⟩ := findVenue_of_hasKey hc
        rw [hf] at hsome
        cases hsome
      have howed : ∀ side, owed slots o.venueKey side = 0 := by
        intro side
        refine List.sum_eq_zero fun q hq => ?_
        obtain ⟨mo, hmo, rfl⟩ := List.mem_map.mp hq
        refine if_neg fun hc => hnone ?_
        rw [← hc.2.1]
        exact h.known mo hmo hc.1
      set fresh : VenuePosition :=
        { exchange := o.exchange, active := true, symbol := copySymbol o.symbol.chars } with hfresh
      have hkey : fresh.key = some o.venueKey := by
        simp [hfresh, VenuePosition.key, Order.venueKey]
      refine ⟨⟨?_, ?_, h.nonneg, ?_⟩, fresh, by simp [hv], hkey⟩
      · refine h.unique.modify fun a k ha hk m b _ hb hkb => hnone ?_
        rw [hkey] at hk
        exact ⟨b, List.mem_of_getElem? hb, hkb.trans hk.symm⟩
      · intro mo hmo hactive
        exact (SlotPool.hasKey_modify_of_take hv hfreekey hkey).mpr
          (Or.inl (h.known mo hmo hactive))
      · intro w hw key hwkey side
        rcases SlotPool.mem_modify hw with hw | ⟨-, -, rfl⟩
        · exact h.pending w hw key hwkey side
        · obtain rfl := Option.some.inj (hkey.symm.trans hwkey)
          rw [howed]
          cases side <;> rfl

theorem key_releasePending (v : VenuePosition) (side : Side) (qty : ℚ) :
    (v.releasePending side qty).key = v.key := by
  cases side <;> rfl

theorem key_addPending (v : VenuePosition) (side : Side) (qty : ℚ) :
    (v.addPending side qty).key = v.key := by
  cases side <;> rfl

theorem pendingQty_addPending (v : VenuePosition) (side₀ : Side) (qty : ℚ) (side : Side) :
    (v.addPending side₀ qty).pendingQty side =
      v.pendingQty side + if side = side₀ then qty else 0 := by
  cases side <;> cases side₀ <;> simp [VenuePosition.addPending, VenuePosition.pendingQty]

/-- As long as no more is released than is pending, the guard at zero does nothing. -/
theorem pendingQty_releasePending {v : VenuePosition} {side₀ : Side} {qty : ℚ}
    (h : qty ≤ v.pendingQty side₀) (side : Side) :
    (v.releasePending side₀ qty).pendingQty side =
      v.pendingQty side + if side = side₀ then -qty else 0 := by
  cases side <;> cases side₀ <;>
    simp_all [VenuePosition.releasePending, VenuePosition.pendingQty, sub_eq_add_neg]

/-- A fill of the inventory changes no pending quantity. -/
theorem applyInventoryFill_pending (v : VenuePosition) (side : Side) (qty price : ℚ) (now : ℤ) :
    (v.applyInventoryFill side qty price now).key = v.key ∧
      ∀ s, (v.applyInventoryFill side qty price now).pendingQty s = v.pendingQty s := by
  obtain ⟨_, _, _, _, _, h⟩ := v.applyInventoryFill_frame side qty price now
  rw [h]
  exact ⟨rfl, fun s => by cases s <;> rfl⟩

/-- **`on_order_submitted`** books a new order. -/
theorem submitted (h : Booked slots l) {mo₀ : ManagedOrder} (hslot : slots[i]? = some mo₀)
    (hfree : mo₀.active = false) {o : Order} (hqty : 0 ≤ o.quantity)
    (hroom : l.HasRoomFor o.exchange o.symbol.chars) :
    Booked (slots.modify i fun _ => { order := o, active := true }) (l.onOrderSubmitted o) := by
  obtain ⟨⟨l', j⟩, hfind⟩ := Option.isSome_iff_exists.mp hroom
  obtain ⟨h', v, hv, hkey⟩ := h.findOrCreate hfind
  refine h'.update (g := fun v => v.addPending o.side o.quantity) (d := o.quantity) hv hkey
    (key_addPending v o.side o.quantity) ?_ (pendingQty_addPending v o.side o.quantity) hslot
    (fun _ => rfl) (fun _ => by simpa using hqty) ?_
  · simp only [PositionLedger.onOrderSubmitted, hfind]
    rfl
  · intro key side
    simp only [ManagedOrder.share, hfree, Bool.false_eq_true, false_and, if_false, true_and,
      sub_zero, @eq_comm _ key, @eq_comm _ side]

/-- **`on_fill`** releases what is filled of an order. -/
theorem filled (h : Booked slots l) (hslot : slots[i]? = some mo) (hactive : mo.active = true)
    {u : FillUpdate} (hle : mo.filledQty + u.fillQty ≤ mo.order.quantity) (now : ℤ)
    {f : ManagedOrder → ManagedOrder} (hf : (f mo).order = mo.order)
    (hnonneg : (f mo).active = true → (f mo).filledQty ≤ (f mo).order.quantity)
    (hshare : ∀ key side, (f mo).share key side - mo.share key side =
      if key = mo.order.venueKey ∧ side = mo.order.side then -u.fillQty else 0) :
    Booked (slots.modify i f) (l.onFill mo.order u now) := by
  have hmem := List.mem_of_getElem? hslot
  obtain ⟨j, v, hfind, hv, hkey⟩ := findVenue_of_hasKey (h.known mo hmem hactive)
  have hpending : u.fillQty ≤ v.pendingQty mo.order.side := by
    rw [h.pending v (List.mem_of_getElem? hv) _ hkey]
    refine le_trans ?_ (h.share_le_owed hmem mo.order.venueKey mo.order.side)
    simp only [ManagedOrder.share, hactive, and_self, if_true]
    linarith
  obtain ⟨hfillkey, hfillpending⟩ := applyInventoryFill_pending
    (v.releasePending mo.order.side u.fillQty) mo.order.side u.fillQty u.fillPrice now
  refine h.update (g := fun v => (v.releasePending mo.order.side u.fillQty).applyInventoryFill
      mo.order.side u.fillQty u.fillPrice now) hv hkey (hfillkey.trans (key_releasePending ..)) ?_
    (fun side => (hfillpending side).trans (pendingQty_releasePending hpending side)) hslot
    (fun _ => by rw [hf]) hnonneg hshare
  simp only [PositionLedger.onFill, PositionLedger.findOrCreateVenue, hfind]
  rfl

/-- **`on_order_closed`** releases what is left of an order. -/
theorem closed (h : Booked slots l) (hslot : slots[i]? = some mo)
    (hknown : SlotPool.HasKey VenuePosition.key l.venues mo.order.venueKey) {rest : ℚ}
    (hrest : 0 ≤ rest) (hle : rest ≤ owed slots mo.order.venueKey mo.order.side)
    {f : ManagedOrder → ManagedOrder} (hf : (f mo).order = mo.order)
    (hnonneg : (f mo).active = true → (f mo).filledQty ≤ (f mo).order.quantity)
    (hshare : ∀ key side, (f mo).share key side - mo.share key side =
      if key = mo.order.venueKey ∧ side = mo.order.side then -rest else 0) :
    Booked (slots.modify i f) (l.onOrderClosed mo.order rest) := by
  obtain ⟨j, v, hfind, hv, hkey⟩ := findVenue_of_hasKey hknown
  have hpending : max 0 rest ≤ v.pendingQty mo.order.side := by
    rw [h.pending v (List.mem_of_getElem? hv) _ hkey, max_eq_right hrest]
    exact hle
  have hrelease := pendingQty_releasePending hpending
  rw [max_eq_right hrest] at hrelease
  refine h.update (g := fun v => v.releasePending mo.order.side (max 0 rest)) hv hkey
    (key_releasePending v mo.order.side (max 0 rest)) ?_ (fun side => ?_) hslot
    (fun _ => by rw [hf]) hnonneg hshare
  · simp only [PositionLedger.onOrderClosed, hfind]
    rfl
  · simpa only [max_eq_right hrest] using hrelease side

/-- An order that has nothing left closes without a change. -/
theorem onOrderClosed_zero (h : Booked slots l) (o : Order) : l.onOrderClosed o 0 = l := by
  unfold PositionLedger.onOrderClosed
  cases hf : l.findVenue o.exchange o.symbol.chars with
  | none => rfl
  | some j =>
    obtain ⟨v, hv, hfound, -⟩ := SlotPool.getElem?_of_findIdx? hf
    have hpending : 0 ≤ v.pendingQty o.side := by
      rw [h.pending v (List.mem_of_getElem? hv) _ (VenuePosition.isFor_iff.mp hfound)]
      refine List.sum_nonneg fun q hq => ?_
      obtain ⟨mo, hmo, rfl⟩ := List.mem_map.mp hq
      exact share_nonneg (h.nonneg mo hmo) _ _
    have hsame : v.releasePending o.side (max 0 0) = v := by
      cases hs : o.side <;> rw [hs] at hpending <;>
        simp [VenuePosition.releasePending, VenuePosition.pendingQty] at hpending ⊢ <;>
        rw [max_eq_right hpending]
    have hvenues : l.venues.modify j (fun v => v.releasePending o.side (max 0 0)) = l.venues := by
      refine List.ext_getElem? fun m => ?_
      by_cases hjm : j = m
      · subst hjm
        rw [List.getElem?_modify_eq, hv]
        simpa using hsame
      · rw [List.getElem?_modify_ne _ _ hjm]
    simp only [PositionLedger.modifyVenue, hvenues]

/-- An order that is given up before it is booked. -/
theorem refused (h : Booked slots l) (hslot : slots[i]? = some mo) (hfree : mo.active = false)
    {f : ManagedOrder → ManagedOrder} (hf : (f mo).active = false) :
    Booked (slots.modify i f) l := by
  have howed : ∀ key side, owed (slots.modify i f) key side = owed slots key side := by
    intro key side
    rw [owed, SlotPool.sum_map_modify hslot, owed]
    simp [ManagedOrder.share, hf, hfree]
  refine ⟨h.unique, ?_, ?_, ?_⟩
  · refine SlotPool.forall_mem_modify h.known fun a ha hactive => ?_
    obtain rfl : a = mo := Option.some.inj (ha.symm.trans hslot)
    simp [hf] at hactive
  · refine SlotPool.forall_mem_modify h.nonneg fun a ha hactive => ?_
    obtain rfl : a = mo := Option.some.inj (ha.symm.trans hslot)
    simp [hf] at hactive
  · intro v hv key hkey side
    rw [howed]
    exact h.pending v hv key hkey side

end Booked

end TradingInfrastructure
