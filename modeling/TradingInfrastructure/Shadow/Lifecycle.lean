import TradingInfrastructure.Shadow.Accounting

/-!
# The life of a shadow order

Every order that a shadow connector takes is live in one slot, until one update of it ends it
(`ShadowSession.run_lives`). The updates of the order tell the same as its slot: how much of it is
filled, up to the tolerance, and whether it is live.

The orders of a run have distinct client ids and positive quantities, as a slot without a quantity
is one that was never used.
-/

namespace TradingInfrastructure

/-! ## The updates of an order -/

/-- The updates of the order with this client id. -/
def ShadowAccounts.updatesOf (a : ShadowAccounts) (clientOrderId : ℕ) : List FillUpdate :=
  a.updates.filter (·.clientOrderId = clientOrderId)

namespace FillUpdate

/-- The sum of the quantities of the fills. -/
def emittedQty (us : List FillUpdate) : ℚ := (us.map FillUpdate.fillQty).sum

/-- The filled quantity of the order, as the last fill reports it. -/
def reportedQty (us : List FillUpdate) : ℚ :=
  ((us.filter fun u => 0 < u.fillQty).getLast?.map FillUpdate.cumulativeFilledQty).getD 0

/-- No update ends the order. -/
def Running (us : List FillUpdate) : Prop := ∀ u ∈ us, u.newState.terminal = false

/-- The last update ends the order, and no other. -/
def Ended (us : List FillUpdate) : Prop :=
  ∃ before last, us = before ++ [last] ∧ Running before ∧ last.newState.terminal = true

variable {us : List FillUpdate} {u : FillUpdate}

@[simp] theorem emittedQty_concat : emittedQty (us ++ [u]) = emittedQty us + u.fillQty := by
  simp [emittedQty]

theorem reportedQty_fill (h : 0 < u.fillQty) :
    reportedQty (us ++ [u]) = u.cumulativeFilledQty := by
  simp [reportedQty, h]

theorem reportedQty_other (h : u.fillQty = 0) : reportedQty (us ++ [u]) = reportedQty us := by
  simp [reportedQty, h]

theorem Running.concat (h : Running us) (hu : u.newState.terminal = false) :
    Running (us ++ [u]) := by
  intro v hv
  rcases List.mem_append.mp hv with hv | hv
  · exact h v hv
  · exact List.mem_singleton.mp hv ▸ hu

theorem Running.ended (h : Running us) (hu : u.newState.terminal = true) : Ended (us ++ [u]) :=
  ⟨us, u, rfl, h, hu⟩

theorem Ended.not_running (h : Ended us) : ¬ Running us := by
  obtain ⟨before, last, rfl, -, hlast⟩ := h
  intro hrunning
  rw [hrunning last (by simp)] at hlast
  cases hlast

/-- After the update that ends the order there is none. -/
theorem Ended.eq_nil (h : Ended us) {before after : List FillUpdate}
    (hus : us = before ++ u :: after) (hu : u.newState.terminal = true) : after = [] := by
  obtain ⟨init, last, rfl, hrunning, -⟩ := h
  rcases List.eq_nil_or_concat after with rfl | ⟨rest, v, rfl⟩
  · rfl
  · rw [List.concat_eq_append, ← List.cons_append, ← List.append_assoc] at hus
    have hinit : init = before ++ u :: rest := (List.append_inj' hus rfl).1
    have hrun := hrunning u (by simp [hinit])
    rw [hu] at hrun
    cases hrun

end FillUpdate

namespace ShadowOrder

/-- The slot of an order and the updates of the order tell the same. -/
structure Tells (s : ShadowOrder) (us : List FillUpdate) : Prop where
  nonneg : 0 ≤ s.filledQty
  le : s.filledQty ≤ s.quantity
  reported : FillUpdate.reportedQty us = s.filledQty
  emitted : |FillUpdate.emittedQty us - s.filledQty| ≤ fillTolerance
  running : s.active = true → FillUpdate.Running us ∧ FillUpdate.emittedQty us = s.filledQty ∧
    (s.filledQty = 0 ∨ s.filledQty < s.quantity - fillTolerance)
  ended : s.active = false → FillUpdate.Ended us

variable {cfg : ShadowConfig} {book : OrderBook} {now : ℤ} {cancels crosses : Prop}
  {a : ShadowAccounts} {s : ShadowOrder} {r : ShadowAccounts × ShadowOrder} {us : List FillUpdate}

theorem Tells.remaining (h : s.Tells us) (hactive : s.active = true) (hquantity : 0 < s.quantity) :
    0 < s.quantity - s.filledQty := by
  obtain ⟨-, -, hzero | hless⟩ := h.running hactive
  · rwa [hzero, sub_zero]
  · have := fillTolerance_pos
    linarith

/-- An update that ends an active order and fills nothing. -/
theorem Tells.endedBy (h : s.Tells us) (hactive : s.active = true) {u : FillUpdate}
    (hfill : u.fillQty = 0) (hterminal : u.newState.terminal = true) :
    { s with active := false }.Tells (us ++ [u]) where
  nonneg := h.nonneg
  le := h.le
  reported := (FillUpdate.reportedQty_other hfill).trans h.reported
  emitted := by
    rw [FillUpdate.emittedQty_concat, hfill, add_zero]
    exact h.emitted
  running := fun hfalse => by cases hfalse
  ended := fun _ => (h.running hactive).1.ended hterminal

/-- **A fill of an active order.** -/
theorem Tells.fill (h : s.Tells us) (hactive : s.active = true) {fillPx fillQty : ℚ}
    (hpos : 0 < fillQty) (hle : fillQty ≤ s.quantity - s.filledQty) :
    (s.filledBy fillPx fillQty).Tells
      (us ++ [(s.filledBy fillPx fillQty).fillUpdate fillPx fillQty now]) := by
  obtain ⟨hrunning, hemitted, -⟩ := h.running hactive
  have htolerance := fillTolerance_pos
  have hnonneg := h.nonneg
  by_cases hcomplete : s.quantity - fillTolerance ≤ s.filledQty + fillQty
  · have hfilled : (s.filledBy fillPx fillQty).filledQty = s.quantity := by
      simp [filledBy, hcomplete]
    have hinactive : (s.filledBy fillPx fillQty).active = false := by
      simp [filledBy, hcomplete]
    have hquantity : (s.filledBy fillPx fillQty).quantity = s.quantity := rfl
    refine ⟨?_, ?_, ?_, ?_, fun hfalse => ?_, fun _ => hrunning.ended ?_⟩
    · rw [hfilled]
      linarith
    · rw [hfilled, hquantity]
    · exact FillUpdate.reportedQty_fill hpos
    · rw [hfilled, FillUpdate.emittedQty_concat, hemitted, fillUpdate, abs_le]
      constructor <;> linarith
    · rw [hinactive] at hfalse
      cases hfalse
    · simp [fillUpdate, hfilled, hquantity, OrderState.terminal]
  · have hfilled : (s.filledBy fillPx fillQty).filledQty = s.filledQty + fillQty := by
      simp [filledBy, hcomplete]
    have hstays : (s.filledBy fillPx fillQty).active = true := by
      simp [filledBy, hcomplete, hactive]
    have hquantity : (s.filledBy fillPx fillQty).quantity = s.quantity := rfl
    rw [not_le] at hcomplete
    have hsum : FillUpdate.emittedQty (us ++ [(s.filledBy fillPx fillQty).fillUpdate fillPx fillQty
        now]) = (s.filledBy fillPx fillQty).filledQty := by
      rw [hfilled, FillUpdate.emittedQty_concat, hemitted, fillUpdate]
    refine ⟨?_, ?_, ?_, ?_, fun _ => ⟨hrunning.concat ?_, hsum, Or.inr ?_⟩, fun hfalse => ?_⟩
    · rw [hfilled]
      linarith
    · rw [hfilled, hquantity]
      linarith
    · exact FillUpdate.reportedQty_fill hpos
    · rw [hsum, sub_self, abs_zero]
      exact htolerance.le
    · have hpartial : ¬ s.quantity ≤ s.filledQty + fillQty := by linarith
      simp [fillUpdate, hfilled, hquantity, hpartial, OrderState.terminal]
    · rw [hfilled, hquantity]
      exact hcomplete
    · rw [hstays] at hfalse
      cases hfalse

/-- A visit changes neither the client id nor the quantity of the order. -/
theorem SlotStep.frame (h : s.SlotStep cfg book now cancels crosses a r) :
    r.2.clientOrderId = s.clientOrderId ∧ r.2.quantity = s.quantity := by
  cases h with
  | quiet => exact ⟨rfl, rfl⟩
  | fill queueAhead px qty _ hpos =>
    simp only [applyFill, not_le.mpr hpos, if_false]
    exact ⟨rfl, rfl⟩
  | cancel => exact ⟨rfl, rfl⟩
  | reject => exact ⟨rfl, rfl⟩

variable {r : ShadowAccounts × ShadowOrder} {us : List FillUpdate}

/-- **What a visit emits, it tells of the order.** -/
theorem SlotStep.tells (h : s.SlotStep cfg book now cancels crosses a r)
    (hquantity : 0 < s.quantity) (hs : s.Tells us) :
    ∃ new, r.1.updates = a.updates ++ new ∧ (∀ u ∈ new, u.clientOrderId = s.clientOrderId) ∧
      r.2.Tells (us ++ new) := by
  cases h with
  | quiet queueAhead maker active hactive hdrop =>
    have hsame : active = s.active := by
      cases hs' : s.active with
      | false =>
        rw [hs'] at hactive
        exact Bool.eq_false_iff.mpr fun h => Bool.noConfusion (hactive h)
      | true =>
        rcases hdrop hs' with h | h
        · exact h
        · exact absurd h (not_le.mpr (hs.remaining hs' hquantity))
    subst hsame
    refine ⟨[], by simp, fun _ h => absurd h List.not_mem_nil, ?_⟩
    rw [List.append_nil]
    exact ⟨hs.nonneg, hs.le, hs.reported, hs.emitted, hs.running, hs.ended⟩
  | fill queueAhead px qty hactive hpos hle =>
    have hslot : { s with queueAheadQty := queueAhead }.Tells us :=
      ⟨hs.nonneg, hs.le, hs.reported, hs.emitted, hs.running, hs.ended⟩
    simp only [applyFill, not_le.mpr hpos, if_false]
    refine ⟨[_], by rw [ShadowAccounts.emit, ShadowAccounts.updates_bookFill], ?_,
      hslot.fill hactive hpos hle⟩
    exact fun u hu => by rw [List.mem_singleton.mp hu]; rfl
  | cancel hactive =>
    refine ⟨[s.cancelUpdate now], rfl, ?_, hs.endedBy hactive rfl rfl⟩
    exact fun u hu => by rw [List.mem_singleton.mp hu]; rfl
  | reject reason hactive =>
    refine ⟨[s.rejectUpdate reason now], rfl, ?_, hs.endedBy hactive rfl rfl⟩
    exact fun u hu => by rw [List.mem_singleton.mp hu]; rfl

/-- A visit to a slot without an active order does nothing. -/
theorem SlotStep.idle (h : s.SlotStep cfg book now cancels crosses a r) (hs : s.active = false) :
    r.1 = a ∧ r.2.active = false ∧ r.2.filledQty = s.filledQty := by
  cases h with
  | quiet queueAhead maker active hactive =>
    refine ⟨rfl, Bool.eq_false_iff.mpr fun h => ?_, rfl⟩
    rw [hactive h] at hs
    cases hs
  | fill _ _ _ hactive => exact absurd hactive (by simp [hs])
  | cancel hactive => exact absurd hactive (by simp [hs])
  | reject _ hactive => exact absurd hactive (by simp [hs])

end ShadowOrder

/-! ## The orders that the connector took -/

/-- The client id of a slot that was used. -/
def ShadowOrder.usedId (s : ShadowOrder) : Option ℕ :=
  if s.quantity = 0 then none else some s.clientOrderId

/-- An order that has ended: what its updates tell of it. -/
structure Order.Finished (o : Order) (us : List FillUpdate) : Prop where
  nonneg : 0 ≤ FillUpdate.reportedQty us
  le : FillUpdate.reportedQty us ≤ o.quantity
  emitted : |FillUpdate.emittedQty us - FillUpdate.reportedQty us| ≤ ShadowOrder.fillTolerance
  ended : FillUpdate.Ended us

/-- Every slot that was used tells of an order that was taken, and every order that was taken has a
slot or has ended. -/
structure ShadowAccounts.Lives (taken : List Order) (a : ShadowAccounts)
    (slots : List ShadowOrder) : Prop where
  distinct : (taken.map Order.clientOrderId).Nodup
  positive : ∀ o ∈ taken, 0 < o.quantity
  unused : ∀ s ∈ slots, s.quantity = 0 → s.active = false ∧ s.filledQty = 0
  used : ∀ s ∈ slots, s.quantity ≠ 0 → ∃ o ∈ taken, o.clientOrderId = s.clientOrderId ∧
    o.quantity = s.quantity ∧ s.Tells (a.updatesOf s.clientOrderId)
  unique : SlotPool.KeysUnique ShadowOrder.usedId slots
  orders : ∀ o ∈ taken, o.Finished (a.updatesOf o.clientOrderId) ∨
    SlotPool.HasKey ShadowOrder.usedId slots o.clientOrderId
  known : ∀ u ∈ a.updates, ∃ o ∈ taken, o.clientOrderId = u.clientOrderId

namespace ShadowAccounts

variable {taken : List Order} {a a' : ShadowAccounts} {slots : List ShadowOrder} {i : ℕ}
  {s s' : ShadowOrder} {new : List FillUpdate} {id : ℕ}

/-- The updates of the order of which something is emitted. -/
theorem updatesOf_append_self (h : a'.updates = a.updates ++ new)
    (hnew : ∀ u ∈ new, u.clientOrderId = id) : a'.updatesOf id = a.updatesOf id ++ new := by
  have hfilter : new.filter (·.clientOrderId = id) = new :=
    List.filter_eq_self.mpr fun u hu => decide_eq_true (hnew u hu)
  rw [updatesOf, h, List.filter_append, hfilter, updatesOf]

/-- The updates of another order. -/
theorem updatesOf_append_other (h : a'.updates = a.updates ++ new) {id' : ℕ}
    (hnew : ∀ u ∈ new, u.clientOrderId = id) (hne : id' ≠ id) :
    a'.updatesOf id' = a.updatesOf id' := by
  have hfilter : new.filter (·.clientOrderId = id') = [] :=
    List.filter_eq_nil_iff.mpr fun u hu => by simp [hnew u hu, hne.symm]
  rw [updatesOf, h, List.filter_append, hfilter, List.append_nil, updatesOf]

/-- **A visit that tells what it emits.** -/
theorem Lives.visit (h : a.Lives taken slots) (hi : slots[i]? = some s)
    (hused : s.quantity ≠ 0) (hid : s'.clientOrderId = s.clientOrderId)
    (hquantity : s'.quantity = s.quantity) (hupdates : a'.updates = a.updates ++ new)
    (hnew : ∀ u ∈ new, u.clientOrderId = s.clientOrderId)
    (htells : s'.Tells (a.updatesOf s.clientOrderId ++ new)) :
    a'.Lives taken (slots.set i s') := by
  have hmem := List.mem_of_getElem? hi
  have hkey : s'.usedId = s.usedId := by
    rw [ShadowOrder.usedId, hid, hquantity, ShadowOrder.usedId]
  have hself := updatesOf_append_self hupdates hnew
  obtain ⟨o, ho, hoid, hoquantity, -⟩ := h.used s hmem hused
  -- a used slot elsewhere is of another order
  have hother : ∀ (j : ℕ) t, j ≠ i → slots[j]? = some t → t.quantity ≠ 0 →
      a'.updatesOf t.clientOrderId = a.updatesOf t.clientOrderId := by
    intro j t hj ht hne
    refine updatesOf_append_other hupdates hnew fun heq => hj ?_
    exact h.unique j i t s t.clientOrderId ht hi (if_neg hne) (by
      rw [heq]
      exact if_neg hused)
  rw [List.set_eq_modify]
  constructor
  · exact h.distinct
  · exact h.positive
  · refine SlotPool.forall_mem_modify h.unused fun _ _ hzero => ?_
    exact absurd (hquantity ▸ hzero) hused
  · intro t ht hne
    obtain ⟨j, hj⟩ := List.mem_iff_getElem?.mp ht
    rcases SlotPool.getElem?_modify_cases hj with ⟨hij, hold⟩ | ⟨-, -, -, rfl⟩
    · obtain ⟨o', ho', hid', hquantity', htells'⟩ := h.used t (List.mem_of_getElem? hold) hne
      refine ⟨o', ho', hid', hquantity', ?_⟩
      rwa [hother j t hij.symm hold hne]
    · refine ⟨o, ho, hoid.trans hid.symm, hoquantity.trans hquantity.symm, ?_⟩
      rwa [hid, hself]
  · exact h.unique.modify_of_key_eq fun t ht => by
      obtain rfl : s = t := Option.some.inj (hi.symm.trans ht)
      exact Or.inl hkey
  · intro o' ho'
    rw [SlotPool.hasKey_modify_of_same hi hkey]
    by_cases hid' : o'.clientOrderId = s.clientOrderId
    · exact Or.inr ⟨s, hmem, by rw [hid', ShadowOrder.usedId, if_neg hused]⟩
    · rw [updatesOf_append_other hupdates hnew hid']
      exact h.orders o' ho'
  · intro u hu
    rw [hupdates] at hu
    rcases List.mem_append.mp hu with hu | hu
    · exact h.known u hu
    · exact ⟨o, ho, hoid.trans (hnew u hu).symm⟩

/-- A visit to a slot that was never used. -/
theorem Lives.visit_unused (h : a.Lives taken slots) (hi : slots[i]? = some s)
    (hzero : s.quantity = 0) (hzero' : s'.quantity = 0) (hidle : s'.active = false)
    (hfilled : s'.filledQty = 0) : a.Lives taken (slots.set i s') := by
  have hkey : s.usedId = none := if_pos hzero
  have hkey' : s'.usedId = none := if_pos hzero'
  rw [List.set_eq_modify]
  constructor
  · exact h.distinct
  · exact h.positive
  · exact SlotPool.forall_mem_modify h.unused fun _ _ _ => ⟨hidle, hfilled⟩
  · exact SlotPool.forall_mem_modify h.used fun _ _ hne => absurd hzero' hne
  · exact h.unique.modify_of_key_eq fun _ _ => Or.inr hkey'
  · intro o ho
    rw [SlotPool.hasKey_modify_of_same hi (hkey'.trans hkey.symm)]
    exact h.orders o ho
  · exact h.known

/-- A visit of `check_fills`, `cancel_order` or `cancel_all`. -/
theorem Lives.step (h : a.Lives taken slots) (hi : slots[i]? = some s) {cfg : ShadowConfig}
    {book : OrderBook} {now : ℤ} {cancels crosses : Prop} {r : ShadowAccounts × ShadowOrder}
    (hstep : s.SlotStep cfg book now cancels crosses a r) : r.1.Lives taken (slots.set i r.2) := by
  obtain ⟨hid, hquantity⟩ := hstep.frame
  by_cases hused : s.quantity = 0
  · obtain ⟨hidle, hfilled⟩ := h.unused s (List.mem_of_getElem? hi) hused
    obtain ⟨haccounts, hidle', hfilled'⟩ := hstep.idle hidle
    rw [haccounts]
    exact h.visit_unused hi hused (hquantity.trans hused) hidle' (hfilled'.trans hfilled)
  · obtain ⟨o, ho, -, hoquantity, htells⟩ := h.used s (List.mem_of_getElem? hi) hused
    obtain ⟨new, hupdates, hnew, htells'⟩ := hstep.tells (hoquantity ▸ h.positive o ho) htells
    exact h.visit hi hused hid hquantity hupdates hnew htells'

/-- Two orders that were taken have different client ids. -/
theorem Lives.inj (h : a.Lives taken slots) {o o' : Order} (ho : o ∈ taken) (ho' : o' ∈ taken)
    (hid : o.clientOrderId = o'.clientOrderId) : o = o' :=
  List.inj_on_of_nodup_map h.distinct ho ho' hid

/-- The order in a used slot that is not active has ended. -/
theorem Lives.finished (h : a.Lives taken slots) (hs : s ∈ slots) (hidle : s.active = false)
    {o : Order} (ho : o ∈ taken) (hkey : s.usedId = some o.clientOrderId) :
    o.Finished (a.updatesOf o.clientOrderId) := by
  rw [ShadowOrder.usedId] at hkey
  split at hkey
  · cases hkey
  · next hne =>
    obtain ⟨o', ho', hid, hquantity, htells⟩ := h.used s hs hne
    obtain rfl : o' = o := h.inj ho' ho (hid.trans (Option.some.inj hkey))
    rw [hid]
    have hreported := htells.reported
    constructor
    · exact hreported.symm ▸ htells.nonneg
    · exact hreported.symm ▸ hquantity.symm ▸ htells.le
    · exact hreported.symm ▸ htells.emitted
    · exact htells.ended hidle

/-- **An order takes a slot that is not active.** -/
theorem Lives.take (h : a.Lives taken slots) (hi : slots[i]? = some s) (hidle : s.active = false)
    {o : Order} (hpos : 0 < o.quantity)
    (hfresh : o.clientOrderId ∉ taken.map Order.clientOrderId) (cfg : ShadowConfig)
    (book : OrderBook) (now : ℤ) :
    a.Lives (taken ++ [o]) (slots.set i (ShadowConnector.newOrder cfg book now o)) := by
  have hne : (ShadowConnector.newOrder cfg book now o).quantity ≠ 0 := hpos.ne'
  have hkey : (ShadowConnector.newOrder cfg book now o).usedId = some o.clientOrderId := if_neg hne
  have hnone : a.updatesOf o.clientOrderId = [] := by
    refine List.filter_eq_nil_iff.mpr fun u hu => ?_
    obtain ⟨o', ho', hid⟩ := h.known u hu
    simp only [decide_eq_true_eq]
    exact fun heq => hfresh (List.mem_map.mpr ⟨o', ho', hid.trans heq⟩)
  have htells : (ShadowConnector.newOrder cfg book now o).Tells [] :=
    ⟨le_rfl, hpos.le, rfl, by simpa [FillUpdate.emittedQty, ShadowConnector.newOrder] using
      ShadowOrder.fillTolerance_pos.le, fun _ => ⟨fun u hu => absurd hu List.not_mem_nil, rfl,
        Or.inl rfl⟩, fun hfalse => by cases hfalse⟩
  rw [List.set_eq_modify]
  constructor
  · rw [List.map_append, List.nodup_append]
    refine ⟨h.distinct, List.nodup_singleton _, fun id hid id' hid' heq => hfresh ?_⟩
    rwa [← List.mem_singleton.mp hid', ← heq]
  · intro o' ho'
    rcases List.mem_append.mp ho' with ho' | ho'
    · exact h.positive o' ho'
    · exact List.mem_singleton.mp ho' ▸ hpos
  · exact SlotPool.forall_mem_modify h.unused fun _ _ hzero => absurd hzero hne
  · refine SlotPool.forall_mem_modify (fun t ht hnet => ?_) fun _ _ _ => ?_
    · obtain ⟨o', ho', hrest⟩ := h.used t ht hnet
      exact ⟨o', List.mem_append_left _ ho', hrest⟩
    · exact ⟨o, by simp, rfl, rfl, by
        rw [show (ShadowConnector.newOrder cfg book now o).clientOrderId = o.clientOrderId from rfl,
          hnone]
        exact htells⟩
  · refine h.unique.modify fun _ k _ hk j t _ hj hkt => hfresh ?_
    rw [hkey] at hk
    rw [ShadowOrder.usedId] at hkt
    split at hkt
    · cases hkt
    · next hnet =>
      obtain ⟨o', ho', hid, -⟩ := h.used t (List.mem_of_getElem? hj) hnet
      refine List.mem_map.mpr ⟨o', ho', ?_⟩
      rw [hid, Option.some.inj hkt, Option.some.inj hk]
  · intro o' ho'
    rcases List.mem_append.mp ho' with ho' | ho'
    · rcases h.orders o' ho' with hfinished | ⟨t, ht, hkt⟩
      · exact Or.inl hfinished
      · obtain ⟨j, hj⟩ := List.mem_iff_getElem?.mp ht
        by_cases hij : i = j
        · subst hij
          obtain rfl : s = t := Option.some.inj (hi.symm.trans hj)
          exact Or.inl (h.finished ht hidle ho' hkt)
        · refine Or.inr (SlotPool.hasKey_iff_getElem?.mpr ⟨j, t, ?_, hkt⟩)
          rwa [List.getElem?_modify_ne _ _ hij]
    · refine Or.inr (SlotPool.hasKey_iff_getElem?.mpr
        ⟨i, ShadowConnector.newOrder cfg book now o, by simp [hi], ?_⟩)
      rw [hkey, List.mem_singleton.mp ho']
  · intro u hu
    obtain ⟨o', ho', hid⟩ := h.known u hu
    exact ⟨o', List.mem_append_left _ ho', hid⟩

end ShadowAccounts

namespace ShadowConnector

variable {taken : List Order} {c : ShadowConnector}

theorem lives_cancelOrder (h : c.accounts.Lives taken c.orders) (now : ℤ) (clientId : ℕ) :
    (c.cancelOrder now clientId).2.accounts.Lives taken (c.cancelOrder now clientId).2.orders := by
  unfold cancelOrder
  split
  · exact h
  · next i hi =>
    obtain ⟨s, hs, hfound, -⟩ := SlotPool.getElem?_of_findIdx? hi
    rw [Bool.and_eq_true] at hfound
    have hslot : c.orders.getD i {} = s := by simp [hs]
    have hstep : s.SlotStep c.cfg default now True False c.accounts (s.cancelAt now c.accounts) :=
      .cancel hfound.1 trivial
    simp only [hslot]
    exact h.step hs hstep

/-- The orders that a call brings. -/
def Call.brings : Call → List Order
  | .submit order => [order]
  | .replace _ replacement => [replacement]
  | .cancel _ | .cancelAll _ | .checkFills => []

/-- The orders that the connector takes in a call. -/
def takes (c : ShadowConnector) : OrderBook × ℤ × Call → List Order
  | (book, now, .submit order) => if (c.submitOrder book now order).1 = .ok then [order] else []
  | (book, now, .replace clientId replacement) =>
    if (c.replaceOrder book now clientId replacement).1 = .ok then [replacement] else []
  | (_, _, .cancel _) | (_, _, .cancelAll _) | (_, _, .checkFills) => []

theorem takes_sublist (x : OrderBook × ℤ × Call) : (c.takes x).Sublist x.2.2.brings := by
  obtain ⟨book, now, op⟩ := x
  cases op <;> simp only [takes, Call.brings, List.Sublist.refl] <;> split <;> simp

theorem lives_submitOrder (h : c.accounts.Lives taken c.orders) (book : OrderBook) (now : ℤ)
    {order : Order} (hpos : 0 < order.quantity)
    (hfresh : order.clientOrderId ∉ taken.map Order.clientOrderId) :
    (c.submitOrder book now order).2.accounts.Lives
      (taken ++ if (c.submitOrder book now order).1 = .ok then [order] else [])
      (c.submitOrder book now order).2.orders := by
  unfold submitOrder
  split
  · rw [if_neg ConnectorResult.noConfusion, List.append_nil]
    exact h
  · next i hi =>
    obtain ⟨s, hs, hidle, -⟩ := SlotPool.getElem?_of_findIdx? hi
    have htaken := h.take hs (by simpa using hidle) hpos hfresh c.cfg book now
    have hlive : (newOrder c.cfg book now order).active = true := rfl
    have hnew : (newOrder c.cfg book now order).filledQty = 0 := rfl
    have hi' : i < c.orders.length := (List.getElem?_eq_some_iff.mp hs).1
    have hstep : (newOrder c.cfg book now order).SlotStep c.cfg book now False False c.accounts
        (placeOrder c.cfg book now c.accounts (newOrder c.cfg book now order)) :=
      placeOrder_step hlive hnew
    have hplaced := htaken.step (List.getElem?_set_self hi') hstep
    rw [List.set_set] at hplaced
    exact hplaced

/-- A replacement is submitted when the cancel succeeds, and else nothing more happens. -/
theorem replaceOrder_cases (c : ShadowConnector) (book : OrderBook) (now : ℤ) (clientId : ℕ)
    (replacement : Order) :
    ((c.cancelOrder now clientId).1 = .ok ∧ c.replaceOrder book now clientId replacement =
        (c.cancelOrder now clientId).2.submitOrder book now replacement) ∨
      ((c.cancelOrder now clientId).1 ≠ .ok ∧
        c.replaceOrder book now clientId replacement = c.cancelOrder now clientId) := by
  unfold replaceOrder
  split
  · next c' he =>
    rw [he]
    exact Or.inl ⟨rfl, rfl⟩
  · next result c' hne he =>
    rw [he]
    exact Or.inr ⟨hne, rfl⟩

theorem lives_call (h : c.accounts.Lives taken c.orders) (x : OrderBook × ℤ × Call)
    (hpos : ∀ o ∈ x.2.2.brings, 0 < o.quantity)
    (hfresh : ∀ o ∈ x.2.2.brings, o.clientOrderId ∉ taken.map Order.clientOrderId) :
    (c.call x).accounts.Lives (taken ++ c.takes x) (c.call x).orders := by
  obtain ⟨book, now, op⟩ := x
  cases op with
  | submit order =>
    exact lives_submitOrder h book now (hpos order (by simp [Call.brings]))
      (hfresh order (by simp [Call.brings]))
  | cancel clientId =>
    rw [takes, List.append_nil]
    exact lives_cancelOrder h now clientId
  | replace clientId replacement =>
    have hcanceled := lives_cancelOrder h now clientId
    simp only [call, takes]
    rcases c.replaceOrder_cases book now clientId replacement with ⟨-, heq⟩ | ⟨hne, heq⟩
    · rw [heq]
      exact lives_submitOrder hcanceled book now (hpos replacement (by simp [Call.brings]))
        (hfresh replacement (by simp [Call.brings]))
    · rw [heq, if_neg hne, List.append_nil]
      exact hcanceled
  | cancelAll symbol =>
    have hstep : ∀ a (s : ShadowOrder), s.SlotStep c.cfg book now
        (strncmpEq 15 s.symbol.chars symbol = true) False a (s.cancelMatching symbol now a) :=
      fun _ _ => ShadowOrder.cancelMatching_step symbol
    rw [takes, List.append_nil]
    exact SlotPool.sweep_invariant (fun a _ _ s hi hl => hl.step hi (hstep a s)) h
  | checkFills =>
    rw [takes, List.append_nil]
    exact SlotPool.sweep_invariant
      (fun _ _ _ _ hi hl => hl.step hi ShadowOrder.checkFill_step) h

end ShadowConnector

/-! ## Runs -/

/-- A connector, and the orders that it has taken. -/
structure ShadowSession where
  connector : ShadowConnector
  taken : List Order := []

namespace ShadowSession

open ShadowConnector

/-- The session after a call. -/
def call (s : ShadowSession) (x : OrderBook × ℤ × Call) : ShadowSession :=
  ⟨s.connector.call x, s.taken ++ s.connector.takes x⟩

/-- What holds of an order that was taken. -/
structure LifeOf (s : ShadowSession) (o : Order) : Prop where
  nonneg : 0 ≤ FillUpdate.reportedQty (s.connector.accounts.updatesOf o.clientOrderId)
  le : FillUpdate.reportedQty (s.connector.accounts.updatesOf o.clientOrderId) ≤ o.quantity
  /-- The fills sum to the filled quantity. -/
  emitted : |FillUpdate.emittedQty (s.connector.accounts.updatesOf o.clientOrderId) -
    FillUpdate.reportedQty (s.connector.accounts.updatesOf o.clientOrderId)| ≤ 1 / 10 ^ 12
  /-- The filled quantity is that of the slot, while the order has one. -/
  slot : ∀ slot ∈ s.connector.orders, slot.usedId = some o.clientOrderId →
    slot.quantity = o.quantity ∧ slot.filledQty =
      FillUpdate.reportedQty (s.connector.accounts.updatesOf o.clientOrderId)
  /-- The order is active exactly while no update has ended it. -/
  active : (∃ slot ∈ s.connector.orders, slot.active = true ∧
    slot.clientOrderId = o.clientOrderId) ↔
      FillUpdate.Running (s.connector.accounts.updatesOf o.clientOrderId)
  /-- Nothing is emitted after the update that ends it. -/
  ended : ∀ before u after,
    s.connector.accounts.updatesOf o.clientOrderId = before ++ u :: after →
      u.newState.terminal = true → after = []

variable {s : ShadowSession} {o : Order}

theorem lifeOf (h : s.connector.accounts.Lives s.taken s.connector.orders) (ho : o ∈ s.taken) :
    s.LifeOf o := by
  -- the slot of the order, if it has one
  have hslot : ∀ slot ∈ s.connector.orders, slot.usedId = some o.clientOrderId →
      slot.clientOrderId = o.clientOrderId ∧ slot.quantity = o.quantity ∧
        slot.Tells (s.connector.accounts.updatesOf o.clientOrderId) := by
    intro slot hmem hkey
    rw [ShadowOrder.usedId] at hkey
    split at hkey
    · cases hkey
    · next hne =>
      obtain ⟨o', ho', hid, hquantity, htells⟩ := h.used slot hmem hne
      have hid' := Option.some.inj hkey
      obtain rfl : o' = o := h.inj ho' ho (hid.trans hid')
      exact ⟨hid', hquantity.symm, hid' ▸ htells⟩
  have hactive : ∀ slot ∈ s.connector.orders, slot.active = true →
      slot.clientOrderId = o.clientOrderId → slot.usedId = some o.clientOrderId := by
    intro slot hmem hactive hid
    rw [ShadowOrder.usedId, if_neg, hid]
    intro hzero
    rw [(h.unused slot hmem hzero).1] at hactive
    cases hactive
  have hfinished := h.orders o ho
  refine ⟨?_, ?_, ?_, fun slot hmem hkey => ?_, ⟨?_, fun hrunning => ?_⟩, fun before u after hus
    hu => ?_⟩
  · rcases hfinished with hfinished | ⟨slot, hmem, hkey⟩
    · exact hfinished.nonneg
    · obtain ⟨-, -, htells⟩ := hslot slot hmem hkey
      exact htells.reported ▸ htells.nonneg
  · rcases hfinished with hfinished | ⟨slot, hmem, hkey⟩
    · exact hfinished.le
    · obtain ⟨-, hquantity, htells⟩ := hslot slot hmem hkey
      exact htells.reported ▸ hquantity ▸ htells.le
  · rcases hfinished with hfinished | ⟨slot, hmem, hkey⟩
    · exact hfinished.emitted
    · obtain ⟨-, -, htells⟩ := hslot slot hmem hkey
      exact htells.reported ▸ htells.emitted
  · obtain ⟨-, hquantity, htells⟩ := hslot slot hmem hkey
    exact ⟨hquantity, htells.reported.symm⟩
  · rintro ⟨slot, hmem, hlive, hid⟩
    obtain ⟨-, -, htells⟩ := hslot slot hmem (hactive slot hmem hlive hid)
    exact (htells.running hlive).1
  · rcases hfinished with hfinished | ⟨slot, hmem, hkey⟩
    · exact absurd hrunning hfinished.ended.not_running
    · obtain ⟨hid, -, htells⟩ := hslot slot hmem hkey
      refine ⟨slot, hmem, ?_, hid⟩
      by_contra hidle
      exact (htells.ended (Bool.not_eq_true _ ▸ hidle)).not_running hrunning
  · rcases hfinished with hfinished | ⟨slot, hmem, hkey⟩
    · exact hfinished.ended.eq_nil hus hu
    · obtain ⟨-, -, htells⟩ := hslot slot hmem hkey
      cases hlive : slot.active with
      | true =>
        have hrun := (htells.running hlive).1 u (by simp [hus])
        rw [hu] at hrun
        cases hrun
      | false => exact (htells.ended hlive).eq_nil hus hu

/-- A slot is filled up to its quantity at most. -/
theorem filledQty_le (h : s.connector.accounts.Lives s.taken s.connector.orders) :
    ∀ slot ∈ s.connector.orders, 0 ≤ slot.filledQty ∧ slot.filledQty ≤ slot.quantity := by
  intro slot hmem
  by_cases hzero : slot.quantity = 0
  · rw [(h.unused slot hmem hzero).2, hzero]
    exact ⟨le_rfl, le_rfl⟩
  · obtain ⟨-, -, -, -, htells⟩ := h.used slot hmem hzero
    exact ⟨htells.nonneg, htells.le⟩

/-- The session at the start. -/
def new (cfg : ShadowConfig) : ShadowSession := ⟨ShadowConnector.new cfg, []⟩

theorem lives_new (cfg : ShadowConfig) : (new cfg).connector.accounts.Lives (new cfg).taken
    (new cfg).connector.orders where
  distinct := List.nodup_nil
  positive _ h := absurd h List.not_mem_nil
  unused _ h _ := (List.mem_replicate.mp h).2 ▸ ⟨rfl, rfl⟩
  used _ h hne := absurd ((List.mem_replicate.mp h).2 ▸ rfl) hne
  unique i _ a _ k ha _ hk _ := by
    rw [(List.mem_replicate.mp (List.mem_of_getElem? ha)).2] at hk
    cases hk
  orders _ h := absurd h List.not_mem_nil
  known _ h := absurd h List.not_mem_nil

theorem lives_foldl (calls : List (OrderBook × ℤ × Call)) :
    ∀ {s : ShadowSession}, s.connector.accounts.Lives s.taken s.connector.orders →
      (∀ o ∈ calls.flatMap fun x => x.2.2.brings, 0 < o.quantity) →
      ((s.taken ++ calls.flatMap fun x => x.2.2.brings).map Order.clientOrderId).Nodup →
      (calls.foldl call s).connector.accounts.Lives (calls.foldl call s).taken
        (calls.foldl call s).connector.orders := by
  induction calls with
  | nil => exact fun h _ _ => h
  | cons x calls ih =>
    intro s h hpos hdistinct
    rw [List.flatMap_cons] at hpos hdistinct
    have hfresh : ∀ o ∈ x.2.2.brings,
        o.clientOrderId ∉ s.taken.map Order.clientOrderId := by
      intro o ho hmem
      rw [List.map_append, List.nodup_append] at hdistinct
      exact hdistinct.2.2 _ hmem _ (List.mem_map_of_mem (List.mem_append_left _ ho)) rfl
    refine ih (s := s.call x)
      (lives_call h x (fun o ho => hpos o (List.mem_append_left _ ho)) hfresh)
      (fun o ho => hpos o (List.mem_append_right _ ho)) (hdistinct.sublist ?_)
    refine List.Sublist.map _ ?_
    rw [call, List.append_assoc]
    exact (List.Sublist.refl _).append ((takes_sublist x).append (List.Sublist.refl _))

/-- **The life of every order of a run.** Whatever the books and the times of the calls are, an
order that was taken is filled between nothing and its quantity, by the fills that are emitted for
it up to the tolerance, and is active until one update ends it, which is the last; and updates are
emitted for orders that were taken only. -/
theorem run_lives {cfg : ShadowConfig} (calls : List (OrderBook × ℤ × Call))
    (hpos : ∀ o ∈ calls.flatMap fun x => x.2.2.brings, 0 < o.quantity)
    (hdistinct : ((calls.flatMap fun x => x.2.2.brings).map Order.clientOrderId).Nodup) :
    let s := calls.foldl call (new cfg)
    (∀ o ∈ s.taken, s.LifeOf o) ∧
      (∀ slot ∈ s.connector.orders, 0 ≤ slot.filledQty ∧ slot.filledQty ≤ slot.quantity) ∧
      ∀ u ∈ s.connector.accounts.updates, ∃ o ∈ s.taken, o.clientOrderId = u.clientOrderId := by
  intro s
  have h := lives_foldl calls (lives_new cfg) hpos hdistinct
  exact ⟨fun o ho => lifeOf h ho, filledQty_le h, h.known⟩

/-- The market order that is filled at once. -/
theorem run_lives_marketCalls : (marketCalls.foldl call (new flatFees)).LifeOf
    { clientOrderId := 7, type := .market, quantity := 1 } :=
  (run_lives marketCalls (by decide +kernel) (by decide)).1 _ (by decide +kernel)

end ShadowSession

end TradingInfrastructure
