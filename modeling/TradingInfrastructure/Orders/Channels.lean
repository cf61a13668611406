import TradingInfrastructure.Orders.OrderManager
import TradingInfrastructure.Shadow.SlotSteps

/-!
# The updates between a shadow connector and its manager

For each order the queue holds the updates that the connector has emitted and the manager has not
applied. `Channel` says what they make of the quantity filled: a part adds to it, a last part
completes the order, and a cancel or a reject comes only where nothing was filled. `Linked` says
that every order of the manager has such a channel, at whose end is the order of the connector.

A visit to a slot that `Reports` what it does keeps the link, and so does a sweep of such visits.
A visit reports properly unless it cancels an order of which a part is filled, or fills an order
to within the tolerance without completing it (`CleanVisit`).
-/

namespace TradingInfrastructure

/-- What the updates `us` in line make of an order of which `filled` is filled: the quantity
filled at the end, or nothing when the order is then closed. -/
inductive Channel (quantity : ℚ) : ℚ → List FillUpdate → Option ℚ → Prop
  | idle {filled : ℚ} (hle : filled ≤ quantity) : Channel quantity filled [] (some filled)
  | part {filled : ℚ} {u : FillUpdate} {us : List FillUpdate} {r : Option ℚ}
      (hstate : u.newState.terminal = false) (hpos : 0 < u.fillQty)
      (hcum : u.cumulativeFilledQty = filled + u.fillQty)
      (hrest : Channel quantity u.cumulativeFilledQty us r) : Channel quantity filled (u :: us) r
  | complete {filled : ℚ} {u : FillUpdate} (hstate : u.newState.terminal = true)
      (hpos : 0 < u.fillQty) (hcum : u.cumulativeFilledQty = quantity)
      (hqty : filled + u.fillQty = quantity) : Channel quantity filled [u] none
  | drop {filled : ℚ} {u : FillUpdate} (hstate : u.newState.terminal = true)
      (hnone : u.fillQty = 0) (hcum : u.cumulativeFilledQty = 0) (hfilled : filled = 0)
      (hle : 0 ≤ quantity) : Channel quantity filled [u] none

namespace Channel

variable {quantity filled : ℚ} {us vs : List FillUpdate} {r : Option ℚ}

theorem filled_le (h : Channel quantity filled us r) : filled ≤ quantity := by
  induction h with
  | idle hle => exact hle
  | part _ hpos hcum _ ih => linarith
  | complete _ hpos _ hqty => linarith
  | drop _ _ _ hfilled hle => linarith

theorem end_le (h : Channel quantity filled us r) : ∀ g, r = some g → g ≤ quantity := by
  induction h with
  | idle hle =>
    rintro g ⟨⟩
    exact hle
  | part _ _ _ _ ih => exact ih
  | complete => nofun
  | drop => nofun

/-- The first update in line, and what it does. -/
theorem head_cases {u : FillUpdate} (h : Channel quantity filled (u :: us) r) :
    (u.newState.terminal = false ∧ 0 < u.fillQty ∧ u.cumulativeFilledQty = filled + u.fillQty ∧
        Channel quantity u.cumulativeFilledQty us r) ∨
      (u.newState.terminal = true ∧ us = [] ∧ r = none ∧
        ((0 < u.fillQty ∧ u.cumulativeFilledQty = quantity ∧ filled + u.fillQty = quantity) ∨
          (u.fillQty = 0 ∧ u.cumulativeFilledQty = 0 ∧ filled = 0 ∧ 0 ≤ quantity))) := by
  cases h with
  | part hstate hpos hcum hrest => exact Or.inl ⟨hstate, hpos, hcum, hrest⟩
  | complete hstate hpos hcum hqty =>
    exact Or.inr ⟨hstate, rfl, rfl, Or.inl ⟨hpos, hcum, hqty⟩⟩
  | drop hstate hnone hcum hfilled hle =>
    exact Or.inr ⟨hstate, rfl, rfl, Or.inr ⟨hnone, hcum, hfilled, hle⟩⟩

/-- Where the order is still open, more updates may follow. -/
theorem append {mid : ℚ} (h : Channel quantity filled us (some mid))
    (h' : Channel quantity mid vs r) :
    Channel quantity filled (us ++ vs) r := by
  generalize hm : some mid = m at h
  induction h with
  | idle hle =>
    obtain rfl := Option.some.inj hm
    exact h'
  | part hstate hpos hcum _ ih => exact .part hstate hpos hcum (ih hm)
  | complete => cases hm
  | drop => cases hm

end Channel

/-- The id of an order that the connector has in use. -/
def ShadowOrder.key (s : ShadowOrder) : Option ℕ := if s.active then some s.clientOrderId else none

theorem ShadowOrder.key_eq_some {s : ShadowOrder} {k : ℕ} :
    s.key = some k ↔ s.active = true ∧ s.clientOrderId = k := by
  simp [key]

/-- What lies in the queue for one order. -/
def inLine (k : ℕ) (items : List FillUpdate) : List FillUpdate :=
  items.filter fun u => u.clientOrderId = k

/-! ## Visits that report -/

/-- The visit that turns `s` into `s'` emits updates that say what it does. -/
structure Reports (s s' : ShadowOrder) (us : List FillUpdate) : Prop where
  key : s'.key = s.key ∨ s'.key = none
  quantity : s'.quantity = s.quantity
  market : s'.active = true → s'.type = .market → s'.filledQty = 0
  ids : ∀ u ∈ us, s.key = some u.clientOrderId
  channel : s.active = true → s.filledQty ≤ s.quantity →
    ∃ r, Channel s.quantity s.filledQty us r ∧ (s'.active = true → r = some s'.filledQty)

namespace ShadowOrder

/-- The book offers the order a quantity that leaves no more than the tolerance of it, but not
nothing. -/
def NearComplete (cfg : ShadowConfig) (book : OrderBook) (s : ShadowOrder) : Prop :=
  s.quantity - fillTolerance ≤ s.filledQty + s.matchableQty cfg book ∧
    s.filledQty + s.matchableQty cfg book < s.quantity

/-- A visit to the order cancels it only if nothing is filled, and does not come to within the
tolerance of completing it. -/
structure CleanVisit (cfg : ShadowConfig) (book : OrderBook) (cancels crosses : Prop)
    (s : ShadowOrder) : Prop where
  cancel : s.active = true → cancels → s.filledQty = 0
  cross : s.active = true → crosses → ¬ s.NearComplete cfg book

instance (cfg : ShadowConfig) (book : OrderBook) (s : ShadowOrder) :
    Decidable (s.NearComplete cfg book) :=
  inferInstanceAs (Decidable (_ ∧ _))

instance (cfg : ShadowConfig) (book : OrderBook) (cancels crosses : Prop) [Decidable cancels]
    [Decidable crosses] (s : ShadowOrder) : Decidable (s.CleanVisit cfg book cancels crosses) :=
  decidable_of_iff ((s.active = true → cancels → s.filledQty = 0) ∧
      (s.active = true → crosses → ¬ s.NearComplete cfg book))
    ⟨fun h => ⟨h.1, h.2⟩, fun h => ⟨h.cancel, h.cross⟩⟩

variable {cfg : ShadowConfig} {book : OrderBook} {now : ℤ} {cancels crosses : Prop}
  {a : ShadowAccounts} {s : ShadowOrder}

/-- An order that is closed without a fill. -/
theorem reports_close (hactive : s.active = true) (hfilled : s.filledQty = 0) {u : FillUpdate}
    (hid : u.clientOrderId = s.clientOrderId) (hstate : u.newState.terminal = true)
    (hqty : u.fillQty = 0) (hcum : u.cumulativeFilledQty = 0) :
    Reports s { s with active := false } [u] where
  key := Or.inr rfl
  quantity := rfl
  market h := by cases h
  ids w hw := by
    rw [List.mem_singleton.mp hw, key_eq_some]
    exact ⟨hactive, hid.symm⟩
  channel _ hle := ⟨none, .drop hstate hqty hcum hfilled (hfilled ▸ hle), fun h => by cases h⟩

/-- A fill that completes the order, or leaves more than the tolerance. -/
theorem reports_fill (hactive : s.active = true) {queueAhead px qty : ℚ} (hpos : 0 < qty)
    (hqty : s.filledQty + qty = s.quantity ∨
      (s.type ≠ .market ∧ s.filledQty + qty < s.quantity - fillTolerance)) :
    Reports s ({ s with queueAheadQty := queueAhead }.filledBy px qty)
      [({ s with queueAheadQty := queueAhead }.filledBy px qty).fillUpdate px qty now] := by
  have htol := fillTolerance_pos
  have hids : ∀ s' : ShadowOrder, s'.clientOrderId = s.clientOrderId →
      ∀ u ∈ [s'.fillUpdate px qty now], s.key = some u.clientOrderId := by
    intro s' hid u hu
    rw [List.mem_singleton.mp hu, key_eq_some]
    exact ⟨hactive, hid.symm⟩
  rcases hqty with hall | ⟨htype, hpart⟩
  · have hcomplete : s.quantity - fillTolerance ≤ s.filledQty + qty := by linarith
    have he : { s with queueAheadQty := queueAhead }.filledBy px qty =
        { s with
          queueAheadQty := queueAhead, filledQty := s.quantity,
          notionalFilled := s.notionalFilled + px * qty, active := false } := by
      simp [filledBy, hcomplete]
    rw [he]
    refine ⟨Or.inr rfl, rfl, nofun, hids _ rfl, fun _ _ => ⟨none, ?_, nofun⟩⟩
    exact .complete (by simp [fillUpdate, OrderState.terminal]) hpos rfl hall
  · have hopen : ¬ s.quantity - fillTolerance ≤ s.filledQty + qty := not_le.mpr hpart
    have he : { s with queueAheadQty := queueAhead }.filledBy px qty =
        { s with
          queueAheadQty := queueAhead, filledQty := s.filledQty + qty,
          notionalFilled := s.notionalFilled + px * qty } := by
      simp [filledBy, hopen]
    rw [he]
    refine ⟨Or.inl rfl, rfl, fun _ h => absurd h htype, hids _ rfl,
      fun _ _ => ⟨some (s.filledQty + qty), ?_, fun _ => rfl⟩⟩
    have hlt : ¬ s.quantity ≤ s.filledQty + qty := by linarith
    refine .part ?_ hpos rfl (.idle ?_)
    · simp [fillUpdate, hlt, OrderState.terminal]
    · change s.filledQty + qty ≤ s.quantity
      linarith

/-- **A clean visit reports what it does.** -/
theorem SlotStep.reports {r : ShadowAccounts × ShadowOrder}
    (h : s.SlotStep cfg book now cancels crosses a r)
    (hclean : s.CleanVisit cfg book cancels crosses)
    (hmarket : s.active = true → s.type = .market → s.filledQty = 0) :
    ∃ us, r.1.updates = a.updates ++ us ∧ Reports s r.2 us := by
  cases h with
  | quiet queueAhead maker active hactive hdrop =>
    refine ⟨[], by simp, ?_, rfl, fun h => hmarket (hactive h), by simp, fun _ hle =>
      ⟨_, .idle hle, fun _ => rfl⟩⟩
    cases hs : active with
    | true => exact Or.inl (by simp [key, hactive hs])
    | false => exact Or.inr rfl
  | fill queueAhead px qty hactive hpos hle hqty =>
    have hnot : ¬ qty ≤ 0 := not_le.mpr hpos
    simp only [applyFill, hnot, if_false]
    refine ⟨_, congrArg (· ++ [_]) (ShadowAccounts.updates_bookFill ..), ?_⟩
    · refine reports_fill hactive hpos ?_
      rcases hqty with hall | ⟨hcrosses, htype, hmatch⟩
      · exact Or.inl (by linarith)
      · rcases hle.eq_or_lt with heq | hlt
        · exact Or.inl (by linarith)
        · refine Or.inr ⟨htype, ?_⟩
          by_contra hge
          refine hclean.cross hactive hcrosses ⟨?_, ?_⟩ <;> rw [← hmatch] <;> linarith
  | cancel hactive hcancels =>
    exact ⟨[_], rfl, reports_close hactive (hclean.cancel hactive hcancels) rfl rfl rfl rfl⟩
  | reject reason hactive hor =>
    have hfilled : s.filledQty = 0 := hor.elim (hmarket hactive) id
    exact ⟨[_], rfl, reports_close hactive hfilled rfl rfl rfl rfl⟩

end ShadowOrder

/-! ## The link -/

/-- Every order in use by the manager has a channel, at whose end is the order of the connector,
if that is still in use. -/
structure Linked (slots : List ManagedOrder) (items : List FillUpdate) (orders : List ShadowOrder) :
    Prop where
  unique : SlotPool.KeysUnique ShadowOrder.key orders
  known : ∀ s ∈ orders, ∀ k, s.key = some k → SlotPool.HasKey ManagedOrder.key slots k
  market : ∀ s ∈ orders, s.active = true → s.type = .market → s.filledQty = 0
  channel : ∀ mo ∈ slots, ∀ k, mo.key = some k →
    ∃ r, Channel mo.order.quantity mo.filledQty (inLine k items) r ∧
      ∀ s ∈ orders, s.key = some k → r = some s.filledQty ∧ s.quantity = mo.order.quantity

namespace Linked

variable {slots : List ManagedOrder} {items : List FillUpdate} {orders : List ShadowOrder}

theorem inLine_append (k : ℕ) (us vs : List FillUpdate) :
    inLine k (us ++ vs) = inLine k us ++ inLine k vs :=
  List.filter_append ..

/-- An order that the connector has in use is filled no further than its quantity. -/
theorem filled_le (h : Linked slots items orders) {s : ShadowOrder} (hs : s ∈ orders)
    (hactive : s.active = true) : s.filledQty ≤ s.quantity := by
  have hkey : s.key = some s.clientOrderId := ShadowOrder.key_eq_some.mpr ⟨hactive, rfl⟩
  obtain ⟨mo, hmo, hk⟩ := h.known s hs _ hkey
  obtain ⟨r, hch, hend⟩ := h.channel mo hmo _ hk
  obtain ⟨rfl, hq⟩ := hend s hs hkey
  rw [hq]
  exact hch.end_le _ rfl

/-- **A visit that reports keeps the link.** -/
theorem visit (h : Linked slots items orders) {i : ℕ} {s s' : ShadowOrder} {us : List FillUpdate}
    (hs : orders[i]? = some s) (hrep : Reports s s' us) :
    Linked slots (items ++ us) (orders.modify i fun _ => s') := by
  have hmem := List.mem_of_getElem? hs
  have hget : ∀ a, orders[i]? = some a → a = s := fun a ha => Option.some.inj (ha.symm.trans hs)
  have hkey : ∀ k, s'.key = some k → s.key = some k := by
    intro k hk
    rcases hrep.key with he | he
    · rwa [he] at hk
    · rw [he] at hk
      cases hk
  refine ⟨h.unique.modify_of_key_eq fun a ha => ?_, ?_, ?_, ?_⟩
  · rw [hget a ha]
    exact hrep.key
  · intro b hb k hk
    rcases SlotPool.mem_modify hb with hb | ⟨-, -, rfl⟩
    · exact h.known b hb k hk
    · exact h.known s hmem k (hkey k hk)
  · intro b hb
    rcases SlotPool.mem_modify hb with hb | ⟨-, -, rfl⟩
    · exact h.market b hb
    · exact hrep.market
  · intro mo hmo k hk
    obtain ⟨r, hch, hend⟩ := h.channel mo hmo k hk
    by_cases hsk : s.key = some k
    · -- the order visited is the one at the end of this channel
      obtain ⟨hactive, -⟩ := ShadowOrder.key_eq_some.mp hsk
      obtain ⟨rfl, hq⟩ := hend s hmem hsk
      obtain ⟨r', hch', hopen⟩ := hrep.channel hactive (h.filled_le hmem hactive)
      have hall : inLine k us = us := List.filter_eq_self.mpr fun u hu => by
        simpa using Option.some.inj ((hrep.ids u hu).symm.trans hsk)
      refine ⟨r', ?_, fun b hb hbk => ?_⟩
      · rw [inLine_append, hall]
        exact hch.append (hq ▸ hch')
      · obtain ⟨j, hj⟩ := List.mem_iff_getElem?.mp hb
        rcases SlotPool.getElem?_modify_cases hj with ⟨hij, hold⟩ | ⟨rfl, a, -, rfl⟩
        · exact absurd (h.unique i j s b k hs hold hsk hbk) hij
        · exact ⟨hopen (ShadowOrder.key_eq_some.mp hbk).1, hrep.quantity.trans hq⟩
    · have hnone : inLine k us = [] := List.filter_eq_nil_iff.mpr fun u hu => by
        simp only [decide_eq_true_eq]
        rintro rfl
        exact hsk (hrep.ids u hu)
      refine ⟨r, by rwa [inLine_append, hnone, List.append_nil], fun b hb hbk => ?_⟩
      rcases SlotPool.mem_modify hb with hb | ⟨-, -, rfl⟩
      · exact hend b hb hbk
      · exact absurd (hkey k hbk) hsk

/-- **A sweep of visits that report keeps the link.** -/
theorem sweep {f : ShadowAccounts → ShadowOrder → ShadowAccounts × ShadowOrder}
    {a : ShadowAccounts} (h : Linked slots items orders)
    (hf : ∀ a, ∀ s ∈ orders, (s.active = true → s.type = .market → s.filledQty = 0) →
      ∃ us, (f a s).1.updates = a.updates ++ us ∧ Reports s (f a s).2 us) :
    ∃ us, (SlotPool.sweep f a orders).1.updates = a.updates ++ us ∧
      Linked slots (items ++ us) (SlotPool.sweep f a orders).2 ∧
      ∀ u ∈ us, SlotPool.HasKey ManagedOrder.key slots u.clientOrderId := by
  -- the slots already visited stand before those that are left
  have hrun : ∀ (rest done : List ShadowOrder) (items : List FillUpdate) (a : ShadowAccounts),
      Linked slots items (done ++ rest) → (∀ s ∈ rest, s ∈ orders) →
      ∃ us, (SlotPool.sweep f a rest).1.updates = a.updates ++ us ∧
        Linked slots (items ++ us) (done ++ (SlotPool.sweep f a rest).2) ∧
        ∀ u ∈ us, SlotPool.HasKey ManagedOrder.key slots u.clientOrderId := by
    intro rest
    induction rest with
    | nil =>
      intro done items a h _
      exact ⟨[], by simp [SlotPool.sweep], by simpa [SlotPool.sweep] using h, by simp⟩
    | cons s rest ih =>
      intro done items a h hmem
      have hget : (done ++ s :: rest)[done.length]? = some s := by simp
      obtain ⟨us, hus, hrep⟩ := hf a s (hmem s (by simp)) (h.market s (by simp))
      have hvisit := h.visit hget hrep
      have hset : (done ++ s :: rest).modify done.length (fun _ => (f a s).2) =
          done ++ [(f a s).2] ++ rest := by
        rw [SlotPool.modify_length_append]
        simp
      rw [hset] at hvisit
      obtain ⟨vs, hvs, hlink, hids⟩ := ih _ _ (f a s).1 hvisit fun b hb => hmem b (by simp [hb])
      refine ⟨us ++ vs, ?_, ?_, fun u hu => ?_⟩
      · simp only [SlotPool.sweep]
        rw [hvs, hus, List.append_assoc]
      · simpa [SlotPool.sweep] using hlink
      · rcases List.mem_append.mp hu with hu | hu
        · exact h.known s (by simp) _ (hrep.ids u hu)
        · exact hids u hu
  simpa using hrun orders [] items a (by simpa using h) fun _ hs => hs

/-! ## What the manager does -/

variable {i k : ℕ} {mo : ManagedOrder}

theorem inLine_cons_of_ne {u : FillUpdate} (h : u.clientOrderId ≠ k) (us : List FillUpdate) :
    inLine k (u :: us) = inLine k us := by
  simp [inLine, h]

theorem inLine_cons_self (u : FillUpdate) (us : List FillUpdate) :
    inLine u.clientOrderId (u :: us) = u :: inLine u.clientOrderId us := by
  simp [inLine]

/-- The order of the manager whose slot is changed, or another one. -/
theorem forall_key_modify {P : ManagedOrder → ℕ → Prop} {f : ManagedOrder → ManagedOrder}
    (hslot : slots[i]? = some mo) (hold : ∀ a ∈ slots, ∀ k, a.key = some k →
      (∃ j, i ≠ j ∧ slots[j]? = some a) → P a k) (hnew : ∀ k, (f mo).key = some k → P (f mo) k) :
    ∀ a ∈ slots.modify i f, ∀ k, a.key = some k → P a k := by
  intro a ha k hk
  obtain ⟨j, hj⟩ := List.mem_iff_getElem?.mp ha
  rcases SlotPool.getElem?_modify_cases hj with ⟨hij, h⟩ | ⟨rfl, old, h, rfl⟩
  · exact hold a (List.mem_of_getElem? h) k hk ⟨j, hij, h⟩
  · obtain rfl : old = mo := Option.some.inj (h.symm.trans hslot)
    exact hnew k hk

/-- **The manager opens an order** with an id that nothing is known of. -/
theorem opened (h : Linked slots items orders) {free : ManagedOrder} (hslot : slots[i]? = some free)
    (hfree : free.active = false) (hkey : mo.key = some k) (hfilled : mo.filledQty = 0)
    (hqty : 0 ≤ mo.order.quantity) (hline : inLine k items = [])
    (hnone : ¬ SlotPool.HasKey ManagedOrder.key slots k) :
    Linked (slots.modify i fun _ => mo) items orders := by
  refine ⟨h.unique, fun s hs k' hk => ?_, h.market, ?_⟩
  · exact (SlotPool.hasKey_modify_of_take hslot (ManagedOrder.key_eq_none.mpr hfree) hkey).mpr
      (Or.inl (h.known s hs k' hk))
  · refine forall_key_modify hslot (fun a ha k' hk _ => h.channel a ha k' hk) fun k' hk => ?_
    obtain rfl := Option.some.inj (hkey.symm.trans hk)
    refine ⟨some mo.filledQty, ?_, fun s hs hsk => absurd (h.known s hs k hsk) hnone⟩
    rw [hline]
    exact .idle (hfilled ▸ hqty)

/-- **The manager gives an order up** that the connector does not have. -/
theorem refused (h : Linked slots items orders)
    (hslots : SlotPool.KeysUnique ManagedOrder.key slots)
    (hslot : slots[i]? = some mo) (hkey : mo.key = some k)
    (hnone : ∀ s ∈ orders, s.key ≠ some k) :
    Linked (slots.modify i fun s => { s with active := false }) items orders := by
  refine ⟨h.unique, fun s hs k' hk => ?_, h.market, ?_⟩
  · rw [hslots.hasKey_modify_of_drop hslot hkey (by simp [ManagedOrder.key])]
    exact ⟨h.known s hs k' hk, by rintro rfl; exact hnone s hs hk⟩
  · refine forall_key_modify hslot (fun a ha k' hk _ => h.channel a ha k' hk) fun k' hk => ?_
    simp [ManagedOrder.key] at hk

/-- **The connector takes an order** that the manager has just opened. -/
theorem placed (h : Linked slots items orders) {s : ShadowOrder} (j : ℕ) (hkey : s.key = some k)
    (hfilled : s.filledQty = 0) (hline : inLine k items = [])
    (hnone : ∀ b ∈ orders, b.key ≠ some k) (hhas : SlotPool.HasKey ManagedOrder.key slots k)
    (hmo : ∀ mo ∈ slots, mo.key = some k → mo.filledQty = 0 ∧ s.quantity = mo.order.quantity) :
    Linked slots items (orders.modify j fun _ => s) := by
  refine ⟨?_, fun b hb k' hk => ?_, fun b hb => ?_, fun mo hmem k' hk => ?_⟩
  · refine h.unique.modify fun a k' _ hk m b _ hb hkb => ?_
    obtain rfl := Option.some.inj (hkey.symm.trans hk)
    exact hnone b (List.mem_of_getElem? hb) hkb
  · rcases SlotPool.mem_modify hb with hb | ⟨-, -, rfl⟩
    · exact h.known b hb k' hk
    · obtain rfl := Option.some.inj (hkey.symm.trans hk)
      exact hhas
  · rcases SlotPool.mem_modify hb with hb | ⟨-, -, rfl⟩
    · exact h.market b hb
    · exact fun _ _ => hfilled
  · obtain ⟨r, hch, hend⟩ := h.channel mo hmem k' hk
    refine ⟨r, hch, fun b hb hbk => ?_⟩
    rcases SlotPool.mem_modify hb with hb | ⟨-, -, rfl⟩
    · exact hend b hb hbk
    · obtain rfl := Option.some.inj (hkey.symm.trans hbk)
      obtain ⟨hzero, hqty⟩ := hmo mo hmem hk
      rw [hline] at hch
      cases hch
      exact ⟨by rw [hzero, hfilled], hqty⟩

/-- An update for an order that the manager has closed is popped. -/
theorem popped {u : FillUpdate} (h : Linked slots (u :: items) orders)
    (hnone : ¬ SlotPool.HasKey ManagedOrder.key slots u.clientOrderId) :
    Linked slots items orders := by
  refine ⟨h.unique, h.known, h.market, fun mo hmo k hk => ?_⟩
  have hne : u.clientOrderId ≠ k := by
    rintro rfl
    exact hnone ⟨mo, hmo, hk⟩
  simpa only [inLine_cons_of_ne hne] using h.channel mo hmo k hk

/-- **The manager applies the first update in line.** -/
theorem applied {u : FillUpdate} (h : Linked slots (u :: items) orders)
    (hslots : SlotPool.KeysUnique ManagedOrder.key slots) (hslot : slots[i]? = some mo)
    (hkey : mo.key = some u.clientOrderId) :
    Linked (slots.modify i (·.updatedBy u)) items orders := by
  obtain ⟨r, hch, hend⟩ := h.channel mo (List.mem_of_getElem? hslot) _ hkey
  rw [inLine_cons_self] at hch
  have hother : ∀ a ∈ slots, ∀ k, a.key = some k → (∃ j, i ≠ j ∧ slots[j]? = some a) →
      ∃ r, Channel a.order.quantity a.filledQty (inLine k items) r ∧
        ∀ s ∈ orders, s.key = some k → r = some s.filledQty ∧ s.quantity = a.order.quantity := by
    rintro a ha k hk ⟨j, hij, hj⟩
    have hne : u.clientOrderId ≠ k := by
      rintro rfl
      exact hij (hslots i j mo a _ hslot hj hkey hk)
    simpa only [inLine_cons_of_ne hne] using h.channel a ha k hk
  rcases hch.head_cases with ⟨hopen, -, -, hrest⟩ | ⟨hterm, -, rfl, -⟩
  · have hsame : (mo.updatedBy u).key = mo.key := by
      simp [OrderManager.key_updatedBy, hopen]
    refine ⟨h.unique, fun s hs k hk => ?_, h.market, ?_⟩
    · exact (SlotPool.hasKey_modify_of_same hslot hsame).mpr (h.known s hs k hk)
    · refine forall_key_modify hslot hother fun k hk => ?_
      obtain rfl := Option.some.inj (hkey.symm.trans (hsame.symm.trans hk))
      exact ⟨r, hrest, hend⟩
  · have hdrop : (mo.updatedBy u).key = none := by
      simp [OrderManager.key_updatedBy, hterm]
    refine ⟨h.unique, fun s hs k hk => ?_, h.market, ?_⟩
    · rw [hslots.hasKey_modify_of_drop hslot hkey hdrop]
      refine ⟨h.known s hs k hk, ?_⟩
      rintro rfl
      cases (hend s hs hk).1
    · refine forall_key_modify hslot hother fun k hk => ?_
      rw [hdrop] at hk
      cases hk

end Linked

end TradingInfrastructure
