import TradingInfrastructure.MarketMaker.QuotingMemory
import TradingInfrastructure.Portfolio.Conservation

/-!
# The entry price of the market maker

The market maker keeps an average entry price of its own, which it updates where an order ends with
a fill, by the last increment. The ledger updates its average with every fill. Along a run the two
agree as long as each fill that is drained is one that both take alike: an order that is filled at
once moves both averages in the same way, unless it flips the position, or is a stop that leaves
one; a partial fill moves the average of the ledger alone, so it must not move it, by reducing a
position or by its price (`entryPrice_eq_average`).
-/

namespace TradingInfrastructure

/-! ## One fill -/

namespace CostBasis

variable {b : CostBasis ℚ} {q p : ℚ}

/-- A fill at the average cost leaves it, unless it closes the position. -/
theorem avgCost_fill_of_eq (hq : q ≠ 0) (hclose : b.position + q ≠ 0) (hp : p = b.avgCost) :
    (b.fill q p).avgCost = b.avgCost := by
  unfold fill
  by_cases hside : 0 ≤ b.position * q
  · have hqty : 0 < |b.position| + |q| := add_pos_of_nonneg_of_pos (abs_nonneg _) (abs_pos.mpr hq)
    rw [if_pos hside, hp]
    simp only
    rw [← mul_add, mul_div_cancel_right₀ _ hqty.ne']
  · rw [if_neg hside]
    simp only [hclose, if_false, hp, ite_self]

/-- A fill that reduces the position leaves its average cost. -/
theorem avgCost_fill_of_reduces (hkeep : 0 < b.position * (b.position + q))
    (hside : b.position * q < 0) : (b.fill q p).avgCost = b.avgCost := by
  have hclose : b.position + q ≠ 0 := right_ne_zero_of_mul hkeep.ne'
  unfold fill
  rw [if_neg (not_le.mpr hside)]
  simp only [hclose, if_false, hkeep, if_true]

/-- A fill at a price keeps the average cost from being negative. -/
theorem avgCost_fill_nonneg (h : 0 ≤ b.avgCost) (hp : 0 < p) : 0 ≤ (b.fill q p).avgCost := by
  unfold fill
  by_cases hside : 0 ≤ b.position * q
  · rw [if_pos hside]
    positivity
  · rw [if_neg hside]
    simp only
    split_ifs
    · exact le_rfl
    · exact h
    · exact hp.le

end CostBasis

namespace NeuralAlphaMarketMaker

/-- **The entry price after an order filled at once** is the average cost after the fill, unless the
fill flips the position at another price. -/
theorem entryAfter_eq_avgCost {b : CostBasis ℚ} {q p : ℚ} (hpriced : b.WellPriced) (hq : q ≠ 0)
    (hflip : b.position * (b.position + q) < 0 → p = b.avgCost) :
    entryAfter b.avgCost (b.position + q) q p = (b.fill q p).avgCost := by
  have hentry : b.avgCost ≤ 0 ↔ b.position = 0 := by
    rw [← not_lt, show 0 < b.avgCost ↔ b.position ≠ 0 from hpriced, not_not]
  unfold entryAfter CostBasis.fill
  simp only [add_sub_cancel_right, hentry, or_self]
  by_cases hclose : b.position + q = 0
  · have hside : ¬0 ≤ b.position * q := by
      have hx : b.position = -q := eq_neg_of_add_eq_zero_left hclose
      rw [hx, not_le]
      have := mul_self_pos.mpr hq
      linarith
    rw [if_pos hclose, if_neg hside]
    simp only [hclose, if_true]
  · rw [if_neg hclose]
    by_cases hflat : b.position = 0
    · rw [if_pos hflat, hflat]
      simp [hq]
    · rw [if_neg hflat]
      by_cases hside : 0 ≤ b.position * q
      · have hsame : (b.position > 0 ∧ q > 0) ∨ (b.position < 0 ∧ q < 0) :=
          mul_pos_iff.mp (hside.lt_of_ne' (mul_ne_zero hflat hq))
        rw [if_pos hsame, if_pos hside]
      · have hopposite : ¬((b.position > 0 ∧ q > 0) ∨ (b.position < 0 ∧ q < 0)) :=
          fun h => hside (mul_pos_iff.mpr h).le
        rw [if_neg hopposite, if_neg hside]
        simp only [hclose, if_false]
        by_cases hkeep : 0 < b.position * (b.position + q)
        · rw [if_pos hkeep]
        · rw [if_neg hkeep, hflip ((not_lt.mp hkeep).lt_of_ne (mul_ne_zero hflat hclose))]

/-- A report of a fill that moves no position leaves the entry price of a position where its
quantity is zero, or against what the position would have been, or its price is the entry price. -/
theorem entryAfter_eq_self {entryPrice pos q p : ℚ} (hpos : pos ≠ 0) (hentry : 0 < entryPrice)
    (h : q = 0 ∨ (pos - q) * q < 0 ∨ p = entryPrice) :
    entryAfter entryPrice pos q p = entryPrice := by
  unfold entryAfter
  simp only [hpos, if_false, not_le.mpr hentry, or_false]
  by_cases hprev : pos - q = 0
  · rw [if_pos hprev]
    rcases h with rfl | hside | hp
    · exact absurd (by simpa using hprev) hpos
    · rw [hprev, zero_mul] at hside
      exact absurd hside (lt_irrefl 0)
    · exact hp
  · rw [if_neg hprev]
    split_ifs with hsame
    · have hside : 0 < (pos - q) * q := mul_pos_iff.mpr hsame
      rcases h with rfl | hopposite | rfl
      · simp at hside
      · exact absurd hside hopposite.asymm
      · have hqty : 0 < |pos - q| + |q| :=
          add_pos_of_pos_of_nonneg (abs_pos.mpr hprev) (abs_nonneg _)
        rw [← mul_add, mul_div_cancel_right₀ _ hqty.ne']
    · rfl

end NeuralAlphaMarketMaker

/-! ## The record of the ledger -/

namespace PositionLedger

variable {l l' l'' : PositionLedger} {ex : Exchange} {s : Symbol} {i : ℕ}

/-- A change of the record found that is neither of its key nor of its basis. -/
theorem basis_modifyFound (h : l.findOrCreateVenue ex s.chars = some (l', i))
    {f : VenuePosition → VenuePosition}
    (hfor : ∀ v, VenuePosition.isFor ex s.chars (f v) = VenuePosition.isFor ex s.chars v)
    (hbasis : ∀ v, (f v).basis = v.basis) (hl : l''.venues = l'.venues.modify i f) :
    l''.HasRoomFor ex s.chars ∧ (l''.venue ex s.chars).basis = (l.venue ex s.chars).basis := by
  obtain ⟨hfind, v, hv, hb, -⟩ := findOrCreateVenue_spec h
  have hfind' : l''.findVenue ex s.chars = some i := by
    rw [findVenue, hl, ← hfind]
    exact SlotPool.findIdx?_modify_of_eq fun a _ => hfor a
  refine ⟨by simp [HasRoomFor, findOrCreateVenue, hfind'], ?_⟩
  rw [venue, hfind', hl]
  simp [hv, hbasis, hb]

theorem basis_onOrderSubmitted (order : Order)
    (hroom : l.HasRoomFor order.exchange order.symbol.chars) :
    (l.onOrderSubmitted order).HasRoomFor order.exchange order.symbol.chars ∧
      ((l.onOrderSubmitted order).venue order.exchange order.symbol.chars).basis =
        (l.venue order.exchange order.symbol.chars).basis := by
  obtain ⟨⟨l', i⟩, h⟩ := Option.isSome_iff_exists.mp hroom
  have hsubmitted : (l.onOrderSubmitted order).venues =
      l'.venues.modify i fun v => v.addPending order.side order.quantity := by
    rw [onOrderSubmitted, h]
    rfl
  exact basis_modifyFound h (fun v => by cases order.side <;> rfl)
    (fun v => by cases order.side <;> rfl) hsubmitted

theorem basis_updateMidPrice (midPrice : ℚ) (hroom : l.HasRoomFor ex s.chars) :
    (l.updateMidPrice s.chars ex midPrice).HasRoomFor ex s.chars ∧
      ((l.updateMidPrice s.chars ex midPrice).venue ex s.chars).basis =
        (l.venue ex s.chars).basis := by
  obtain ⟨⟨l', i⟩, h⟩ := Option.isSome_iff_exists.mp hroom
  have hupdated : (l.updateMidPrice s.chars ex midPrice).venues =
      l'.venues.modify i fun v => { v with midPrice := midPrice } := by
    rw [updateMidPrice, h]
    rfl
  exact basis_modifyFound h (f := fun v => { v with midPrice := midPrice }) (fun _ => rfl)
    (fun _ => rfl) hupdated

theorem basis_onOrderClosed (order : Order) (remainingQty : ℚ)
    (hroom : l.HasRoomFor order.exchange order.symbol.chars) :
    (l.onOrderClosed order remainingQty).HasRoomFor order.exchange order.symbol.chars ∧
      ((l.onOrderClosed order remainingQty).venue order.exchange order.symbol.chars).basis =
        (l.venue order.exchange order.symbol.chars).basis := by
  rw [onOrderClosed]
  cases hfind : l.findVenue order.exchange order.symbol.chars with
  | none => exact ⟨hroom, rfl⟩
  | some i =>
    have h : l.findOrCreateVenue order.exchange order.symbol.chars = some (l, i) := by
      rw [findOrCreateVenue, hfind]
    exact basis_modifyFound h (fun v => VenuePosition.isFor_releasePending _ _ v _ _)
      (fun v => v.basis_releasePending _ _) rfl

/-- **A fill of the record** is an average-cost fill of its basis. -/
theorem basis_onFill (order : Order) (fill : FillUpdate) (now : ℤ) (hqty : 0 < fill.fillQty)
    (hprice : 0 < fill.fillPrice) (hroom : l.HasRoomFor order.exchange order.symbol.chars) :
    (l.onFill order fill now).HasRoomFor order.exchange order.symbol.chars ∧
      ((l.onFill order fill now).venue order.exchange order.symbol.chars).basis =
        (l.venue order.exchange order.symbol.chars).basis.fill (order.side.signed fill.fillQty)
          fill.fillPrice := by
  obtain ⟨hroom', v, hb, -, hv⟩ := onFill_spec l order fill now hroom
  exact ⟨hroom', by rw [hv, v.basis_applyInventoryFill _ _ hqty hprice, hb]⟩

end PositionLedger

/-! ## What a drained update may be -/

/-- The order is for the exchange and the symbol of the market maker. -/
def MarketMakerConfig.Owns (cfg : MarketMakerConfig) (order : Order) : Prop :=
  order.exchange = cfg.exchange ∧ order.symbol = cfg.symbol

/-- **Both averages take the update alike**, at the position before it. A fill has a price. If it
ends its order as filled, it does not flip the position at another price than the entry price, and
if the order is the stop it closes the position. If it does not, it reduces the position, or is at
the entry price and does not close the position. An order that is reported as filled without a fill
finds no position, or is not the stop and leaves the entry price. -/
def NeuralAlphaMarketMaker.TakesAlike (mm : NeuralAlphaMarketMaker) (pos : ℚ) (u : FillUpdate)
    (order : Order) : Prop :=
  let qty := order.side.signed u.fillQty
  if 0 < u.fillQty then
    0 < u.fillPrice ∧
      if u.newState = .filled then
        (pos * (pos + qty) < 0 → u.fillPrice = mm.entryPrice) ∧
          (order.clientOrderId = mm.stopId → pos + qty = 0)
      else
        pos + qty ≠ 0 ∧ (0 < pos * (pos + qty) ∧ pos * qty < 0 ∨ u.fillPrice = mm.entryPrice)
  else
    u.newState = .filled → pos = 0 ∨ order.clientOrderId ≠ mm.stopId ∧
      (qty = 0 ∨ (pos - qty) * qty < 0 ∨ u.fillPrice = mm.entryPrice)

instance (cfg : MarketMakerConfig) (order : Order) : Decidable (cfg.Owns order) :=
  inferInstanceAs (Decidable (_ ∧ _))

instance (mm : NeuralAlphaMarketMaker) (pos : ℚ) (u : FillUpdate) (order : Order) :
    Decidable (mm.TakesAlike pos u order) :=
  inferInstanceAs (Decidable (ite _ (_ ∧ ite _ (_ ∧ _) (_ ∧ _)) (_ → _ ∨ _ ∧ _)))

/-! ## The manager -/

/-- **The entry price is the average of the ledger**: the orders are for one record, which has the
position, and the entry price as its average. -/
structure Entered (cfg : MarketMakerConfig) (entryPrice : ℚ) (m : OrderManager) : Prop where
  orders : ∀ mo ∈ m.slots, mo.active = true → cfg.Owns mo.order
  room : m.ledger.HasRoomFor cfg.exchange cfg.symbol.chars
  position : (m.ledger.venue cfg.exchange cfg.symbol.chars).basis.position = m.position
  average : (m.ledger.venue cfg.exchange cfg.symbol.chars).basis.avgCost = entryPrice
  priced : (m.ledger.venue cfg.exchange cfg.symbol.chars).basis.WellPriced
  nonneg : 0 ≤ entryPrice

namespace Entered

variable {cfg : MarketMakerConfig} {entryPrice : ℚ} {m m' : OrderManager} {order : Order} {i : ℕ}

theorem new (cfg : MarketMakerConfig) : Entered cfg 0 (.new 0) where
  orders mo hmo hactive := by
    rw [List.eq_of_mem_replicate hmo] at hactive
    cases hactive
  room := rfl
  position := rfl
  average := rfl
  priced := by simp [OrderManager.new, PositionLedger.venue, PositionLedger.findVenue,
    PositionLedger.new, VenuePosition.basis, CostBasis.WellPriced, VenuePosition.isFor]
  nonneg := le_rfl

/-- There is no entry price without a position. -/
theorem eq_zero_iff (h : Entered cfg entryPrice m) : entryPrice = 0 ↔ m.position = 0 := by
  have hpriced : 0 < entryPrice ↔ m.position ≠ 0 := by
    rw [← h.average, ← h.position]
    exact h.priced
  rw [← not_iff_not, ← ne_eq m.position, ← hpriced]
  exact ⟨fun hne => h.nonneg.lt_of_ne' hne, ne_of_gt⟩

/-- What changes neither the position nor the basis of the record, and adds no order of others. -/
theorem of_basis (h : Entered cfg entryPrice m)
    (horders : ∀ mo ∈ m'.slots, mo.active = true → cfg.Owns mo.order)
    (hposition : m'.position = m.position)
    (hledger : m'.ledger.HasRoomFor cfg.exchange cfg.symbol.chars ∧
      (m'.ledger.venue cfg.exchange cfg.symbol.chars).basis =
        (m.ledger.venue cfg.exchange cfg.symbol.chars).basis) : Entered cfg entryPrice m' where
  orders := horders
  room := hledger.1
  position := by rw [hledger.2, hposition, h.position]
  average := by rw [hledger.2, h.average]
  priced := by
    rw [hledger.2]
    exact h.priced
  nonneg := h.nonneg

theorem receive (h : Entered cfg entryPrice m) (u : FillUpdate) :
    Entered cfg entryPrice (m.receive u) := by
  unfold OrderManager.receive
  cases m.fillQueue.push u with
  | none => exact h
  | some q => exact h.of_basis h.orders rfl ⟨h.room, rfl⟩

theorem beginSubmit (h : Entered cfg entryPrice m) (howns : cfg.Owns order) {now : ℤ}
    (hbegin : m.beginSubmit order now = some (i, m')) : Entered cfg entryPrice m' := by
  unfold OrderManager.beginSubmit at hbegin
  cases hfree : m.findFreeSlot with
  | none => simp [hfree] at hbegin
  | some j =>
    simp only [hfree, Option.some.injEq, Prod.mk.injEq] at hbegin
    obtain ⟨rfl, rfl⟩ := hbegin
    refine h.of_basis (fun mo hmo hactive => ?_) rfl ⟨h.room, rfl⟩
    obtain hmo | ⟨old, -, rfl⟩ := SlotPool.mem_modify hmo
    · exact h.orders mo hmo hactive
    · exact howns

theorem finishSubmit (h : Entered cfg entryPrice m) (howns : cfg.Owns order) (i : ℕ)
    (result : ConnectorResult) : Entered cfg entryPrice (m.finishSubmit i order result).2 := by
  unfold OrderManager.finishSubmit
  by_cases hresult : result ≠ .ok
  · rw [if_pos hresult]
    refine h.of_basis (fun mo hmo hactive => ?_) rfl ⟨h.room, rfl⟩
    obtain hmo | ⟨old, -, rfl⟩ := SlotPool.mem_modify hmo
    · exact h.orders mo hmo hactive
    · cases hactive
  · rw [if_neg hresult]
    obtain ⟨hexchange, hsymbol⟩ := howns
    have hledger := m.ledger.basis_onOrderSubmitted order
      (by rw [hexchange, hsymbol]; exact h.room)
    rw [hexchange, hsymbol] at hledger
    exact h.of_basis h.orders rfl hledger

theorem submit (h : Entered cfg entryPrice m) (howns : cfg.Owns order) (now : ℤ)
    (connector : Order → ConnectorResult × List FillUpdate) :
    Entered cfg entryPrice (m.submit order now connector).2 := by
  unfold OrderManager.submit
  cases hbegin : m.beginSubmit order now with
  | none => exact h
  | some opened =>
    obtain ⟨i, m'⟩ := opened
    have hreceived : ∀ (us : List FillUpdate) (m : OrderManager), Entered cfg entryPrice m →
        Entered cfg entryPrice (us.foldl OrderManager.receive m) := by
      intro us
      induction us with
      | nil => exact fun _ h => h
      | cons u us ih => exact fun m h => ih _ (h.receive u)
    have howns' : cfg.Owns (m.numbered order now) := howns
    exact (hreceived _ m' (h.beginSubmit howns hbegin)).finishSubmit howns' i _

/-- The slot of the order found keeps its order. -/
theorem owns_updatedBy (h : Entered cfg entryPrice m) (u : FillUpdate) (i : ℕ) :
    ∀ mo ∈ m.slots.modify i (·.updatedBy u), mo.active = true → cfg.Owns mo.order := by
  intro mo hmo hactive
  obtain hmo | ⟨old, hold, rfl⟩ := SlotPool.mem_modify hmo
  · exact h.orders mo hmo hactive
  · refine h.orders old (List.mem_of_getElem? hold) ?_
    simp only [ManagedOrder.updatedBy] at hactive
    split_ifs at hactive
    exact hactive

/-- An update that fills nothing leaves the record. -/
theorem applyFillAt_of_nonpos (h : Entered cfg entryPrice m) (howns : cfg.Owns order) {now : ℤ}
    {u : FillUpdate} (hqty : ¬0 < u.fillQty) : Entered cfg entryPrice
    (m.applyFillAt now u i order) ∧
      (m.applyFillAt now u i order).position = m.position := by
  obtain ⟨hexchange, hsymbol⟩ := howns
  have hroom : m.ledger.HasRoomFor order.exchange order.symbol.chars := by
    rw [hexchange, hsymbol]
    exact h.room
  have hclosed := m.ledger.basis_onOrderClosed order
    (max 0 (order.quantity - u.cumulativeFilledQty)) hroom
  rw [hexchange, hsymbol] at hclosed
  simp only [OrderManager.applyFillAt, gt_iff_lt, hqty, if_false]
  refine ⟨h.of_basis (h.owns_updatedBy u i) rfl ?_, trivial⟩
  by_cases hterminal : u.newState.terminal = true
  · simp only [hterminal, if_true]
    exact hclosed
  · simp only [hterminal, if_false, Bool.false_eq_true]
    exact ⟨h.room, trivial⟩

/-- **An update that fills** is an average-cost fill of the record, and moves the position with
it. -/
theorem applyFillAt_of_pos (h : Entered cfg entryPrice m) (howns : cfg.Owns order) {now : ℤ}
    {u : FillUpdate} (hqty : 0 < u.fillQty) (hprice : 0 < u.fillPrice) :
    let b := (m.ledger.venue cfg.exchange cfg.symbol.chars).basis.fill
      (order.side.signed u.fillQty) u.fillPrice
    Entered cfg b.avgCost (m.applyFillAt now u i order) ∧
      (m.applyFillAt now u i order).position = m.position + order.side.signed u.fillQty := by
  obtain ⟨hexchange, hsymbol⟩ := howns
  have hroom : m.ledger.HasRoomFor order.exchange order.symbol.chars := by
    rw [hexchange, hsymbol]
    exact h.room
  obtain ⟨hfilledRoom, hfilled⟩ := m.ledger.basis_onFill order u now hqty hprice hroom
  have hclosed := (m.ledger.onFill order u now).basis_onOrderClosed order
    (max 0 (order.quantity - u.cumulativeFilledQty)) hfilledRoom
  rw [hfilled] at hclosed
  rw [hexchange, hsymbol] at hclosed hfilled hfilledRoom
  have hposition : (m.applyFillAt now u i order).position =
      m.position + order.side.signed u.fillQty := by
    simp only [OrderManager.applyFillAt, gt_iff_lt, hqty, if_true]
    cases order.side <;> simp [Side.sign]
  have hledger : (m.applyFillAt now u i order).ledger.HasRoomFor cfg.exchange cfg.symbol.chars ∧
      ((m.applyFillAt now u i order).ledger.venue cfg.exchange cfg.symbol.chars).basis =
        (m.ledger.venue cfg.exchange cfg.symbol.chars).basis.fill
          (order.side.signed u.fillQty) u.fillPrice := by
    simp only [OrderManager.applyFillAt, gt_iff_lt, hqty, if_true]
    by_cases hterminal : u.newState.terminal = true
    · simp only [hterminal, if_true]
      exact hclosed
    · simp only [hterminal, if_false, Bool.false_eq_true]
      exact ⟨hfilledRoom, hfilled⟩
  refine ⟨⟨h.owns_updatedBy u i, hledger.1, ?_, by rw [hledger.2], ?_, ?_⟩, hposition⟩
  · rw [hledger.2, hposition, CostBasis.fill_position, h.position]
  · rw [hledger.2]
    exact h.priced.fill (VenuePosition.signed_ne_zero hqty) hprice
  · exact CostBasis.avgCost_fill_nonneg (h.average ▸ h.nonneg) hprice

end Entered

/-! ## The market maker -/

namespace NeuralAlphaMarketMaker

variable {mm : NeuralAlphaMarketMaker} {order : Order} {u : FillUpdate} {pos : ℚ}

theorem entryPrice_onFill_of_not_filled (h : u.newState ≠ .filled) :
    (mm.onFill order u pos).entryPrice = mm.entryPrice := by
  rw [onFill, if_pos h]

theorem entryPrice_onFill_of_filled (h : u.newState = .filled) :
    (mm.onFill order u pos).entryPrice = if order.clientOrderId = mm.stopId then 0
      else entryAfter mm.entryPrice pos (order.side.signed u.fillQty) u.fillPrice := by
  rw [onFill, if_neg (not_not_intro h)]

theorem entryAfter_flat (entryPrice signedQty px : ℚ) :
    entryAfter entryPrice 0 signedQty px = 0 := by
  rw [entryAfter, if_pos rfl]

/-- The entry price after the callback of an update, which comes where the order ends. -/
theorem entryPrice_callback (mm : NeuralAlphaMarketMaker) (order : Order) (u : FillUpdate)
    (pos : ℚ) : (if u.newState.terminal then mm.onFill order u pos else mm).entryPrice =
      if u.newState = .filled then (mm.onFill order u pos).entryPrice else mm.entryPrice := by
  by_cases hfilled : u.newState = .filled
  · rw [if_pos hfilled, hfilled]
    rfl
  · rw [if_neg hfilled]
    split_ifs
    · exact entryPrice_onFill_of_not_filled hfilled
    · rfl

end NeuralAlphaMarketMaker

namespace Quoting

open NeuralAlphaMarketMaker

variable {cfg : MarketMakerConfig} {q : Quoting} {pow : ℚ → ℚ → ℚ}

/-- **An update that both averages take alike.** -/
theorem entered_applyFill (h : Entered cfg q.maker.entryPrice q.manager) (now : ℤ) {u : FillUpdate}
    (halike : ∀ i, q.manager.findOrder u.clientOrderId = some i →
      q.maker.TakesAlike q.position u (q.manager.slots.getD i {}).order) :
    Entered cfg (q.applyFill now u).maker.entryPrice (q.applyFill now u).manager := by
  unfold Quoting.applyFill
  cases hfind : q.manager.findOrder u.clientOrderId with
  | none => exact h
  | some i =>
    obtain ⟨mo, hget, hkey⟩ := OrderManager.findOrder_spec hfind
    have hmo : q.manager.slots.getD i {} = mo := by
      rw [List.getD_eq_getElem?_getD, hget, Option.getD_some]
    have howns : cfg.Owns mo.order :=
      h.orders mo (List.mem_of_getElem? hget) (ManagedOrder.key_eq_some.mp hkey).1
    have happly : q.manager.applyFill now u = q.manager.applyFillAt now u i mo.order := by
      simp only [OrderManager.applyFill, hfind, hmo]
    have halike := halike i hfind
    rw [hmo] at halike
    simp only [happly, hmo, entryPrice_callback]
    unfold TakesAlike at halike
    have hposition := h.position
    have haverage := h.average
    set b := (q.manager.ledger.venue cfg.exchange cfg.symbol.chars).basis with hb
    by_cases hqty : 0 < u.fillQty
    · rw [if_pos hqty] at halike
      obtain ⟨hprice, halike⟩ := halike
      obtain ⟨hentered, hmoved⟩ := @Entered.applyFillAt_of_pos cfg _ _ mo.order i h howns now u
        hqty hprice
      have hne : mo.order.side.signed u.fillQty ≠ 0 := VenuePosition.signed_ne_zero hqty
      rw [hmoved]
      convert hentered using 1
      rw [← hb]
      rw [Quoting.position, ← hposition, ← haverage] at halike
      by_cases hfilled : u.newState = .filled
      · rw [if_pos hfilled] at halike ⊢
        have hafter := entryAfter_eq_avgCost h.priced hne halike.1
        rw [entryPrice_onFill_of_filled hfilled, ← hposition, ← haverage, ← hafter]
        by_cases hstop : mo.order.clientOrderId = q.maker.stopId
        · rw [if_pos hstop, halike.2 hstop, entryAfter_flat]
        · rw [if_neg hstop]
      · rw [if_neg hfilled] at halike ⊢
        rw [← haverage]
        rcases halike with ⟨hclose, ⟨hkeep, hside⟩ | hpx⟩
        · exact (CostBasis.avgCost_fill_of_reduces hkeep hside).symm
        · exact (CostBasis.avgCost_fill_of_eq hne hclose hpx).symm
    · rw [if_neg hqty] at halike
      obtain ⟨hentered, hmoved⟩ := @Entered.applyFillAt_of_nonpos cfg _ _ mo.order i h howns now u
        hqty
      rw [hmoved]
      convert hentered using 1
      by_cases hfilled : u.newState = .filled
      · rw [if_pos hfilled, entryPrice_onFill_of_filled hfilled]
        rcases halike hfilled with hflat | ⟨hstop, hkeeps⟩
        · have hentry : q.maker.entryPrice = 0 := h.eq_zero_iff.mpr hflat
          rw [hentry, show q.manager.position = 0 from hflat, entryAfter_flat, ite_self]
        · rw [if_neg hstop]
          by_cases hflat : q.manager.position = 0
          · rw [hflat, entryAfter_flat, h.eq_zero_iff.mpr hflat]
          · have hentry : 0 < q.maker.entryPrice :=
              h.nonneg.lt_of_ne' fun hzero => hflat (h.eq_zero_iff.mp hzero)
            exact entryAfter_eq_self hflat hentry hkeeps
      · rw [if_neg hfilled]

end Quoting

/-! ## Runs -/

/-- The order of a task is for the record of the market maker. -/
def Task.OwnedBy (cfg : MarketMakerConfig) : Task → Prop
  | .submit _ order | .answered _ _ order _ => cfg.Owns order
  | _ => True

/-- **The invariant**: the entry price is the average of the ledger, and all orders are for one
record. -/
structure TrueEntry (cfg : MarketMakerConfig) (q : Quoting) : Prop where
  cfg_eq : q.maker.cfg = cfg
  entered : Entered cfg q.maker.entryPrice q.manager
  tasks : ∀ task ∈ q.tasks, task.OwnedBy cfg

namespace TrueEntry

open NeuralAlphaMarketMaker

variable {cfg : MarketMakerConfig} {q : Quoting} {pow : ℚ → ℚ → ℚ} {r : Reading}

theorem entryPrice_setOrderId (mm : NeuralAlphaMarketMaker) (role : OrderRole) (id : ℕ) :
    (mm.setOrderId role id).entryPrice = mm.entryPrice := by
  rcases role with (_ | _) | _ <;> rfl

/-- An id that is set. -/
theorem setOrderId (h : TrueEntry cfg q) (role : OrderRole) (id : ℕ) :
    TrueEntry cfg { q with maker := q.maker.setOrderId role id } :=
  ⟨(cfg_setOrderId _ _ _).trans h.cfg_eq, by
    simp only [entryPrice_setOrderId]
    exact h.entered, h.tasks⟩

/-- Tasks put in front. -/
theorem push (h : TrueEntry cfg q) {tasks : List Task} (htasks : ∀ task ∈ tasks, task.OwnedBy cfg) :
    TrueEntry cfg { q with tasks := tasks ++ q.tasks } :=
  ⟨h.cfg_eq, h.entered, List.forall_mem_append.mpr ⟨htasks, h.tasks⟩⟩

theorem owns_stopOrder {mm : NeuralAlphaMarketMaker} {pos mid : ℚ} {order : Order}
    (h : mm.stopOrder pos mid = some order) : mm.cfg.Owns order := by
  simp only [stopOrder] at h
  split_ifs at h <;> rw [← Option.some.inj h] <;> exact ⟨rfl, rfl⟩

theorem owned_cancelQuotes : ∀ task ∈ cancelQuotes, task.OwnedBy cfg := by
  intro task htask
  rcases List.mem_pair.mp htask with rfl | rfl <;> trivial

theorem owned_postQuotes (h : q.maker.cfg = cfg) (mid : ℚ) (sig : StampedAlphaSignal)
    (regime : StampedRegimeSignal) :
    ∀ task ∈ q.postQuotes pow r mid sig regime, task.OwnedBy cfg := by
  subst h
  intro task htask
  simp only [Quoting.postQuotes] at htask
  cases hquotes : q.maker.quotes pow q.position mid sig regime r.now r.nowRegime with
  | none =>
    rw [hquotes] at htask
    exact owned_cancelQuotes task htask
  | some quotes =>
    simp only [hquotes, List.mem_append, List.mem_singleton] at htask
    rcases htask with (htask | htask) | rfl
    · split_ifs at htask
      · rw [List.mem_singleton.mp htask]
        exact ⟨rfl, rfl⟩
      · exact (List.not_mem_nil htask).elim
    · split_ifs at htask
      · rw [List.mem_singleton.mp htask]
        exact ⟨rfl, rfl⟩
      · exact (List.not_mem_nil htask).elim
    · trivial

theorem send (h : TrueEntry cfg q) (role : OrderRole) {order : Order} (howns : cfg.Owns order) :
    TrueEntry cfg (q.send r role order) := by
  rw [Quoting.send]
  by_cases hchecks : (!r.checksPass) = true
  · rw [if_pos hchecks]
    exact h.setOrderId role 0
  · rw [if_neg hchecks]
    cases hbegin : q.manager.beginSubmit order r.now with
    | none => exact h.setOrderId role 0
    | some opened =>
      obtain ⟨i, m⟩ := opened
      refine ⟨h.cfg_eq, h.entered.beginSubmit howns hbegin, ?_⟩
      exact List.forall_mem_cons.mpr ⟨howns, h.tasks⟩

/-- **One task** keeps the entry price true, if both averages take alike what it drains. -/
theorem run (h : TrueEntry cfg q) {task : Task} (howned : task.OwnedBy cfg)
    (halike : task = .drainFills → ∀ u rest, q.manager.fillQueue.pop = some (u, rest) → ∀ i,
      q.manager.findOrder u.clientOrderId = some i →
        q.maker.TakesAlike q.position u (q.manager.slots.getD i {}).order) :
    TrueEntry cfg (q.run pow r task) := by
  cases task with
  | drainFills =>
    rw [Quoting.run]
    cases hpop : q.manager.fillQueue.pop with
    | none => exact h
    | some popped =>
      obtain ⟨u, rest⟩ := popped
      have hpopped : Entered cfg q.maker.entryPrice { q.manager with fillQueue := rest } :=
        h.entered.of_basis h.entered.orders rfl ⟨h.entered.room, rfl⟩
      obtain ⟨-, -, -, htasks, hcfg⟩ := Quoting.position_applyFill_maker
        { q with manager := { q.manager with fillQueue := rest } } r.now u
      refine ⟨hcfg.trans h.cfg_eq, ?_, ?_⟩
      · exact Quoting.entered_applyFill hpopped r.now (halike rfl u rest hpop)
      · refine List.forall_mem_cons.mpr ⟨trivial, fun task htask => h.tasks task ?_⟩
        rwa [htasks] at htask
  | readMarket =>
    rw [Quoting.run]
    split_ifs
    · exact h
    · obtain ⟨hcfg, hentered, htasks⟩ := @push _ _ h [.checkStop r.book.midPrice,
        .considerQuotes r.book.midPrice r.signal r.regime] (by simp [Task.OwnedBy])
      have hledger := q.manager.ledger.basis_updateMidPrice r.book.midPrice hentered.room
      rw [← h.cfg_eq] at hledger
      refine ⟨hcfg, hentered.of_basis hentered.orders rfl ?_, htasks⟩
      rw [← h.cfg_eq]
      exact hledger
  | checkStop mid =>
    rw [Quoting.run]
    cases hstop : q.maker.stopOrder q.position mid with
    | none => exact h
    | some order =>
      refine h.push (List.forall_mem_append.mpr ⟨owned_cancelQuotes, fun task htask => ?_⟩)
      obtain rfl := List.mem_singleton.mp htask
      exact h.cfg_eq ▸ owns_stopOrder hstop
  | considerQuotes mid sig regime =>
    rw [Quoting.run]
    split_ifs
    · exact @push _ _ h [.postQuotes mid sig regime] (by simp [Task.OwnedBy])
    · exact h.push (List.forall_mem_append.mpr ⟨owned_cancelQuotes, by simp [Task.OwnedBy]⟩)
    · exact h
  | cancel side =>
    rw [Quoting.run, Quoting.cancel]
    split_ifs
    · exact h
    · obtain ⟨hcfg, hentered, htasks⟩ := h.setOrderId (.quote side) 0
      exact ⟨hcfg, hentered, htasks⟩
    · exact h.setOrderId (.quote side) 0
  | postQuotes mid sig regime => exact h.push (owned_postQuotes h.cfg_eq mid sig regime)
  | submit role order => exact h.send role howned
  | answered role i order result =>
    rw [Quoting.run]
    have hfinished := h.entered.finishSubmit howned i result
    refine ⟨(cfg_setOrderId _ _ _).trans h.cfg_eq, ?_, h.tasks⟩
    simp only [entryPrice_setOrderId]
    exact hfinished
  | rememberQuotes mid signalBps => exact ⟨h.cfg_eq, h.entered, h.tasks⟩

end TrueEntry

namespace MakerState

variable {cfg : MarketMakerConfig} {s : MakerState} {pow : ℚ → ℚ → ℚ}

/-- The order that the next update is about, if there is one, is one that both averages take
alike. -/
def NextAlike (mm : NeuralAlphaMarketMaker) (pos : ℚ) : Option (FillUpdate × Order) → Prop
  | none => True
  | some (u, order) => mm.TakesAlike pos u order

/-- The next task drains no update but one that both averages take alike. -/
def HeadAlike (s : MakerState) : List Task → Prop
  | .drainFills :: _ => NextAlike s.quoting.maker s.quoting.position s.nextUpdate
  | _ => True

/-- **What a step drains is taken alike** by both averages. An order that is submitted from outside
is for the record of the market maker. -/
def TakesAlike (s : MakerState) : MakerEvent → Prop
  | .proceed _ => s.HeadAlike s.quoting.tasks
  | .submit order _ _ => s.quoting.maker.cfg.Owns order
  | _ => True

instance (mm : NeuralAlphaMarketMaker) (pos : ℚ) :
    (next : Option (FillUpdate × Order)) → Decidable (NextAlike mm pos next)
  | none => isTrue trivial
  | some (u, order) => inferInstanceAs (Decidable (mm.TakesAlike pos u order))

instance (s : MakerState) : (tasks : List Task) → Decidable (s.HeadAlike tasks)
  | .drainFills :: _ => inferInstanceAs (Decidable (NextAlike _ _ _))
  | [] | .readMarket :: _ | .checkStop _ :: _ | .considerQuotes _ _ _ :: _ | .cancel _ :: _
  | .postQuotes _ _ _ :: _ | .submit _ _ :: _ | .answered _ _ _ _ :: _ | .rememberQuotes _ _ :: _ =>
    isTrue trivial

instance (s : MakerState) : (e : MakerEvent) → Decidable (s.TakesAlike e)
  | .proceed _ => inferInstanceAs (Decidable (s.HeadAlike _))
  | .submit _ _ _ => inferInstanceAs (Decidable (MarketMakerConfig.Owns _ _))
  | .onBookUpdate _ | .update _ | .setAlphaSignal _ _ | .drainFills => isTrue trivial

/-- The next task. -/
theorem trueEntry_next (h : TrueEntry cfg s.quoting) (halike : s.HeadAlike s.quoting.tasks)
    (r : Reading) : TrueEntry cfg (s.quoting.step pow (.proceed r)) := by
  rw [Quoting.step]
  cases htasks : s.quoting.tasks with
  | nil => exact h
  | cons task rest =>
    obtain ⟨hcfg, hentered, howned⟩ := h
    rw [htasks] at howned halike
    obtain ⟨howned, hrest⟩ := List.forall_mem_cons.mp howned
    have hpopped : TrueEntry cfg { s.quoting with tasks := rest } := ⟨hcfg, hentered, hrest⟩
    refine hpopped.run howned ?_
    rintro rfl u left hpop i hfind
    have hnext : s.nextUpdate = some (u, (s.quoting.manager.slots.getD i {}).order) := by
      simp only [nextUpdate, hpop, show s.quoting.manager.findOrder u.clientOrderId = some i from
        hfind, Option.map_some]
    unfold HeadAlike at halike
    rw [hnext] at halike
    exact halike

/-- **One step** keeps the entry price true. -/
theorem trueEntry_step (h : TrueEntry cfg s.quoting) (memory : PositionLedger.Snapshot)
    {e : MakerEvent} (halike : s.TakesAlike e) : TrueEntry cfg (s.step pow memory e).1.quoting := by
  cases e with
  | onBookUpdate killed =>
    simp only [step, seen, Quoting.step]
    split_ifs
    · exact ⟨h.cfg_eq, h.entered, by simp [Task.OwnedBy]⟩
    · exact h
  | proceed r =>
    simp only [step, proceed]
    split
    · exact trueEntry_next h halike _
    · exact trueEntry_next h halike _
    · exact trueEntry_next h halike _
    · exact trueEntry_next h halike _
  | update u => exact ⟨h.cfg_eq, h.entered.receive u, h.tasks⟩
  | setAlphaSignal signalBps riskScore => exact ⟨h.cfg_eq, h.entered, h.tasks⟩
  | submit order now connector =>
    simp only [step]
    split_ifs
    · have howns : cfg.Owns order := h.cfg_eq ▸ halike
      exact ⟨h.cfg_eq, h.entered.submit howns now connector, h.tasks⟩
    · exact h
  | drainFills =>
    simp only [step]
    split_ifs
    · exact ⟨h.cfg_eq, h.entered, List.forall_mem_singleton.mpr trivial⟩
    · exact h

/-- **The entry price is the average of the ledger.** From a flat start without an entry price, in
every run in which both averages take alike what is drained, the entry price is the average entry
price that the ledger keeps for the same fills, and zero exactly when the position is. -/
theorem entryPrice_eq_average (pow : ℚ → ℚ → ℚ) (cfg : MarketMakerConfig)
    (breaker : Option MakerBreaker) (killSwitch : KillSwitch) {f : MakerMembers}
    (hposition : f.position = 0) (hentry : f.entryPrice = 0)
    {events : List (PositionLedger.Snapshot × MakerEvent)}
    (h : AllSteps (fun s x => (step pow s x.1 x.2).1) (fun s x => s.TakesAlike x.2)
      (found cfg breaker killSwitch f) events) :
    let s := events.foldl (fun s x => (step pow s x.1 x.2).1) (found cfg breaker killSwitch f)
    s.quoting.maker.entryPrice =
        (s.quoting.manager.ledger.venue cfg.exchange cfg.symbol.chars).avgEntryPrice ∧
      (s.quoting.maker.entryPrice = 0 ↔ s.quoting.position = 0) := by
  have hstart : TrueEntry cfg (found cfg breaker killSwitch f).quoting := by
    refine ⟨rfl, ?_, by simp [found]⟩
    simp only [found, hposition, hentry]
    exact Entered.new cfg
  have hrun := AllSteps.foldl (P := fun s => TrueEntry cfg s.quoting)
    (fun _ x hs halike => trueEntry_step hs x.1 halike) hstart h
  exact ⟨hrun.entered.average.symm, hrun.entered.eq_zero_iff⟩

/-! ## A partial fill -/

/-- The bid of a call is reported as filled, in part or at once, and the next call drains the
report. -/
def bidReported (state : OrderState) : List (PositionLedger.Snapshot × MakerEvent) :=
  (quotingCall ++ [MakerEvent.update { Quoting.bidFilled with newState := state },
    .onBookUpdate false, .proceed {}]).map fun e => (default, e)

/-- The position, the entry price and the average of the ledger at the end of a run. -/
def entries (events : List (PositionLedger.Snapshot × MakerEvent)) : ℚ × ℚ × ℚ :=
  let s := events.foldl (fun s x => (step (fun _ _ => 1) s x.1 x.2).1)
    (found Quoting.oneUnit.cfg none {} zeroMembers)
  (s.quoting.position, s.quoting.maker.entryPrice,
    (s.quoting.manager.ledger.venue Quoting.oneUnit.cfg.exchange
      Quoting.oneUnit.cfg.symbol.chars).avgEntryPrice)

/-- A bid that is filled at once gives the position its price. -/
theorem entryPrice_eq_average_bidFilled :
    let s := (bidReported .filled).foldl (fun s x => (step (fun _ _ => 1) s x.1 x.2).1)
      (found Quoting.oneUnit.cfg none {} zeroMembers)
    s.quoting.maker.entryPrice = (s.quoting.manager.ledger.venue Quoting.oneUnit.cfg.exchange
        Quoting.oneUnit.cfg.symbol.chars).avgEntryPrice ∧
      (s.quoting.maker.entryPrice = 0 ↔ s.quoting.position = 0) :=
  entryPrice_eq_average (fun _ _ => 1) Quoting.oneUnit.cfg none {} rfl rfl (by decide +kernel)

/-- **A partial fill** gives a position without an entry price, which the ledger has. -/
theorem partialFill_without_entry : entries (bidReported .partiallyFilled) = (1, 0, 100) := by
  decide +kernel

end MakerState

end TradingInfrastructure
