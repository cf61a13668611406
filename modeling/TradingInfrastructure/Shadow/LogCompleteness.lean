import TradingInfrastructure.Shadow.DecisionLog
import TradingInfrastructure.Shadow.OrderLife

/-!
# Completeness of the decision log

What a shadow connector tells its callback, and what it writes to its log. A fill is always written,
and so is the cancel of `cancel_order`. The cancels of `cancel_all`, those of expired
immediate-or-cancel orders, and rejects are told and not written (`Silent`).

Nothing is written that is not told, so the log of a run is complete exactly when no call of the run
is silent (`complete_runLog_iff`).
-/

namespace TradingInfrastructure

/-! ## Counts -/

/-- The event of a record of the update. -/
def FillUpdate.event (u : FillUpdate) : Option DecisionEvent :=
  match u.newState with
  | .filled | .partiallyFilled => some .fill
  | .canceled => some .canceled
  | .rejected => some .rejected
  | .pending | .open_ => none

/-- The events that the report counts as terminal. -/
def DecisionEvent.Terminal : DecisionEvent → Prop
  | .fill | .canceled | .rejected => True
  | .resting | .stateTransition => False

/-- How many records have the event. -/
def recorded (e : DecisionEvent) (log : List DecisionRecord) : ℕ := log.countP (·.event = e)

/-- How many updates have the event. -/
def told (e : DecisionEvent) (updates : List FillUpdate) : ℕ := updates.countP (·.event = some e)

/-- The fill rate of some updates. -/
def fillRateOf (updates : List FillUpdate) : ℚ :=
  let terminal := told .fill updates + told .canceled updates + told .rejected updates
  if terminal = 0 then 0 else told .fill updates / terminal

/-- As many fills, cancels and rejects are written as are told. -/
def Complete (log : List DecisionRecord) (updates : List FillUpdate) : Prop :=
  ∀ e : DecisionEvent, e.Terminal → recorded e log = told e updates

/-- The log is complete, and the report made of its rows has the counts and the fill rate of the
updates. -/
structure CompleteLog (log : List DecisionRecord) (updates : List FillUpdate) : Prop where
  complete : Complete log updates
  totalFills : (analyseDecisions (log.map DecisionRecord.row)).totalFills = told .fill updates
  totalCancels :
    (analyseDecisions (log.map DecisionRecord.row)).totalCancels = told .canceled updates
  totalRejects :
    (analyseDecisions (log.map DecisionRecord.row)).totalRejects = told .rejected updates
  fillRate : (analyseDecisions (log.map DecisionRecord.row)).fillRate = fillRateOf updates

theorem recorded_append (e : DecisionEvent) (log log' : List DecisionRecord) :
    recorded e (log ++ log') = recorded e log + recorded e log' := List.countP_append ..

theorem told_append (e : DecisionEvent) (updates updates' : List FillUpdate) :
    told e (updates ++ updates') = told e updates + told e updates' := List.countP_append ..

/-- The report is made of the counts. -/
theorem completeLog_iff {log : List DecisionRecord} {updates : List FillUpdate} :
    CompleteLog log updates ↔ Complete log updates := by
  refine ⟨CompleteLog.complete, fun h => ?_⟩
  have hcount : ∀ e : DecisionEvent, e.Terminal →
      ((log.map DecisionRecord.row).filter fun r => r.event = e).length = told e updates := by
    intro e he
    rw [← h e he, recorded, ← List.countP_eq_length_filter, List.countP_map]
    rfl
  have hfill := hcount .fill trivial
  have hcancel := hcount .canceled trivial
  have hreject := hcount .rejected trivial
  refine ⟨h, hfill, hcancel, hreject, ?_⟩
  simp only [analyseDecisions, fillRateOf]
  rw [hfill, hcancel, hreject]

/-! ## What a step writes and tells -/

/-- A step from the accounts `a` to `a'` writes the log. It tells what it writes, and more exactly
when it is silent. -/
def LoggedStep (silent : Prop) (log : List DecisionRecord) (a a' : ShadowAccounts) : Prop :=
  ∃ emitted, a'.updates = a.updates ++ emitted ∧
    (∀ e : DecisionEvent, e.Terminal → recorded e log ≤ told e emitted) ∧
    (Complete log emitted ↔ ¬silent)

namespace LoggedStep

variable {silent silent' : Prop} {log log' : List DecisionRecord} {a a' a'' : ShadowAccounts}

/-- A step that tells nothing, and writes of no more than a resting order. -/
theorem quiet (hlog : ∀ e : DecisionEvent, e.Terminal → recorded e log = 0) :
    LoggedStep False log a a := by
  refine ⟨[], (List.append_nil _).symm, fun e he => (hlog e he).le, ?_⟩
  exact iff_of_true (fun e he => hlog e he) id

theorem congr (h : LoggedStep silent log a a') (hiff : silent ↔ silent') : LoggedStep silent' log a a' := by
  rwa [propext hiff] at h

/-- One step after another. -/
theorem trans (h : LoggedStep silent log a a') (h' : LoggedStep silent' log' a' a'') :
    LoggedStep (silent ∨ silent') (log ++ log') a a'' := by
  obtain ⟨emitted, hupdates, hle, hiff⟩ := h
  obtain ⟨emitted', hupdates', hle', hiff'⟩ := h'
  refine ⟨emitted ++ emitted', ?_, fun e he => ?_, ?_⟩
  · rw [hupdates', hupdates, List.append_assoc]
  · rw [recorded_append, told_append]
    exact Nat.add_le_add (hle e he) (hle' e he)
  · rw [not_or, ← hiff, ← hiff']
    -- both parts are bounds, so the sums are equal only where both are
    have hsplit : ∀ e : DecisionEvent, e.Terminal →
        (recorded e (log ++ log') = told e (emitted ++ emitted') ↔
          recorded e log = told e emitted ∧ recorded e log' = told e emitted') := by
      intro e he
      have := hle e he
      have := hle' e he
      rw [recorded_append, told_append]
      omega
    constructor
    · intro h
      exact ⟨fun e he => ((hsplit e he).mp (h e he)).1, fun e he => ((hsplit e he).mp (h e he)).2⟩
    · rintro ⟨h, h'⟩ e he
      exact (hsplit e he).mpr ⟨h e he, h' e he⟩

/-- All slots in turn. -/
theorem sweep {f : ShadowAccounts → ShadowOrder → ShadowAccounts × ShadowOrder}
    {g : ShadowAccounts → ShadowOrder → List DecisionRecord} {P : ShadowOrder → Prop}
    (h : ∀ a s, LoggedStep (P s) (g a s) a (f a s).1) (a : ShadowAccounts) (slots : List ShadowOrder) :
    LoggedStep (∃ s ∈ slots, P s) (SlotPool.sweepLog f g a slots) a (SlotPool.sweep f a slots).1 := by
  induction slots generalizing a with
  | nil => exact (quiet fun _ _ => rfl).congr (by simp)
  | cons s slots ih => exact ((h a s).trans (ih (f a s).1)).congr (by simp)

/-- A fill, which is written. -/
theorem fill (u : FillUpdate) (hu : u.event = some .fill) (r : DecisionRecord)
    (hr : r.event = .fill) (hupdates : a'.updates = a.updates ++ [u]) : LoggedStep False [r] a a' := by
  have hcounts : ∀ e : DecisionEvent, recorded e [r] = told e [u] := by
    intro e
    simp [recorded, told, hu, hr]
  exact ⟨[u], hupdates, fun e _ => (hcounts e).le, iff_of_true (fun e _ => hcounts e) id⟩

/-- A cancel or a reject, which is not written. -/
theorem unwritten (u : FillUpdate) {e : DecisionEvent} (hu : u.event = some e)
    (he : e.Terminal) (hupdates : a'.updates = a.updates ++ [u]) : LoggedStep True [] a a' := by
  refine ⟨[u], hupdates, fun _ _ => Nat.zero_le _, ?_⟩
  refine iff_of_false (fun h => ?_) (not_not_intro trivial)
  have hcount := h e he
  simp [recorded, told, hu] at hcount

end LoggedStep

/-! ## What the connector tells -/

namespace ShadowOrder

variable {cfg : ShadowConfig} {book : OrderBook} {now : ℤ} {s : ShadowOrder} {a : ShadowAccounts}

/-- A quantity that is taken to a side without a price is rejected. -/
def Unpriced (book : OrderBook) (s : ShadowOrder) (qty : ℚ) : Prop :=
  0 < qty ∧ oppositeBest book s.side ≤ 0

/-- A check that tells and does not write: it rejects the rest of a market order, or cancels an
expired order. -/
def SilentAt (book : OrderBook) (now : ℤ) (s : ShadowOrder) : Prop :=
  (s.active = true ∧ s.releaseTsNs ≤ now) ∧
    if s.type = .market then s.Unpriced book (s.quantity - s.filledQty)
    else s.isImmediatelyFillable book = false ∧ s.tif = .ioc

instance (book : OrderBook) (s : ShadowOrder) (qty : ℚ) : Decidable (s.Unpriced book qty) :=
  inferInstanceAs (Decidable (_ ∧ _))

instance (book : OrderBook) (now : ℤ) (s : ShadowOrder) : Decidable (s.SilentAt book now) := by
  unfold SilentAt
  infer_instance

theorem event_fillUpdate (px qty : ℚ) : (s.fillUpdate px qty now).event = some .fill := by
  unfold FillUpdate.event fillUpdate
  split_ifs <;> rfl

theorem logged_fillAtBest (qty : ℚ) : LoggedStep (s.Unpriced book qty)
    (s.fillAtBestLog cfg book now a qty) a (s.fillAtBest cfg book now a qty).1 := by
  unfold fillAtBestLog
  by_cases hqty : qty ≤ 0
  · rw [if_pos hqty, fillAtBest, if_pos hqty]
    exact (LoggedStep.quiet fun _ _ => rfl).congr (iff_of_false id fun h => absurd hqty (not_le.mpr h.1))
  · by_cases hbest : oppositeBest book s.side ≤ 0
    · rw [if_neg hqty, if_pos hbest, fillAtBest, if_neg hqty, if_pos hbest]
      exact (LoggedStep.unwritten _ (e := .rejected) rfl trivial rfl).congr
        (iff_of_true trivial ⟨not_le.mp hqty, hbest⟩)
    · rw [if_neg hqty, if_neg hbest, applyFillLog, if_neg hqty,
        fillAtBest_of_pos (not_le.mp hqty) (not_le.mp hbest)]
      have hevent := @event_fillUpdate now
        (s.filledBy (applySlippage cfg book (oppositeBest book s.side) qty s.side) qty)
        (applySlippage cfg book (oppositeBest book s.side) qty s.side) qty
      refine (LoggedStep.fill _ hevent _ rfl ?_).congr (iff_of_false id fun h => hbest h.2)
      simp only [ShadowAccounts.emit, ShadowAccounts.updates_bookFill]

/-- What crosses is filled, or waits. -/
theorem logged_fillPassiveOrCross (hbest : 0 < oppositeBest book s.side) :
    LoggedStep False (s.fillPassiveOrCrossLog cfg book now a) a
      (s.fillPassiveOrCross cfg book now a).1 := by
  have hpriced : ∀ (t : ShadowOrder) qty, t.side = s.side → ¬t.Unpriced book qty :=
    fun t qty hside h => absurd (hside ▸ h.2) (not_le.mpr hbest)
  have htop := topOppositeSize_pos hbest
  simp only [fillPassiveOrCrossLog, fillPassiveOrCross, not_le.mpr htop, if_false]
  split_ifs
  · exact LoggedStep.quiet fun _ _ => rfl
  · exact LoggedStep.quiet fun _ _ => rfl
  · exact (logged_fillAtBest _).congr (iff_of_false (hpriced _ _ rfl) id)
  · exact (logged_fillAtBest _).congr (iff_of_false (hpriced _ _ rfl) id)

/-- **What a visit of `check_fills` tells.** -/
theorem logged_checkFill : LoggedStep (s.SilentAt book now) (s.checkFillLog cfg book now a) a
    (s.checkFill cfg book now a).1 := by
  by_cases hreleased : s.active = true ∧ s.releaseTsNs ≤ now
  · have hskip : (!s.active || decide (now < s.releaseTsNs)) = false := by
      simp [hreleased.1, hreleased.2]
    rw [SilentAt, and_iff_right hreleased, checkFill_released hreleased.1 hreleased.2,
      checkFillLog, hskip]
    by_cases htype : s.type = .market
    · simp only [Bool.false_eq_true, htype, if_true, if_false]
      exact logged_fillAtBest _
    · by_cases hfillable : s.isImmediatelyFillable book = true
      · simp only [Bool.false_eq_true, htype, hfillable, Bool.not_true, Bool.and_false, if_true,
          if_false]
        exact (logged_fillPassiveOrCross (oppositeBest_pos htype hfillable)).congr
          (iff_of_false id fun h => Bool.noConfusion h.1)
      · by_cases hioc : s.tif = .ioc
        · simp only [Bool.false_eq_true, htype, hfillable, hioc, Bool.not_false, decide_true,
            Bool.and_self, if_true, if_false]
          exact (LoggedStep.unwritten _ (e := .canceled) rfl trivial rfl).congr
            (iff_of_true trivial ⟨trivial, trivial⟩)
        · simp only [Bool.false_eq_true, htype, hfillable, hioc, Bool.not_false, decide_false,
            Bool.and_true, if_false]
          exact (LoggedStep.quiet fun _ _ => rfl).congr (iff_of_false id fun h => h.2)
  · have hskip : (!s.active || decide (now < s.releaseTsNs)) = true := by
      rw [not_and_or, not_le] at hreleased
      simpa using hreleased
    rw [checkFillLog, hskip, if_pos rfl, checkFill_waiting hreleased]
    exact (LoggedStep.quiet fun _ _ => rfl).congr (iff_of_false id fun h => hreleased h.1)

/-- A cancel that is written, as `cancel_order` does it. -/
theorem logged_cancelOrder :
    LoggedStep False [{ event := .canceled }] a (s.cancelAt now a).1 := by
  have hcounts : ∀ e : DecisionEvent, recorded e [{ event := .canceled }] =
      told e [s.cancelUpdate now] := by
    intro e
    simp [recorded, told, FillUpdate.event, cancelUpdate]
  exact ⟨[s.cancelUpdate now], rfl, fun e _ => (hcounts e).le,
    iff_of_true (fun e _ => hcounts e) id⟩

/-- A cancel of `cancel_all`. -/
theorem logged_cancelMatching (symbol : CString) :
    LoggedStep (s.active = true ∧ strncmpEq 15 s.symbol.chars symbol = true) [] a
      (s.cancelMatching symbol now a).1 := by
  unfold cancelMatching
  by_cases hmatch : s.active = true ∧ strncmpEq 15 s.symbol.chars symbol = true
  · rw [if_pos (by simpa using hmatch)]
    exact (LoggedStep.unwritten _ (e := .canceled) rfl trivial rfl).congr (iff_of_true trivial hmatch)
  · rw [if_neg (by simpa using hmatch)]
    exact (LoggedStep.quiet fun _ _ => rfl).congr (iff_of_false id hmatch)

end ShadowOrder

/-! ## The calls -/

namespace ShadowConnector

variable {c : ShadowConnector} {book : OrderBook} {now : ℤ} {a : ShadowAccounts}

/-- A submission that tells and does not write: a market order that is released at once and finds
no price is rejected. -/
def SilentSubmit (c : ShadowConnector) (book : OrderBook) (order : Order) : Prop :=
  (∃ s ∈ c.orders, s.active = false) ∧ modeledLatencyNs c.cfg order.clientOrderId ≤ 0 ∧
    order.type = .market ∧ 0 < order.quantity ∧ ShadowOrder.oppositeBest book order.side ≤ 0

/-- A call that tells and does not write: `cancel_all` finds an active order of the symbol,
`check_fills` cancels or rejects one, or an order that is submitted is rejected, in the place of the
one it replaces or not. -/
def Silent (c : ShadowConnector) (x : OrderBook × ℤ × Call) : Prop :=
  match x with
  | (book, _, .submit order) => c.SilentSubmit book order
  | (_, _, .cancel _) => False
  | (book, now, .replace clientId replacement) =>
    (c.cancelOrder now clientId).1 = .ok ∧
      (c.cancelOrder now clientId).2.SilentSubmit book replacement
  | (_, _, .cancelAll symbol) =>
    ∃ s ∈ c.orders, s.active = true ∧ strncmpEq 15 s.symbol.chars symbol = true
  | (book, now, .checkFills) => ∃ s ∈ c.orders, s.SilentAt book now

instance (book : OrderBook) (order : Order) : Decidable (c.SilentSubmit book order) :=
  inferInstanceAs (Decidable (_ ∧ _))

theorem logged_placeOrder {s : ShadowOrder} :
    LoggedStep (s.releaseTsNs ≤ s.submitTsNs ∧ s.type = .market ∧ s.Unpriced book s.quantity)
      (placeOrderLog c.cfg book now a s) a (placeOrder c.cfg book now a s).1 := by
  have hmarket : s.type = .market → s.isImmediatelyFillable book = true := by
    intro htype
    rw [ShadowOrder.isImmediatelyFillable, htype]
  have hlog : placeOrderLog c.cfg book now a s =
      if s.releaseTsNs ≤ s.submitTsNs ∧ s.isImmediatelyFillable book = true then
        s.fillAtBestLog c.cfg book now a s.quantity
      else [{ event := .resting }] := by
    by_cases htype : s.type = .market
    · simp [placeOrderLog, htype, hmarket htype]
    · simp [placeOrderLog, htype]
  rw [hlog, ShadowOrder.placeOrder_eq]
  by_cases hplaced : s.releaseTsNs ≤ s.submitTsNs ∧ s.isImmediatelyFillable book = true
  · rw [if_pos hplaced, if_pos hplaced]
    refine (ShadowOrder.logged_fillAtBest _).congr ⟨fun h => ⟨hplaced.1, ?_, h⟩, fun h => h.2.2⟩
    by_contra htype
    exact absurd h.2 (not_le.mpr (ShadowOrder.oppositeBest_pos htype hplaced.2))
  · rw [if_neg hplaced, if_neg hplaced]
    refine (LoggedStep.quiet fun e he => ?_).congr
      (iff_of_false id fun h => hplaced ⟨h.1, hmarket h.2.1⟩)
    cases e with
    | fill | canceled | rejected => rfl
    | resting | stateTransition => exact he.elim

theorem logged_submitOrder (order : Order) : LoggedStep (c.SilentSubmit book order)
    (c.submitOrderLog book now order) c.accounts (c.submitOrder book now order).2.accounts := by
  unfold submitOrderLog submitOrder
  cases hslot : c.orders.findIdx? fun s => !s.active with
  | none =>
    refine (LoggedStep.quiet fun _ _ => rfl).congr (iff_of_false id fun h => ?_)
    obtain ⟨s, hs, hidle⟩ := h.1
    have hactive := SlotPool.not_of_findIdx?_eq_none hslot hs
    simp [hidle] at hactive
  | some i =>
    obtain ⟨s, -, hidle, hs⟩ := SlotPool.getElem?_of_findIdx? hslot
    have hfree : ∃ s ∈ c.orders, s.active = false := ⟨s, hs, by simpa using hidle⟩
    refine (@logged_placeOrder c book now c.accounts _).congr ?_
    rw [SilentSubmit, and_iff_right hfree]
    simp [newOrder, ShadowOrder.Unpriced]

theorem logged_cancelOrder (clientId : ℕ) : LoggedStep False (c.cancelOrderLog clientId) c.accounts
    (c.cancelOrder now clientId).2.accounts := by
  unfold cancelOrderLog cancelOrder
  cases c.orders.findIdx? fun s => s.active && s.clientOrderId == clientId with
  | none => exact LoggedStep.quiet fun _ _ => rfl
  | some i => exact ShadowOrder.logged_cancelOrder

theorem logged_replaceOrder (clientId : ℕ) (replacement : Order) :
    LoggedStep (c.Silent (book, now, .replace clientId replacement))
      (c.replaceOrderLog book now clientId replacement) c.accounts
      (c.replaceOrder book now clientId replacement).2.accounts := by
  have hcancel := @logged_cancelOrder c now clientId
  unfold replaceOrderLog replaceOrder Silent
  obtain ⟨result, c', h⟩ : ∃ result c', c.cancelOrder now clientId = (result, c') := ⟨_, _, rfl⟩
  rw [h] at hcancel
  simp only [h]
  cases result with
  | ok => exact (hcancel.trans (logged_submitOrder replacement)).congr (by simp)
  | _ => exact (hcancel.trans (LoggedStep.quiet fun _ _ => rfl)).congr (by simp)

/-- **What a call tells.** -/
theorem logged_call (x : OrderBook × ℤ × Call) :
    LoggedStep (c.Silent x) (c.callLog x) c.accounts (c.call x).accounts := by
  obtain ⟨book, now, op⟩ := x
  cases op with
  | submit order => exact logged_submitOrder order
  | cancel clientId => exact logged_cancelOrder clientId
  | replace clientId replacement => exact logged_replaceOrder clientId replacement
  | cancelAll symbol =>
    have hsweep := LoggedStep.sweep (g := fun _ _ => [])
      (fun a s => @ShadowOrder.logged_cancelMatching now s a symbol) c.accounts c.orders
    rwa [SlotPool.sweepLog_nil] at hsweep
  | checkFills =>
    exact LoggedStep.sweep (fun a s => @ShadowOrder.logged_checkFill c.cfg book now s a)
      c.accounts c.orders

/-! ## The runs -/

/-- What the calls of a run write. -/
def runLog : ShadowConnector → List (OrderBook × ℤ × Call) → List DecisionRecord
  | _, [] => []
  | c, x :: xs => c.callLog x ++ runLog (c.call x) xs

/-- What a run tells. -/
theorem logged_run {calls : List (OrderBook × ℤ × Call)} :
    LoggedStep (¬AllSteps call (fun c x => ¬c.Silent x) c calls) (c.runLog calls) c.accounts
      (calls.foldl call c).accounts := by
  induction calls generalizing c with
  | nil => exact (LoggedStep.quiet fun _ _ => rfl).congr (iff_of_false id fun h => h trivial)
  | cons x xs ih =>
    refine ((logged_call x).trans ih).congr ?_
    rw [AllSteps, not_and_or, not_not]

/-- **When the log of a run is complete**: exactly when no call of the run is silent. -/
theorem complete_runLog_iff (cfg : ShadowConfig) (calls : List (OrderBook × ℤ × Call)) :
    CompleteLog ((new cfg).runLog calls) (calls.foldl call (new cfg)).accounts.updates ↔
      AllSteps call (fun c x => ¬c.Silent x) (new cfg) calls := by
  obtain ⟨emitted, hupdates, -, hiff⟩ := @logged_run (new cfg) calls
  rw [completeLog_iff, hupdates, show (new cfg).accounts.updates = [] from rfl, List.nil_append,
    hiff, not_not]

/-- An order that rests, and the cancel of all orders. -/
def restingAndCancelAll : List (OrderBook × ℤ × Call) :=
  [(.atTouchBook, 5, .submit { clientOrderId := 7, price := 1, quantity := 1 }),
    (.atTouchBook, 6, .cancelAll [])]

/-- **A cancel that is told and not written.** -/
theorem restingAndCancelAll_not_complete :
    ¬CompleteLog ((new flatFees).runLog restingAndCancelAll)
      (restingAndCancelAll.foldl call (new flatFees)).accounts.updates := by
  intro h
  have hcount := h.complete .canceled trivial
  revert hcount
  decide +kernel

end ShadowConnector

end TradingInfrastructure
