import TradingInfrastructure.Shadow.SlotSteps
import TradingInfrastructure.Shadow.LedgerAgreement
import TradingInfrastructure.OrderBook.Soundness

/-!
# The shadow accounts balance

The accounts of a shadow connector change in two ways only: a fill is booked, or an update is
emitted. So what both keep holds after every run of the connector (`ShadowConnector.run_keeps`).
When the quantities of the fills are multiples of a lot larger than `POSITION_EPSILON`, no fill
leaves dust, and booking keeps the accounts the average-cost basis of the logged fills, with the
cash that was paid for them (`ShadowAccounts.Tallied`).
-/

namespace TradingInfrastructure

/-! ## What the operations keep -/

/-- A property of the accounts that booking a fill and emitting an update keep. -/
structure KeptByFills (P : ShadowAccounts → Prop) : Prop where
  bookFill : ∀ a f opened now, 0 < f.fillQty → P a → P (a.bookFill f opened now)
  emit : ∀ a u, P a → P (a.emit u)

variable {P : ShadowAccounts → Prop}

theorem ShadowOrder.SlotStep.keeps (hP : KeptByFills P) {cfg : ShadowConfig} {book : OrderBook}
    {now : ℤ} {cancels crosses : Prop} {a : ShadowAccounts} {s : ShadowOrder}
    {r : ShadowAccounts × ShadowOrder} (h : s.SlotStep cfg book now cancels crosses a r)
    (ha : P a) :
    P r.1 := by
  cases h with
  | quiet => exact ha
  | fill queueAhead px qty _ hpos =>
    simp only [applyFill, not_le.mpr hpos, if_false]
    exact hP.emit _ _ (hP.bookFill _ _ _ _ hpos ha)
  | cancel => exact hP.emit _ _ ha
  | reject => exact hP.emit _ _ ha

namespace ShadowConnector

/-- A call of the connector. -/
inductive Call
  | submit (order : Order)
  | cancel (clientId : ℕ)
  | replace (clientId : ℕ) (replacement : Order)
  | cancelAll (symbol : CString)
  | checkFills

/-- The connector after a call, with the book and the time that the call reads. -/
def call (c : ShadowConnector) (x : OrderBook × ℤ × Call) : ShadowConnector :=
  match x with
  | (book, now, .submit order) => (c.submitOrder book now order).2
  | (_, now, .cancel clientId) => (c.cancelOrder now clientId).2
  | (book, now, .replace clientId replacement) => (c.replaceOrder book now clientId replacement).2
  | (_, now, .cancelAll symbol) => (c.cancelAll now symbol).2
  | (book, now, .checkFills) => c.checkFills book now

variable {c : ShadowConnector} {book : OrderBook} {now : ℤ}

theorem submitOrder_keeps (hP : KeptByFills P) (order : Order) (hc : P c.accounts) :
    P (c.submitOrder book now order).2.accounts := by
  unfold submitOrder
  split
  · exact hc
  · exact (placeOrder_step rfl rfl).keeps hP hc

theorem cancelOrder_keeps (hP : KeptByFills P) (clientId : ℕ) (hc : P c.accounts) :
    P (c.cancelOrder now clientId).2.accounts := by
  unfold cancelOrder
  split
  · exact hc
  · exact hP.emit _ _ hc

theorem sweep_keeps (hP : KeptByFills P)
    {f : ShadowAccounts → ShadowOrder → ShadowAccounts × ShadowOrder}
    {cancels crosses : ShadowOrder → Prop}
    (hf : ∀ a (s : ShadowOrder), s.SlotStep c.cfg book now (cancels s) (crosses s) a (f a s))
    (hc : P c.accounts) :
    P (SlotPool.sweep f c.accounts c.orders).1 := by
  refine SlotPool.sweep_induction (R := fun a a' => P a → P a') (fun _ h => h)
    (fun h h' ha => h' (h ha)) (fun a s _ ha => ?_) c.accounts hc
  exact (hf a s).keeps hP ha

theorem call_keeps (hP : KeptByFills P) (x : OrderBook × ℤ × Call) (hc : P c.accounts) :
    P (c.call x).accounts := by
  obtain ⟨book, now, op⟩ := x
  cases op with
  | submit order => exact submitOrder_keeps hP order hc
  | cancel clientId => exact cancelOrder_keeps hP clientId hc
  | replace clientId replacement =>
    have hcanceled : P (c.cancelOrder now clientId).2.accounts :=
      cancelOrder_keeps hP clientId hc
    simp only [call, replaceOrder]
    split
    · next c' he =>
      rw [he] at hcanceled
      exact submitOrder_keeps hP replacement hcanceled
    · next result c' _ he =>
      rw [he] at hcanceled
      exact hcanceled
  | cancelAll symbol =>
    have hstep : ∀ a (s : ShadowOrder), s.SlotStep c.cfg book now
        (strncmpEq 15 s.symbol.chars symbol = true) False a (s.cancelMatching symbol now a) :=
      fun _ _ => ShadowOrder.cancelMatching_step symbol
    exact sweep_keeps hP hstep hc
  | checkFills => exact sweep_keeps hP (fun a s => ShadowOrder.checkFill_step) hc

/-- What booking and emitting keep holds after every run. -/
theorem run_keeps (hP : KeptByFills P) (calls : List (OrderBook × ℤ × Call)) (hc : P c.accounts) :
    P (calls.foldl call c).accounts :=
  foldl_induction (P := fun c : ShadowConnector => P c.accounts)
    (fun _ x h (_ : True) => call_keeps hP x h) hc fun _ _ => trivial

end ShadowConnector

/-! ## Fills in lots -/

/-- The fill is of a positive number of lots, at a positive price. -/
def ShadowFill.InLots (lot : ℚ) (f : ShadowFill) : Prop :=
  0 < f.fillPx ∧ ∃ n : ℕ, 0 < n ∧ f.fillQty = n * lot

/-- The signed quantity and the price of a logged fill. -/
def ShadowFill.entry (f : ShadowFill) : ℚ × ℚ := (f.side.signed f.fillQty, f.fillPx)

theorem ShadowFill.InLots.qty_pos {lot : ℚ} (hlot : 0 < lot) {f : ShadowFill} (h : f.InLots lot) :
    0 < f.fillQty := by
  obtain ⟨-, n, hn, hq⟩ := h
  rw [hq]
  exact mul_pos (by exact_mod_cast hn) hlot

/-- A quantity of whole lots, larger than the epsilon, is never dust. -/
theorem not_leavesDust {lot x q : ℚ} (hlot : ShadowAccounts.positionEpsilon < lot)
    (hx : OnTick lot x) (hq : OnTick lot q) : ¬ LeavesDust x q := by
  rintro ⟨-, hne, hle⟩
  obtain ⟨k, rfl⟩ := hx
  obtain ⟨l, rfl⟩ := hq
  have hpos : 0 < lot := ShadowAccounts.positionEpsilon_pos.trans hlot
  have hsum : (k : ℚ) * lot + l * lot = (k + l : ℤ) * lot := by push_cast; ring
  rw [hsum, abs_mul, abs_of_pos hpos] at hle
  have hkl : k + l ≠ 0 := by
    rintro h0
    rw [hsum, h0] at hne
    simp at hne
  have hone : (1 : ℚ) ≤ |((k + l : ℤ) : ℚ)| := by
    exact_mod_cast Int.one_le_abs hkl
  have := le_mul_of_one_le_left hpos.le hone
  linarith

theorem ShadowFill.InLots.onTick {lot : ℚ} {f : ShadowFill} (h : f.InLots lot) :
    OnTick lot (f.side.signed f.fillQty) := by
  obtain ⟨-, n, -, hq⟩ := h
  cases f.side
  · exact ⟨n, by simp [hq]⟩
  · exact ⟨-n, by simp [hq]⟩

namespace ShadowAccounts

/-- The accounts are the average-cost basis of the logged fills, and the cash is what was paid
for them and their fees. -/
structure Tallied (a : ShadowAccounts) : Prop where
  basis : a.basis = CostBasis.flat.fills (a.fillLog.map ShadowFill.entry)
  cash : a.netCashflow = -CostBasis.cost (a.fillLog.map ShadowFill.entry) - a.totalFees

/-- A fill of the position leaves the cash and the fees alone. -/
theorem applyPositionFill_frame (a : ShadowAccounts) (side : Side) (qty px : ℚ) (now : ℤ) :
    (a.applyPositionFill side qty px now).netCashflow = a.netCashflow ∧
      (a.applyPositionFill side qty px now).totalFees = a.totalFees := by
  simp only [applyPositionFill]
  split_ifs <;> exact ⟨rfl, rfl⟩

/-- What booking a fill without dust does. -/
theorem bookFill_spec (a : ShadowAccounts) {f : ShadowFill} (hpos : 0 < f.fillQty)
    (hdust : ¬ LeavesDust a.netPosition (f.side.signed f.fillQty)) (opened : Bool) (now : ℤ) :
    (a.bookFill f opened now).basis = a.basis.fill (f.side.signed f.fillQty) f.fillPx ∧
      (a.bookFill f opened now).totalFees = a.totalFees + f.fee ∧
      (a.bookFill f opened now).netCashflow =
        a.netCashflow - f.side.signed f.fillQty * f.fillPx - f.fee := by
  obtain ⟨hcash, hfees⟩ :=
    (a.bookCash f opened).applyPositionFill_frame f.side f.fillQty f.fillPx now
  refine ⟨(a.bookCash f opened).basis_applyPositionFill f.side f.fillPx now hpos hdust, hfees, ?_⟩
  rw [bookFill, hcash, bookCash]
  cases f.side
  · simp only [reduceCtorEq, if_false, Side.signed_bid]
    ring
  · simp only [if_true, Side.signed_ask]
    ring

/-- **Booking a fill in lots keeps the accounts tallied.** -/
theorem Tallied.bookFill {a : ShadowAccounts} (h : a.Tallied) {lot : ℚ}
    (hlot : positionEpsilon < lot) (hlog : ∀ g ∈ a.fillLog, g.InLots lot) {f : ShadowFill}
    (hf : f.InLots lot) (opened : Bool) (now : ℤ) : (a.bookFill f opened now).Tallied := by
  have hposition : OnTick lot a.netPosition := by
    have hb : a.netPosition = _ := congrArg CostBasis.position h.basis
    rw [hb, CostBasis.fills_position]
    exact OnTick.add ⟨0, by simp [CostBasis.flat]⟩ (onTick_sum fun q hq => by
      obtain ⟨e, he, rfl⟩ := List.mem_map.mp hq
      obtain ⟨g, hg, rfl⟩ := List.mem_map.mp he
      exact (hlog g hg).onTick)
  have hpos := hf.qty_pos (positionEpsilon_pos.trans hlot)
  obtain ⟨hbasis, hfees, hcash⟩ :=
    a.bookFill_spec hpos (not_leavesDust hlot hposition hf.onTick) opened now
  have hlog' : (a.bookFill f opened now).fillLog.map ShadowFill.entry =
      a.fillLog.map ShadowFill.entry ++ [f.entry] := by
    simp [ShadowAccounts.bookFill]
  constructor
  · rw [hbasis, hlog', CostBasis.fills_append, ← h.basis]
    rfl
  · rw [hcash, hfees, hlog', CostBasis.cost_append, h.cash]
    simp only [CostBasis.cost_cons, CostBasis.cost_nil, ShadowFill.entry]
    ring

/-- When the fills logged are in lots, the accounts are tallied. -/
theorem keptByFills_tallied {lot : ℚ} (hlot : positionEpsilon < lot) :
    KeptByFills fun a => (∀ f ∈ a.fillLog, f.InLots lot) → a.Tallied where
  bookFill a f opened now _ h hlog := by
    have hlog' : ∀ g ∈ a.fillLog ++ [f], g.InLots lot := hlog
    have hold : ∀ g ∈ a.fillLog, g.InLots lot := fun g hg => hlog' g (by simp [hg])
    exact (h hold).bookFill hlot hold (hlog' f (by simp)) opened now
  emit a u h hlog := by
    obtain ⟨hbasis, hcash⟩ := h hlog
    exact ⟨hbasis, hcash⟩

/-- The unrealized profit of a well-priced position, at a positive mid price. -/
theorem computeUnrealizedPnl_eq {a : ShadowAccounts} (h : a.basis.WellPriced) {mid : ℚ}
    (hmid : 0 < mid) : a.computeUnrealizedPnl mid = a.basis.unrealized mid := by
  have hpriced : 0 < a.avgEntryPrice ↔ a.netPosition ≠ 0 := h
  unfold computeUnrealizedPnl
  simp only [not_le.mpr hmid, if_false, CostBasis.unrealized, basis]
  by_cases hx : a.netPosition = 0
  · simp [hx]
  · simp only [hx, not_le.mpr (hpriced.mpr hx), or_self, if_false]
    split
    · rfl
    · ring

end ShadowAccounts

namespace ShadowConnector

/-- **The shadow accounts balance.** After any run of calls whose fills are in lots larger than
the epsilon, the cash and the position at its average entry price are the realized profit less
the fees, the position is the sum of the fills, and the total profit is the cash and the position
at the mid price. -/
theorem run_accounts {cfg : ShadowConfig} (calls : List (OrderBook × ℤ × Call)) {lot : ℚ}
    (hlot : ShadowAccounts.positionEpsilon < lot)
    (hfills : ∀ f ∈ (calls.foldl call (new cfg)).accounts.fillLog, f.InLots lot) :
    let a := (calls.foldl call (new cfg)).accounts
    a.netCashflow + a.netPosition * a.avgEntryPrice = a.realizedPnl - a.totalFees ∧
      a.netPosition = (a.fillLog.map fun f => f.side.signed f.fillQty).sum ∧
      ∀ mid, 0 < mid → a.totalPnl mid = a.netCashflow + a.netPosition * mid := by
  intro a
  have hstart : (∀ f ∈ (new cfg).accounts.fillLog, f.InLots lot) → (new cfg).accounts.Tallied :=
    fun _ => ⟨rfl, by simp [new]⟩
  obtain ⟨hbasis, hcash⟩ :=
    run_keeps (ShadowAccounts.keptByFills_tallied hlot) calls hstart hfills
  have hentry : ∀ e ∈ a.fillLog.map ShadowFill.entry, e.1 ≠ 0 ∧ 0 < e.2 := by
    intro e he
    obtain ⟨f, hf, rfl⟩ := List.mem_map.mp he
    have hpos := (hfills f hf).qty_pos (ShadowAccounts.positionEpsilon_pos.trans hlot)
    exact ⟨VenuePosition.signed_ne_zero hpos, (hfills f hf).1⟩
  have hbal := CostBasis.balanced_fills fun e he => (hentry e he).1
  have hpriced := CostBasis.wellPriced_fills hentry
  rw [← hbasis] at hbal hpriced
  refine ⟨?_, ?_, fun mid hmid => ?_⟩
  · have hreal : a.realizedPnl = a.netPosition * a.avgEntryPrice -
        CostBasis.cost (a.fillLog.map ShadowFill.entry) := hbal
    rw [hcash, hreal]
    ring
  · have hpos : a.netPosition = _ := congrArg CostBasis.position hbasis
    rw [hpos, CostBasis.fills_position, List.map_map]
    simp only [CostBasis.flat, zero_add]
    rfl
  · have hsum := hbal.realized_add_unrealized mid
    rw [← ShadowAccounts.computeUnrealizedPnl_eq hpriced hmid] at hsum
    have hsum' : a.realizedPnl + a.computeUnrealizedPnl mid = a.netPosition * mid -
        CostBasis.cost (a.fillLog.map ShadowFill.entry) := hsum
    rw [ShadowAccounts.totalPnl, hcash]
    linarith

/-- A market order to buy one, at an ask of 101, and its cancel. -/
def marketCalls : List (OrderBook × ℤ × Call) :=
  [(OrderBook.atTouchBook, 5, .submit { clientOrderId := 7, type := .market, quantity := 1 }),
    (OrderBook.atTouchBook, 6, .cancel 7)]

/-- A fee of ten basis points for every fill. -/
def flatFees : ShadowConfig where
  binanceMakerFeeBps := 10
  binanceTakerFeeBps := 10
  krakenMakerFeeBps := 10
  krakenTakerFeeBps := 10
  okxMakerFeeBps := 10
  okxTakerFeeBps := 10
  coinbaseMakerFeeBps := 10
  coinbaseTakerFeeBps := 10
  baseLatencyNs := 0
  latencyJitterNs := 0
  impactSlippagePerNotionalBps := 0
  queueMatchFractionPerCheck := 1

/-- The accounts balance after the purchase. -/
theorem run_accounts_marketCalls :
    let a := (marketCalls.foldl call (new flatFees)).accounts
    a.netPosition = 1 ∧ a.netCashflow + a.netPosition * a.avgEntryPrice = -101 / 1000 ∧
      a.totalPnl 100 = a.netCashflow + a.netPosition * 100 := by
  have hlog : (marketCalls.foldl call (new flatFees)).accounts.fillLog =
      [⟨.bid, 101, 1, 101 / 1000⟩] := by
    decide +kernel
  have hreal : (marketCalls.foldl call (new flatFees)).accounts.realizedPnl -
      (marketCalls.foldl call (new flatFees)).accounts.totalFees = -101 / 1000 := by
    decide +kernel
  have hlot : ShadowAccounts.positionEpsilon < 1 := by norm_num [ShadowAccounts.positionEpsilon]
  obtain ⟨hcash, hpos, htotal⟩ := run_accounts marketCalls hlot (by
    rw [hlog]
    intro f hf
    rw [List.mem_singleton.mp hf]
    exact ⟨by norm_num, 1, by norm_num, by norm_num⟩)
  rw [hlog] at hpos
  exact ⟨by simpa using hpos, hcash.trans hreal, htotal 100 (by norm_num)⟩

end ShadowConnector

end TradingInfrastructure
