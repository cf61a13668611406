import TradingInfrastructure.Portfolio.LiveSessionAccounting

/-!
# What a session can afford

An order should be let through only if the last snapshot of the venue covers it (`Covered`). An
order to buy with a stable coin of which the snapshot shows nothing, and a futures order without any
free collateral, are checked against the equity that the session started with instead
(`FallsBack`); every other order that is let through is covered (`covered_run_iff`).
-/

namespace TradingInfrastructure

/-- An order as the accounting is asked about it. -/
inductive SessionOrder
  | spot (symbol : CString) (side : Side) (quantity price feeBps : ℚ)
  | futures (quantity price feeBps leverage : ℚ)
  deriving DecidableEq

namespace SessionOrder

/-- What an order needs of a venue that keeps a buffer. -/
def required (buffer : ℚ) : SessionOrder → ℚ
  | spot _ .bid quantity price feeBps =>
    quantity * price + quantity * price * max 0 feeBps / 10000 + buffer
  | spot _ .ask quantity _ _ => quantity
  | futures quantity price feeBps leverage =>
    quantity * price / max 1 leverage + quantity * price * max 0 feeBps / 10000 + buffer

/-- What a snapshot shows of what the order needs: the quote asset, the base asset, or the free
collateral. -/
def reconciled (snapshot : ReconciliationSnapshot) : SessionOrder → ℚ
  | spot symbol .bid _ _ _ =>
    LiveSessionAccounting.findAvailableAsset snapshot (LiveSessionAccounting.inferQuoteAsset symbol)
  | spot symbol .ask _ _ _ =>
    LiveSessionAccounting.findAvailableAsset snapshot
      (LiveSessionAccounting.inferBaseAsset symbol (LiveSessionAccounting.inferQuoteAsset symbol))
  | futures .. => LiveSessionAccounting.sumAvailable snapshot

/-- The quantity and the price of an order are positive. -/
def Valid : SessionOrder → Prop
  | spot _ _ quantity price _ => 0 < quantity ∧ 0 < price
  | futures quantity price _ _ => 0 < quantity ∧ 0 < price

/-- The order is one that the equity at the start may stand in for: it buys with a stable coin, or
it is a futures order. -/
def Backed : SessionOrder → Prop
  | spot symbol .bid _ _ _ =>
    LiveSessionAccounting.isStableQuote (LiveSessionAccounting.inferQuoteAsset symbol) = true
  | spot _ .ask _ _ _ => False
  | futures .. => True

instance (order : SessionOrder) : Decidable order.Valid :=
  match order with
  | spot _ _ quantity price _ => inferInstanceAs (Decidable (0 < quantity ∧ 0 < price))
  | futures quantity price _ _ => inferInstanceAs (Decidable (0 < quantity ∧ 0 < price))

instance (order : SessionOrder) : Decidable order.Backed :=
  match order with
  | spot symbol .bid _ _ _ => inferInstanceAs (Decidable
    (LiveSessionAccounting.isStableQuote (LiveSessionAccounting.inferQuoteAsset symbol) = true))
  | spot _ .ask _ _ _ => isFalse fun h => h
  | futures .. => isTrue trivial

variable {order : SessionOrder} {buffer : ℚ}

theorem Valid.required_pos (h : order.Valid) (hbuffer : 0 ≤ buffer) :
    0 < order.required buffer := by
  cases order with
  | spot symbol side quantity price feeBps =>
    obtain ⟨hquantity, hprice⟩ := h
    cases side with
    | bid =>
      have hfee : 0 ≤ max 0 feeBps := le_max_left ..
      unfold required
      positivity
    | ask => exact hquantity
  | futures quantity price feeBps leverage =>
    obtain ⟨hquantity, hprice⟩ := h
    have hleverage : 0 < max 1 leverage := zero_lt_one.trans_le (le_max_left ..)
    have hfee : 0 ≤ max 0 feeBps := le_max_left ..
    unfold required
    positivity

end SessionOrder

namespace LiveSessionAccounting

variable {a : LiveSessionAccounting} {exchange : Exchange} {order : SessionOrder}
  {snapshot : ReconciliationSnapshot}

/-- The accounting lets an order through. -/
def affords (a : LiveSessionAccounting) (exchange : Exchange) : SessionOrder → Bool
  | .spot symbol side quantity price feeBps =>
    a.canAffordSpotOrder exchange symbol side quantity price feeBps
  | .futures quantity price feeBps leverage =>
    a.canAffordFuturesOrder exchange quantity price feeBps leverage

/-- **An order is covered** by a snapshot: it needs no more than the snapshot shows, and the
snapshot shows some. -/
def Covered (a : LiveSessionAccounting) (exchange : Exchange) (snapshot : ReconciliationSnapshot)
    (order : SessionOrder) : Prop :=
  order.required (a.venueMetrics exchange).minFreeCollateralBuffer ≤ order.reconciled snapshot ∧
    0 < order.reconciled snapshot

/-- **The equity at the start stands in**: the snapshot shows nothing of what the order needs, and
the equity that the session started with is enough for it. -/
def FallsBack (a : LiveSessionAccounting) (exchange : Exchange) (snapshot : ReconciliationSnapshot)
    (order : SessionOrder) : Prop :=
  (a.venueMetrics exchange).configured = true ∧ order.Valid ∧ order.Backed ∧
    order.reconciled snapshot ≤ 0 ∧
      order.required (a.venueMetrics exchange).minFreeCollateralBuffer ≤
        (a.venueMetrics exchange).startEquity

/-! ## One order -/

/-- The venue shows what the snapshot says. -/
structure Shows (a : LiveSessionAccounting) (exchange : Exchange)
    (snapshot : ReconciliationSnapshot) : Prop where
  lastSnapshot : (a.venues (venueIndex exchange)).lastSnapshot = snapshot
  freeCollateral : (a.venueMetrics exchange).freeCollateral = sumAvailable snapshot

/-- What both checks ask first. -/
theorem checked_amount_iff {quantity price : ℚ} {configured enough : Bool} :
    (if quantity ≤ 0 ∨ price ≤ 0 ∨ configured = false then false else enough) = true ↔
      configured = true ∧ (0 < quantity ∧ 0 < price) ∧ enough = true := by
  by_cases hguard : quantity ≤ 0 ∨ price ≤ 0 ∨ configured = false
  · rw [if_pos hguard]
    refine iff_of_false (by decide) fun h => ?_
    rcases hguard with hquantity | hprice | hconfigured
    · exact absurd h.2.1.1 (not_lt.mpr hquantity)
    · exact absurd h.2.1.2 (not_lt.mpr hprice)
    · exact absurd (hconfigured.symm.trans h.1) (by decide)
  · rw [if_neg hguard]
    obtain ⟨hquantity, hprice, hconfigured⟩ := not_or.mp hguard |>.imp_right not_or.mp
    simp [not_le.mp hquantity, not_le.mp hprice, hconfigured]

/-- **When an order is let through**: it is valid, at a venue that is configured, and either the
snapshot covers it, or the equity at the start does where the snapshot shows nothing. -/
theorem affords_iff (h : a.Shows exchange snapshot) :
    a.affords exchange order = true ↔ (a.venueMetrics exchange).configured = true ∧ order.Valid ∧
      order.required (a.venueMetrics exchange).minFreeCollateralBuffer ≤
        if order.Backed ∧ order.reconciled snapshot ≤ 0 then (a.venueMetrics exchange).startEquity
        else order.reconciled snapshot := by
  have hlast := h.lastSnapshot
  have hfree := h.freeCollateral
  unfold venueMetrics at hfree ⊢
  cases order with
  | spot symbol side quantity price feeBps =>
    cases side with
    | bid =>
      simp only [affords, canAffordSpotOrder, hlast, checked_amount_iff,
        decide_eq_true_eq, ge_iff_le]
      refine and_congr_right fun _ => and_congr_right fun _ => ?_
      rw [SessionOrder.required, if_congr and_comm rfl rfl]
      exact Iff.rfl
    | ask =>
      simp only [affords, canAffordSpotOrder, hlast, checked_amount_iff,
        decide_eq_true_eq, ge_iff_le]
      refine and_congr_right fun _ => and_congr_right fun _ => ?_
      rw [if_neg fun hbacked => hbacked.1]
      exact Iff.rfl
  | futures quantity price feeBps leverage =>
    simp only [affords, canAffordFuturesOrder, hfree, checked_amount_iff,
      decide_eq_true_eq, ge_iff_le]
    refine and_congr_right fun _ => and_congr_right fun _ => ?_
    rw [SessionOrder.required]
    by_cases hnone : 0 < sumAvailable snapshot
    · rw [if_pos hnone, if_neg fun hbacked => absurd hbacked.2 (not_le.mpr hnone)]
      exact Iff.rfl
    · rw [if_neg hnone, if_pos ⟨trivial, not_lt.mp hnone⟩]

/-- **An order that is let through is covered** exactly when the equity at the start does not stand
in. -/
theorem affords_covered_iff (h : a.Shows exchange snapshot)
    (hbuffer : 0 ≤ (a.venueMetrics exchange).minFreeCollateralBuffer) :
    (a.affords exchange order = true → a.Covered exchange snapshot order) ↔
      ¬ a.FallsBack exchange snapshot order := by
  constructor
  · rintro hcovered ⟨hconfigured, hvalid, hbacked, hnone, henough⟩
    have haffords := (affords_iff h).mpr ⟨hconfigured, hvalid, by rwa [if_pos ⟨hbacked, hnone⟩]⟩
    exact absurd (hcovered haffords).2 (not_lt.mpr hnone)
  · intro hfalls haffords
    obtain ⟨hconfigured, hvalid, henough⟩ := (affords_iff h).mp haffords
    by_cases hstands : order.Backed ∧ order.reconciled snapshot ≤ 0
    · rw [if_pos hstands] at henough
      exact absurd ⟨hconfigured, hvalid, hstands.1, hstands.2, henough⟩ hfalls
    · rw [if_neg hstands] at henough
      exact ⟨henough, (hvalid.required_pos hbuffer).trans_le henough⟩

/-! ## A run -/

/-- **A venue shows its last snapshot**. -/
theorem shows_run {calls : List AccountingCall}
    (h : (snapshotsOf exchange calls).getLast? = some snapshot) :
    (calls.foldl call a).Shows exchange snapshot := by
  induction calls using List.reverseRecOn with
  | nil => cases h
  | append_singleton calls c ih =>
    rw [List.foldl_append, List.foldl_cons, List.foldl_nil]
    rw [snapshotsOf, List.filterMap_append] at h
    rcases venues_call_cases (calls.foldl call a) c exchange with ⟨hc, hvenue⟩ |
      ⟨hc, startEquity, buffer, hvenue⟩ | ⟨snapshot', symbol, markPrice, hc, hvenue⟩
    · rw [List.filterMap_cons_none hc, List.filterMap_nil, List.append_nil] at h
      obtain ⟨hlast, hfree⟩ := ih h
      exact ⟨(congrArg _ hvenue).trans hlast,
        (congrArg (·.metrics.freeCollateral) hvenue).trans hfree⟩
    · rw [List.filterMap_cons_none hc, List.filterMap_nil, List.append_nil] at h
      obtain ⟨hlast, hfree⟩ := ih h
      exact ⟨(congrArg _ hvenue).trans hlast,
        (congrArg (·.metrics.freeCollateral) hvenue).trans hfree⟩
    · rw [List.filterMap_cons_some hc, List.filterMap_nil, List.getLast?_concat] at h
      obtain rfl := Option.some.inj h
      exact ⟨congrArg _ hvenue, congrArg (·.metrics.freeCollateral) hvenue⟩

/-- The buffer is at least zero: a configuration takes no other, and a reconciliation leaves it. -/
theorem buffer_run (calls : List AccountingCall)
    (h : 0 ≤ (a.venueMetrics exchange).minFreeCollateralBuffer) :
    0 ≤ ((calls.foldl call a).venueMetrics exchange).minFreeCollateralBuffer := by
  induction calls using List.reverseRecOn with
  | nil => exact h
  | append_singleton calls c ih =>
    rw [List.foldl_append, List.foldl_cons, List.foldl_nil]
    unfold venueMetrics at ih ⊢
    rcases venues_call_cases (calls.foldl call a) c exchange with ⟨-, hvenue⟩ |
      ⟨-, startEquity, buffer, hvenue⟩ | ⟨snapshot, symbol, markPrice, -, hvenue⟩
    · rw [hvenue]
      exact ih
    · rw [hvenue]
      exact le_max_left ..
    · rw [hvenue]
      exact ih

/-- **An order that a reconciled venue lets through is covered** by its last snapshot, whatever the
calls before, exactly when the equity at the start does not stand in. -/
theorem covered_run_iff {calls : List AccountingCall}
    (h : (snapshotsOf exchange calls).getLast? = some snapshot) (order : SessionOrder) :
    ((calls.foldl call new).affords exchange order = true →
        (calls.foldl call new).Covered exchange snapshot order) ↔
      ¬ (calls.foldl call new).FallsBack exchange snapshot order :=
  affords_covered_iff (shows_run h) (buffer_run calls le_rfl)

/-- A purchase of a hundredth of a coin, for one dollar. -/
def oneDollarPurchase : SessionOrder := .spot "BTCUSDT".toList .bid (1 / 100) 100 0

/-- A venue that is configured, and then shows a snapshot. -/
def reconciledWith (snapshot : ReconciliationSnapshot) : List AccountingCall :=
  [.configureVenue .binance 1000 0,
    .ingestReconciliation .binance snapshot "BTCUSDT".toList 100 1]

/-- A snapshot that shows ten dollars. -/
def tenDollars : ReconciliationSnapshot :=
  { ReconciliationSnapshot.empty with
    balances := ⟨[{ asset := "USDT".toList, total := 10, available := 10 }].take 64,
      List.length_take_le ..⟩ }

/-- With ten dollars the purchase is covered. -/
theorem covered_tenDollars :
    (snapshotsOf .binance (reconciledWith tenDollars)).getLast? = some tenDollars ∧
      ((reconciledWith tenDollars).foldl call new).affords .binance oneDollarPurchase = true ∧
        ((reconciledWith tenDollars).foldl call new).Covered .binance tenDollars
          oneDollarPurchase := by
  have hlast : (snapshotsOf .binance (reconciledWith tenDollars)).getLast? = some tenDollars := rfl
  have haffords :
      ((reconciledWith tenDollars).foldl call new).affords .binance oneDollarPurchase = true := by
    decide +kernel
  refine ⟨hlast, haffords,
    (covered_run_iff hlast oneDollarPurchase).mpr (fun hfalls => ?_) haffords⟩
  exact absurd hfalls.2.2.2.1 (by decide +kernel)

/-- **A venue that shows no balance at all** lets the purchase through. -/
theorem broke_affords :
    (snapshotsOf .binance (reconciledWith .empty)).getLast? = some .empty ∧
      ((reconciledWith .empty).foldl call new).affords .binance oneDollarPurchase = true ∧
        ¬ ((reconciledWith .empty).foldl call new).Covered .binance .empty oneDollarPurchase := by
  refine ⟨rfl, by decide +kernel, fun hcovered => ?_⟩
  exact absurd hcovered.2 (by decide +kernel)

end LiveSessionAccounting

end TradingInfrastructure
