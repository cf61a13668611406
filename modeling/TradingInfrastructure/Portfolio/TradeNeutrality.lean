import TradingInfrastructure.Portfolio.LiveSessionAccounting

/-!
# Trades at the mark

A trade at the mark price moves base for quote at equal value. The equity of a venue is the sum of
its balances, each in units of its own asset, so a trade at a mark price of `m` that moves `q` of
the base moves the equity by `q - q * m`. A sequence of trades is neutral exactly when it moves no
base on balance, or the mark price is one (`neutral_iff`).
-/

namespace TradingInfrastructure

/-! ## Amounts under keys -/

/-- The sum of the amounts that stand under a key. -/
def amountUnder {κ : Type*} [DecidableEq κ] (rows : List (κ × ℚ)) (key : κ) : ℚ :=
  (rows.map fun row => if row.1 = key then row.2 else 0).sum

section

variable {κ : Type*} [DecidableEq κ] {rows rows' : List (κ × ℚ)}

/-- The sum of the rows is that of the amounts under their keys. -/
theorem sum_rows_eq {keys : Finset κ} (h : ∀ row ∈ rows, row.1 ∈ keys) :
    (rows.map Prod.snd).sum = ∑ key ∈ keys, amountUnder rows key := by
  induction rows with
  | nil => simp [amountUnder]
  | cons row rows ih =>
    have hrow : ∑ key ∈ keys, (if row.1 = key then row.2 else 0) = row.2 := by
      rw [Finset.sum_ite_eq, if_pos (h row List.mem_cons_self)]
    have hcons : ∀ key, amountUnder (row :: rows) key =
        (if row.1 = key then row.2 else 0) + amountUnder rows key := fun key => by
      simp [amountUnder]
    rw [List.map_cons, List.sum_cons, ih fun r hr => h r (List.mem_cons_of_mem _ hr)]
    simp only [hcons, Finset.sum_add_distrib, hrow]

/-- Two tables of which the amounts under two keys differ, by `x` and `y`. -/
theorem sum_rows_sub {k l : κ} {x y : ℚ} (h : ∀ key, amountUnder rows' key =
    amountUnder rows key + (if key = k then x else 0) + (if key = l then y else 0)) :
    (rows'.map Prod.snd).sum = (rows.map Prod.snd).sum + x + y := by
  let keys := insert k (insert l ((rows ++ rows').map Prod.fst).toFinset)
  have hsum : ∀ table : List (κ × ℚ), table ⊆ rows ++ rows' →
      (table.map Prod.snd).sum = ∑ key ∈ keys, amountUnder table key := fun table htable =>
    sum_rows_eq fun row hrow => by
      simp only [keys, Finset.mem_insert, List.mem_toFinset]
      exact Or.inr (Or.inr (List.mem_map_of_mem (htable hrow)))
  rw [hsum rows' (List.subset_append_right _ _), hsum rows (List.subset_append_left _ _)]
  simp only [h, Finset.sum_add_distrib, Finset.sum_ite_eq']
  rw [if_pos (by simp [keys]), if_pos (by simp [keys])]

end

/-! ## Trades -/

/-- A trade without a fee. -/
structure SpotTrade where
  side : Side
  quantity : ℚ

namespace SpotTrade

/-- What a trade at the mark price makes of the holdings. -/
def apply (base quote : CString) (mark : ℚ) (holdings : CString → ℚ) (t : SpotTrade) :
    CString → ℚ := fun asset =>
  holdings asset + (if asset = base then t.side.signed t.quantity else 0) +
    (if asset = quote then -(t.side.signed t.quantity * mark) else 0)

/-- The base that the trades move. -/
def netBase (trades : List SpotTrade) : ℚ := (trades.map fun t => t.side.signed t.quantity).sum

theorem foldl_apply (base quote : CString) (mark : ℚ) (trades : List SpotTrade)
    (holdings : CString → ℚ) (asset : CString) :
    trades.foldl (apply base quote mark) holdings asset =
      holdings asset + (if asset = base then netBase trades else 0) +
        (if asset = quote then -(netBase trades * mark) else 0) := by
  induction trades generalizing holdings with
  | nil => simp [netBase]
  | cons t trades ih =>
    have hnet : netBase (t :: trades) = t.side.signed t.quantity + netBase trades := by
      simp [netBase]
    rw [List.foldl_cons, ih, hnet, apply]
    split_ifs <;> ring

end SpotTrade

/-- The holdings of a snapshot. -/
def ReconciliationSnapshot.holdings (snapshot : ReconciliationSnapshot) (asset : CString) : ℚ :=
  amountUnder (snapshot.balances.items.map fun balance => (balance.asset, balance.total)) asset

/-- The second snapshot is that of the first one after trades at the mark price, which both assets
have been enough for. -/
structure TradedAtMark (base quote : CString) (mark : ℚ) (trades : List SpotTrade)
    (before after : ReconciliationSnapshot) : Prop where
  stable : LiveSessionAccounting.isStableQuote quote = true
  mark_pos : 0 < mark
  before_nonneg : ∀ balance ∈ before.balances.items, 0 ≤ balance.total
  after_nonneg : ∀ balance ∈ after.balances.items, 0 ≤ balance.total
  positive : ∀ t ∈ trades, 0 < t.quantity
  covered : ∀ pre, pre <+: trades →
    0 ≤ pre.foldl (SpotTrade.apply base quote mark) before.holdings base ∧
      0 ≤ pre.foldl (SpotTrade.apply base quote mark) before.holdings quote
  holdings : ∀ asset,
    after.holdings asset = trades.foldl (SpotTrade.apply base quote mark) before.holdings asset

namespace LiveSessionAccounting

variable {base quote : CString} {mark : ℚ} {trades : List SpotTrade}
  {before after : ReconciliationSnapshot}

/-- The equity of balances that are not negative. -/
theorem sumTotal_eq {snapshot : ReconciliationSnapshot}
    (h : ∀ balance ∈ snapshot.balances.items, 0 ≤ balance.total) :
    sumTotal snapshot = ((snapshot.balances.items.map fun balance =>
      (balance.asset, balance.total)).map Prod.snd).sum := by
  rw [sumTotal, List.map_map]
  exact congrArg List.sum (List.map_congr_left fun balance hb => max_eq_right (h balance hb))

/-- **Trades at the mark** move the sum of the balances by what they move of the base, less its
value. -/
theorem sumTotal_traded (h : TradedAtMark base quote mark trades before after) :
    sumTotal after = sumTotal before + SpotTrade.netBase trades * (1 - mark) := by
  rw [sumTotal_eq h.before_nonneg, sumTotal_eq h.after_nonneg]
  rw [sum_rows_sub fun asset => (h.holdings asset).trans (SpotTrade.foldl_apply ..)]
  ring

/-- The net profit depends on what is configured, and on the equities. -/
theorem netPnl_congr {a a' : LiveSessionAccounting}
    (h : ∀ i, (a'.venues i).metrics.configured = (a.venues i).metrics.configured ∧
      (a'.venues i).metrics.startEquity = (a.venues i).metrics.startEquity ∧
      (a'.venues i).metrics.endEquity = (a.venues i).metrics.endEquity) :
    a'.globalMetrics.netPnl = a.globalMetrics.netPnl := by
  have hlist : ∀ (l : List (Fin 4)) (f : LiveSessionVenueMetrics → ℚ),
      (∀ i, f (a'.venues i).metrics = f (a.venues i).metrics) →
      ((l.map fun i => (a'.venues i).metrics).filter (·.configured)).map f =
        ((l.map fun i => (a.venues i).metrics).filter (·.configured)).map f := by
    intro l f hf
    induction l with
    | nil => rfl
    | cons i l ih =>
      simp only [List.map_cons, List.filter_cons, (h i).1]
      split_ifs
      · rw [List.map_cons, List.map_cons, ih, hf i]
      · exact ih
  simp only [globalMetrics]
  rw [hlist _ _ fun i => (h i).2.1, hlist _ _ fun i => (h i).2.2]

/-- The equity and the net profit are the same with the snapshot before the trades, and with the one
after them. -/
def Neutral (a : LiveSessionAccounting) (exchange : Exchange) (symbol : CString) (mark : ℚ)
    (before after : ReconciliationSnapshot) (now now' : ℤ) : Prop :=
  let a := a.ingestReconciliation exchange before symbol mark now
  let a' := a.ingestReconciliation exchange after symbol mark now'
  (a'.venueMetrics exchange).endEquity = (a.venueMetrics exchange).endEquity ∧
    a'.globalMetrics.netPnl = a.globalMetrics.netPnl

theorem neutral_iff_sumTotal {a : LiveSessionAccounting} {exchange : Exchange} {symbol : CString}
    {now now' : ℤ} :
    a.Neutral exchange symbol mark before after now now' ↔ sumTotal after = sumTotal before := by
  have hend : ∀ (a : LiveSessionAccounting) snapshot now,
      ((a.ingestReconciliation exchange snapshot symbol mark now).venueMetrics exchange).endEquity =
        sumTotal snapshot := fun a snapshot now => by
    rw [venueMetrics, venues_ingestReconciliation a rfl]
    rfl
  unfold Neutral
  simp only [hend]
  refine and_iff_left_of_imp fun hsame => netPnl_congr fun i => ?_
  by_cases hi : i = venueIndex exchange
  · rw [hi, venues_ingestReconciliation _ rfl, venues_ingestReconciliation _ rfl]
    exact ⟨rfl, rfl, hsame⟩
  · rw [venues_ingestReconciliation_of_ne _ hi]
    exact ⟨rfl, rfl, rfl⟩

/-- **Trades at the mark are neutral** exactly when they move no base on balance, or the mark price
is one. -/
theorem neutral_iff (a : LiveSessionAccounting) (exchange : Exchange) (now now' : ℤ)
    (h : TradedAtMark base quote mark trades before after) :
    a.Neutral exchange (base ++ quote) mark before after now now' ↔
      SpotTrade.netBase trades = 0 ∨ mark = 1 := by
  rw [neutral_iff_sumTotal, sumTotal_traded h, add_eq_left, mul_eq_zero, sub_eq_zero,
    eq_comm (a := (1 : ℚ))]

/-- One bitcoin and a thousand dollars, after trades at 100 that have moved this much of it. -/
def oneBitcoin (moved : ℚ) : ReconciliationSnapshot :=
  { ReconciliationSnapshot.empty with
    balances :=
      ⟨[⟨"BTC".toList, 1 + moved, 1 + moved⟩,
        ⟨"USDT".toList, 1000 - 100 * moved, 1000 - 100 * moved⟩], by simp⟩ }

theorem holdings_oneBitcoin (moved : ℚ) (asset : CString) :
    (oneBitcoin moved).holdings asset = (if asset = "BTC".toList then 1 + moved else 0) +
      (if asset = "USDT".toList then 1000 - 100 * moved else 0) := by
  simp [ReconciliationSnapshot.holdings, amountUnder, oneBitcoin, eq_comm]

/-- A purchase of one bitcoin, which may be sold again. -/
def purchase : List SpotTrade := [⟨.bid, 1⟩]

@[inherit_doc purchase]
def roundTrip : List SpotTrade := [⟨.bid, 1⟩, ⟨.ask, 1⟩]

theorem traded_oneBitcoin {trades : List SpotTrade} (h : trades <+: roundTrip) :
    TradedAtMark "BTC".toList "USDT".toList 100 trades (oneBitcoin 0)
      (oneBitcoin (SpotTrade.netBase trades)) := by
  have hpre : ∀ pre, pre <+: roundTrip →
      0 ≤ SpotTrade.netBase pre ∧ SpotTrade.netBase pre ≤ 1 := by
    intro pre hpre
    have hmem := (List.mem_inits pre roundTrip).mpr hpre
    simp only [roundTrip, List.inits, List.map_cons, List.map_nil, List.mem_cons,
      List.not_mem_nil, or_false] at hmem
    rcases hmem with rfl | rfl | rfl <;> norm_num [SpotTrade.netBase]
  have hnet := hpre trades h
  refine ⟨by decide, by norm_num, fun b hb => ?_, fun b hb => ?_, fun t ht => ?_,
    fun pre hp => ?_, fun asset => ?_⟩
  · rcases List.mem_pair.mp hb with rfl | rfl <;> norm_num
  · rcases List.mem_pair.mp hb with rfl | rfl <;> dsimp only <;> linarith
  · rcases List.mem_pair.mp (h.subset ht) with rfl | rfl <;> norm_num
  · have hp := hpre pre (hp.trans h)
    have hne : ("BTC".toList : CString) ≠ "USDT".toList := by decide
    simp only [SpotTrade.foldl_apply, holdings_oneBitcoin, hne, hne.symm, if_true, if_false]
    constructor <;> linarith
  · rw [SpotTrade.foldl_apply, holdings_oneBitcoin, holdings_oneBitcoin]
    split_ifs <;> ring

/-- After the round trip the equity is the same. -/
theorem neutral_roundTrip :
    new.Neutral .binance ("BTC".toList ++ "USDT".toList) 100 (oneBitcoin 0)
      (oneBitcoin (SpotTrade.netBase roundTrip)) 0 1 :=
  (neutral_iff new .binance 0 1 (traded_oneBitcoin List.prefix_rfl)).mpr
    (Or.inl (by norm_num [SpotTrade.netBase, roundTrip]))

/-- **A purchase at the mark looks like a loss**: of 1001, 902 is left. -/
theorem purchase_not_neutral :
    TradedAtMark "BTC".toList "USDT".toList 100 purchase (oneBitcoin 0)
        (oneBitcoin (SpotTrade.netBase purchase)) ∧
      ¬ new.Neutral .binance ("BTC".toList ++ "USDT".toList) 100 (oneBitcoin 0)
        (oneBitcoin (SpotTrade.netBase purchase)) 0 1 := by
  refine ⟨traded_oneBitcoin ⟨[⟨.ask, 1⟩], rfl⟩, ?_⟩
  rw [neutral_iff_sumTotal]
  norm_num [sumTotal, oneBitcoin, SpotTrade.netBase, purchase]

end LiveSessionAccounting

end TradingInfrastructure
