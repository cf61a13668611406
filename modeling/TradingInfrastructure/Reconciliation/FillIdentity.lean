import TradingInfrastructure.Foundations.FirstMatch
import TradingInfrastructure.Reconciliation.Drift

/-!
# The fills that a ledger counts

`build_fill_ledger` drops a fill that is the same as one that it has counted before. Two fills are
the same by their trade id, or by the id of their order with the time, the quantity and the price,
so two executions of an order in one millisecond are one fill to it, and whether a fill is counted
may depend on the order of the fills (`fillLedger_iff`).
-/

namespace TradingInfrastructure

namespace FillLedger

/-- `fill_same_identity`, for a fill and one that was counted before. -/
abbrev Same (fill counted : ReconciledFill) : Prop := fill.sameIdentity counted = true

/-- The sums over all fills. -/
def total (fills : List ReconciledFill) : FillLedger := fills.foldl add {}

/-- The fills have trade ids of one exchange, which differ. -/
structure DistinctTrades (fills : List ReconciledFill) : Prop where
  exchange : ∃ exchange, ∀ fill ∈ fills, fill.exchange = exchange
  nonempty : ∀ fill ∈ fills, fill.venueTradeId ≠ []
  distinct : fills.Pairwise fun fill fill' => fill.venueTradeId ≠ fill'.venueTradeId

/-- The fills are of one order, of one time, and of a quantity and a price: what makes two fills
with other trade ids the same. -/
def SameExecution (fill fill' : ReconciledFill) : Prop :=
  (fill.clientOrderId ≠ 0 ∧ fill.clientOrderId = fill'.clientOrderId ∨
    fill.venueOrderId ≠ [] ∧ fill.venueOrderId = fill'.venueOrderId) ∧
  fill.exchangeTsNs = fill'.exchangeTsNs ∧
  drift fill.quantity fill'.quantity ≤ 1 / 10 ^ 12 ∧ drift fill.price fill'.price ≤ 1 / 10 ^ 12

variable {fills keys : List ReconciledFill} {fill fill' : ReconciledFill}

@[simp] theorem total_concat (fills : List ReconciledFill) (fill : ReconciledFill) :
    total (fills ++ [fill]) = (total fills).add fill := by
  simp [total]

/-- **The loop** counts the fills that are not the same as one before. -/
theorem buildLoop_eq {counted fills : List ReconciledFill}
    (h : counted.length + fills.length ≤ maxFillKeys) :
    buildLoop (firsts Same counted) fills (total (firsts Same counted)) =
      (true, total (firsts Same (counted ++ fills))) := by
  induction fills generalizing counted with
  | nil => rw [buildLoop, List.append_nil]
  | cons fill fills ih =>
    rw [List.length_cons] at h
    have hnext := @ih (counted ++ [fill]) (by simp; omega)
    rw [List.append_assoc, List.singleton_append] at hnext
    have hany : (firsts Same counted).any fill.sameIdentity = true ↔
        ∃ key ∈ firsts Same counted, Same fill key := List.any_eq_true
    by_cases hold : ∃ key ∈ firsts Same counted, Same fill key
    · rw [firsts_concat_of_old hold] at hnext
      rw [buildLoop, if_pos (hany.mpr hold), hnext]
    · have hroom : ¬ (firsts Same counted).length ≥ maxFillKeys := by
        have hlength : (firsts Same counted).length ≤ counted.length := firsts_sublist.length_le
        omega
      rw [firsts_concat_of_new hold, total_concat] at hnext
      rw [buildLoop, if_neg (hany.not.mpr hold), if_neg hroom, hnext]

theorem build_eq (s : ReconciliationSnapshot) :
    build s = (true, total (firsts Same s.fills.items)) := by
  refine @buildLoop_eq [] s.fills.items ?_
  have hbound := s.fills.bound
  have hkeys : maxFillKeys = 1024 := rfl
  simp only [List.length_nil]
  omega

/-! ## All fills -/

theorem uniqueFillCount_total (fills : List ReconciledFill) :
    (total fills).uniqueFillCount = UInt32.ofNat fills.length := by
  induction fills using List.reverseRecOn with
  | nil => rfl
  | append_singleton fills fill ih =>
    rw [total_concat, List.length_append, List.length_singleton]
    rw [UInt32.ofNat_add, ← ih]
    rfl

/-- **All fills are counted** exactly when none is the same as one before it. -/
theorem total_firsts_eq_iff (h : fills.length < 2 ^ 32) :
    total (firsts Same fills) = total fills ↔ fills.Pairwise fun f f' => ¬ Same f' f := by
  rw [← firsts_eq_self_iff]
  refine ⟨fun htotal => ?_, fun hkept => by rw [hkept]⟩
  have hsublist : List.Sublist (firsts Same fills) fills := firsts_sublist
  have hcount := congrArg (fun ledger => ledger.uniqueFillCount.toNat) htotal
  simp only [uniqueFillCount_total, UInt32.toNat_ofNat'] at hcount
  rw [Nat.mod_eq_of_lt (hsublist.length_le.trans_lt h), Nat.mod_eq_of_lt h] at hcount
  exact hsublist.eq_of_length hcount

theorem same_iff (hexchange : fill.exchange = fill'.exchange)
    (htrade : fill.venueTradeId ≠ fill'.venueTradeId) :
    Same fill fill' ↔ SameExecution fill fill' := by
  simp only [Same, ReconciledFill.sameIdentity, SameExecution, Bool.and_eq_true, Bool.or_eq_true,
    beq_iff_eq, bne_iff_ne, decide_eq_true_eq]
  constructor
  · rintro ⟨-, (⟨-, hsame⟩ | ⟨⟨⟨⟨⟨hid, -⟩, hsame⟩, htime⟩, hqty⟩, hprice⟩) |
      ⟨⟨⟨⟨⟨hid, -⟩, hsame⟩, htime⟩, hqty⟩, hprice⟩⟩
    · exact absurd hsame htrade
    · exact ⟨Or.inl ⟨hid, hsame⟩, htime, hqty, hprice⟩
    · exact ⟨Or.inr ⟨hid, hsame⟩, htime, hqty, hprice⟩
  · rintro ⟨⟨hid, hsame⟩ | ⟨hid, hsame⟩, htime, hqty, hprice⟩
    · exact ⟨hexchange, Or.inl (Or.inr ⟨⟨⟨⟨⟨hid, hsame ▸ hid⟩, hsame⟩, htime⟩, hqty⟩, hprice⟩)⟩
    · exact ⟨hexchange, Or.inr ⟨⟨⟨⟨⟨hid, hsame ▸ hid⟩, hsame⟩, htime⟩, hqty⟩, hprice⟩⟩

theorem same_self (h : fill.venueTradeId ≠ []) : Same fill fill := by
  simp [Same, ReconciledFill.sameIdentity, h]

/-- Trades that differ are the same where they are of one execution. -/
theorem DistinctTrades.pairwise_iff (h : DistinctTrades fills) :
    (fills.Pairwise fun f f' => ¬ Same f' f) ↔
      fills.Pairwise fun f f' => ¬ SameExecution f' f := by
  obtain ⟨exchange, hexchange⟩ := h.exchange
  have hsame : ∀ {f f' : ReconciledFill}, f ∈ fills → f' ∈ fills →
      f.venueTradeId ≠ f'.venueTradeId → (Same f' f ↔ SameExecution f' f) :=
    fun hf hf' hne => same_iff ((hexchange _ hf').trans (hexchange _ hf).symm) hne.symm
  constructor
  · intro hfree
    exact (hfree.and h.distinct).imp_of_mem fun hf hf' hpair =>
      (hsame hf hf' hpair.2).not.mp hpair.1
  · intro hfree
    exact (hfree.and h.distinct).imp_of_mem fun hf hf' hpair =>
      (hsame hf hf' hpair.2).not.mpr hpair.1

/-- **The ledger** of a snapshot counts all fills of different trades exactly when no two are of one
execution. A repetition changes nothing, and the order of the fills changes nothing exactly when all
selections of fills without two of one identity have the same sums. -/
theorem fillLedger_iff (s : ReconciliationSnapshot) :
    (DistinctTrades s.fills.items →
      (build s = (true, total s.fills.items) ↔
        s.fills.items.Pairwise fun f f' => ¬ SameExecution f' f)) ∧
    (∀ (before after : List ReconciledFill) (fill : ReconciledFill) (s' : ReconciliationSnapshot),
      s.fills.items = before ++ after → s'.fills.items = before ++ fill :: after →
        fill ∈ before → fill.venueTradeId ≠ [] → build s' = build s) ∧
    ((∀ s' : ReconciliationSnapshot, s'.fills.items.Perm s.fills.items → build s' = build s) ↔
      ∀ kept kept', IsSelection Same kept s.fills.items → IsSelection Same kept' s.fills.items →
        total kept = total kept') := by
  refine ⟨fun h => ?_, fun before after fill s' hs hs' hmem hid => ?_, ?_⟩
  · have hlength : s.fills.items.length < 2 ^ 32 := s.fills.bound.trans_lt (by norm_num)
    rw [build_eq, Prod.mk.injEq, and_iff_right rfl, total_firsts_eq_iff hlength, h.pairwise_iff]
  · rw [build_eq, build_eq, hs, hs', firsts_insert_repetition hmem (same_self hid)]
  · rw [← forall_perm_iff]
    simp only [build_eq, Prod.mk.injEq, true_and]
    constructor
    · intro h fills hperm
      exact h { s with fills := ⟨fills, hperm.length_eq ▸ s.fills.bound⟩ } hperm
    · exact fun h s' hperm => h _ hperm

/-! ## Two executions in one millisecond -/

/-- A fill of the order 7. -/
def fillOf (trade : String) (fee : ℚ) : ReconciledFill where
  clientOrderId := 7
  venueTradeId := trade.toList
  exchange := .binance
  quantity := 1
  price := 100
  notional := 100
  fee := fee

theorem length_pair_le (first second : ReconciledFill) : [first, second].length ≤ 512 := by simp

/-- A snapshot of two fills. -/
def twoFills (first second : ReconciledFill) : ReconciliationSnapshot :=
  { ReconciliationSnapshot.empty with
    fills := ⟨[first, second], length_pair_le first second⟩ }

/-- Two fills of one order in one millisecond are one, and the fee that is counted is that of the
first. -/
theorem sameMillisecond_not_counted :
    DistinctTrades (twoFills (fillOf "1" 1) (fillOf "2" 2)).fills.items ∧
    (build (twoFills (fillOf "1" 1) (fillOf "2" 2))).2.cumQty = 1 ∧
    (total [fillOf "1" 1, fillOf "2" 2]).cumQty = 2 ∧
    (twoFills (fillOf "2" 2) (fillOf "1" 1)).fills.items.Perm
      (twoFills (fillOf "1" 1) (fillOf "2" 2)).fills.items ∧
    build (twoFills (fillOf "2" 2) (fillOf "1" 1)) ≠
      build (twoFills (fillOf "1" 1) (fillOf "2" 2)) := by
  refine ⟨⟨⟨.binance, by decide⟩, by decide, by decide⟩, by decide +kernel, by decide +kernel,
    .swap _ _ _, by decide +kernel⟩

/-- Fills of two orders are counted, and a repetition of one of them is not. -/
theorem fillLedger_twoOrders :
    build (twoFills (fillOf "1" 1) { fillOf "2" 2 with clientOrderId := 8 }) =
      (true, total [fillOf "1" 1, { fillOf "2" 2 with clientOrderId := 8 }]) ∧
    build (twoFills (fillOf "1" 1) (fillOf "1" 1)) =
      build { fills := ⟨[fillOf "1" 1], by decide⟩ } := by
  refine ⟨((fillLedger_iff (twoFills _ _)).1 ⟨⟨.binance, by decide⟩, by decide, by decide⟩).mpr ?_,
    (fillLedger_iff { fills := ⟨[fillOf "1" 1], by decide⟩ }).2.1 [fillOf "1" 1] [] (fillOf "1" 1)
      _ rfl rfl (List.mem_singleton_self _) (by decide)⟩
  exact List.pairwise_pair.mpr fun h => by
    rcases h.1 with h | h
    · exact absurd h.2 (by decide)
    · exact h.1 rfl

end FillLedger

end TradingInfrastructure
