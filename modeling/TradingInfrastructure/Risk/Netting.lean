import TradingInfrastructure.Risk.Totals

/-!
# The netting cap of a symbol

The cap on the net notional of a symbol over all venues is checked for orders on a symbol that has
some exposure already. So the first order of a symbol is not held to it, and every further one is
(`netting_run`).
-/

namespace TradingInfrastructure

open GlobalRiskControls

variable {r r' : GlobalRiskControls} {exchange : Exchange} {symbol : Option CString} {x : ℚ}

namespace GlobalRiskControls

/-- A symbol that is found is at that index of the table. -/
theorem findSymbol_eq_some {k : CString} {i : ℕ} (h : r.findSymbol k = .ok (some i)) :
    ∃ s, r.symbolStates[i]? = some s ∧ s.isFor k = true ∧ i < r.nextSlot := by
  unfold findSymbol at h
  split at h
  · next j hfind =>
    obtain rfl : j = i := Option.some.inj (Except.ok.inj h)
    obtain ⟨s, hs, hfor, -⟩ := SlotPool.getElem?_of_findIdx? hfind
    rw [List.getElem?_take] at hs
    split at hs
    · next hlt => exact ⟨s, hs, hfor, hlt⟩
    · cases hs
  · split at h
    · cases Except.ok.inj h
    · cases h

/-- The symbol of an order that passes the checks has been looked up, and has room for it. -/
theorem checkOrder_ok_symbol (h : r.checkOrder exchange symbol x = .ok .ok) :
    x ≠ 0 ∧ ∃ found, r.findSymbol (symbol.getD []) = .ok found ∧
      r.checkSymbol (found.map fun i => r.symbolStates.getD i {}) x = .ok := by
  unfold checkOrder at h
  split at h
  · cases h
  · next hinput =>
    refine ⟨fun hx => hinput (Or.inr hx), ?_⟩
    split at h
    · cases h
    · split at h
      · cases h
      · split at h
        · cases h
        · split at h
          · cases h
          · cases hfind : r.findSymbol (symbol.getD []) with
            | error f =>
              rw [hfind] at h
              cases h
            | ok found =>
              rw [hfind] at h
              exact ⟨found, rfl, Except.ok.inj h⟩

/-- With exposure to the symbol, the net notional stays within the cap. -/
theorem checkSymbol_ok {s : SymbolState} (h : r.checkSymbol (some s) x = .ok)
    (hcap : 0 < r.cfg.maxCrossVenueNetNotional) (hs : 0 < s.grossNotional) :
    |s.netNotional + x| ≤ r.cfg.maxCrossVenueNetNotional := by
  unfold checkSymbol at h
  simp only [Option.map_some, Option.getD_some] at h
  split at h
  · cases h
  · split at h
    · cases h
    · next hnet => exact not_lt.mp fun hc => hnet ⟨hcap, hs, hc⟩

/-- **What `commit_order` does**: it turns the order down, finds the table full, or adds the order
to the state of its symbol, which it takes from the table if the symbol has none. -/
theorem commitOrder_cases {result : GlobalRiskCheckResult}
    (h : r.commitOrder exchange symbol x = .ok (result, r')) :
    (result ≠ .ok ∧ (r' = r.breach ∨ r' = { r with nextSlot := r.nextSlot + 1 })) ∨
      (result = .ok ∧ x ≠ 0 ∧ ∃ v i, venueIndex exchange = some v ∧
        ((∃ s, r.findSymbol (symbol.getD []) = .ok (some i) ∧ r.symbolStates[i]? = some s ∧
            r.checkSymbol (some s) x = .ok ∧ r' = r.addNotional v i x) ∨
          (r.findSymbol (symbol.getD []) = .ok none ∧ i = r.nextSlot ∧ i < maxSymbols ∧
            r' = addNotional { r with
              nextSlot := i + 1
              symbolStates := r.symbolStates.modify i fun s =>
                { s with symbol := copySymbol (symbol.getD []), active := true } } v i x))) := by
  unfold commitOrder at h
  cases hcheck : r.checkOrder exchange symbol x with
  | error f =>
    rw [hcheck] at h
    cases h
  | ok check =>
    simp only [hcheck, bind, Except.bind] at h
    by_cases hok : check = .ok
    · subst hok
      obtain ⟨hx, found, hfind, hsymbol⟩ := checkOrder_ok_symbol hcheck
      obtain ⟨-, v, hv, -⟩ := checkOrder_ok hcheck
      simp only [ne_eq, not_true_eq_false, if_false, getOrCreateSymbol, hfind, hv,
        bind, Except.bind,
        pure, Except.pure] at h
      cases found with
      | some i =>
        obtain ⟨rfl, rfl⟩ := Prod.mk.inj (Except.ok.inj h)
        obtain ⟨s, hs, -, -⟩ := findSymbol_eq_some hfind
        rw [Option.map_some, List.getD_eq_getElem?_getD, hs, Option.getD_some] at hsymbol
        exact Or.inr ⟨rfl, hx, v, i, hv, Or.inl ⟨s, hfind, hs, hsymbol, rfl⟩⟩
      | none =>
        by_cases hfull : r.nextSlot ≥ maxSymbols
        · simp only [hfull, if_true] at h
          obtain ⟨rfl, rfl⟩ := Prod.mk.inj (Except.ok.inj h)
          exact Or.inl ⟨by decide, Or.inr rfl⟩
        · simp only [hfull, if_false] at h
          obtain ⟨rfl, rfl⟩ := Prod.mk.inj (Except.ok.inj h)
          exact Or.inr ⟨rfl, hx, v, r.nextSlot, hv, Or.inr ⟨hfind, rfl, not_le.mp hfull, rfl⟩⟩
    · simp only [ne_eq, hok, not_false_eq_true, if_true] at h
      obtain ⟨rfl, rfl⟩ := Prod.mk.inj (Except.ok.inj h)
      exact Or.inl ⟨hok, Or.inl rfl⟩

end GlobalRiskControls

/-! ## The orders of a symbol -/

/-- The arguments of a `commit_order`. -/
structure CommitCall where
  exchange : Exchange
  symbol : Option CString
  signedNotional : ℚ

/-- The risk controls, and the notionals of the orders that each state of the table stands for. -/
structure RiskBook where
  controls : GlobalRiskControls
  orders : ℕ → List ℚ

namespace RiskBook

def start (cfg : GlobalRiskConfig) (futuresCfg : FuturesRiskGateConfig) (killSwitch : KillSwitch) :
    RiskBook :=
  ⟨.new cfg futuresCfg killSwitch, fun _ => []⟩

/-- The orders after a call that has been answered: an order that is committed belongs to the state
that is found or taken for its symbol. -/
def ordersAfter (t : RiskBook) (c : CommitCall) (result : GlobalRiskCheckResult) : ℕ → List ℚ :=
  match t.controls.getOrCreateSymbol (c.symbol.getD []) with
  | .ok (some i, _) =>
    if result = .ok then Function.update t.orders i (t.orders i ++ [c.signedNotional]) else t.orders
  | _ => t.orders

/-- `commit_order`. -/
def commit (t : RiskBook) (c : CommitCall) : Except RiskFault RiskBook := do
  let (result, r) ← t.controls.commitOrder c.exchange c.symbol c.signedNotional
  return ⟨r, t.ordersAfter c result⟩

/-- What is left after one call after another. -/
def run : RiskBook → List CommitCall → Except RiskFault RiskBook
  | t, [] => .ok t
  | t, c :: cs => do
    let t ← t.commit c
    run t cs

/-- **The invariant of the netting cap**: a state of the table has the totals of its orders, and its
net notional is within the cap once there is more than one. -/
structure Netted (cap : ℚ) (t : RiskBook) : Prop where
  cap_eq : t.controls.cfg.maxCrossVenueNetNotional = cap
  gross_eq : ∀ (i : ℕ) s, t.controls.symbolStates[i]? = some s →
    s.grossNotional = ((t.orders i).map abs).sum
  net_eq : ∀ (i : ℕ) s, t.controls.symbolStates[i]? = some s → s.netNotional = (t.orders i).sum
  within : ∀ (i : ℕ), 1 < (t.orders i).length → |(t.orders i).sum| ≤ cap
  nonzero : ∀ (i : ℕ), ∀ x ∈ t.orders i, x ≠ 0
  untaken : ∀ (i : ℕ), t.controls.nextSlot ≤ i → t.orders i = []

variable {cap : ℚ} {t t' : RiskBook}

theorem netted_start (cfg : GlobalRiskConfig) (futuresCfg : FuturesRiskGateConfig)
    (killSwitch : KillSwitch) :
    (start cfg futuresCfg killSwitch).Netted cfg.maxCrossVenueNetNotional where
  cap_eq := rfl
  gross_eq i s hs := by
    rw [eq_of_mem_new cfg futuresCfg killSwitch (List.mem_of_getElem? hs)]
    rfl
  net_eq i s hs := by
    rw [eq_of_mem_new cfg futuresCfg killSwitch (List.mem_of_getElem? hs)]
    rfl
  within i hi := absurd hi (by simp [start])
  nonzero i y hy := absurd hy List.not_mem_nil
  untaken i _ := rfl

/-- The gross notional of orders is positive. -/
theorem sum_abs_pos {xs : List ℚ} (hne : xs ≠ []) (h : ∀ x ∈ xs, x ≠ 0) :
    0 < (xs.map abs).sum := by
  refine List.sum_pos _ (fun y hy => ?_) (by simpa using hne)
  obtain ⟨x, hx, rfl⟩ := List.mem_map.mp hy
  exact abs_pos.mpr (h x hx)

/-- An order is added to a state of the table. -/
theorem Netted.add (h : t.Netted cap) {v : Fin 4} {i : ℕ}
    (hi : i < t.controls.nextSlot) (hx : x ≠ 0)
    (hwithin : t.orders i ≠ [] → |(t.orders i).sum + x| ≤ cap) :
    Netted cap ⟨t.controls.addNotional v i x, Function.update t.orders i (t.orders i ++ [x])⟩ := by
  refine ⟨h.cap_eq, fun j s hs => ?_, fun j s hs => ?_, fun j hj => ?_, fun j y hy => ?_,
    fun j hj => ?_⟩
  · rcases SlotPool.getElem?_modify_cases hs with ⟨hne, hs⟩ | ⟨rfl, a, ha, rfl⟩
    · simp only [Function.update_of_ne (Ne.symm hne)]
      exact h.gross_eq j s hs
    · simp [h.gross_eq i a ha]
  · rcases SlotPool.getElem?_modify_cases hs with ⟨hne, hs⟩ | ⟨rfl, a, ha, rfl⟩
    · simp only [Function.update_of_ne (Ne.symm hne)]
      exact h.net_eq j s hs
    · simp [h.net_eq i a ha]
  · by_cases hij : j = i
    · subst hij
      simp only [Function.update_self, List.length_append, List.length_singleton, List.sum_append,
        List.sum_singleton] at hj ⊢
      exact hwithin fun hc => by simp [hc] at hj
    · simp only [Function.update_of_ne hij] at hj ⊢
      exact h.within j hj
  · by_cases hij : j = i
    · subst hij
      simp only [Function.update_self, List.mem_append, List.mem_singleton] at hy
      rcases hy with hy | rfl
      · exact h.nonzero j y hy
      · exact hx
    · simp only [Function.update_of_ne hij] at hy
      exact h.nonzero j y hy
  · have hij : j ≠ i := by
      rintro rfl
      exact absurd hi (not_lt.mpr hj)
    simp only [Function.update_of_ne hij]
    exact h.untaken j hj

/-- A slot of the table is taken for a symbol. -/
theorem Netted.take (h : t.Netted cap) (symbol : Symbol) :
    Netted cap { t with controls := { t.controls with
      nextSlot := t.controls.nextSlot + 1
      symbolStates := t.controls.symbolStates.modify t.controls.nextSlot fun s =>
        { s with symbol := symbol, active := true } } } := by
  refine ⟨h.cap_eq, fun j s hs => ?_, fun j s hs => ?_, h.within, h.nonzero, fun j hj => ?_⟩
  · rcases SlotPool.getElem?_modify_cases hs with ⟨-, hs⟩ | ⟨rfl, a, ha, rfl⟩
    · exact h.gross_eq j s hs
    · exact h.gross_eq _ a ha
  · rcases SlotPool.getElem?_modify_cases hs with ⟨-, hs⟩ | ⟨rfl, a, ha, rfl⟩
    · exact h.net_eq j s hs
    · exact h.net_eq _ a ha
  · exact h.untaken j (Nat.le_of_succ_le hj)

/-- The orders stay, and so does what is known about the states. -/
theorem Netted.of_frame (h : t.Netted cap) {r : GlobalRiskControls}
    (hcfg : r.cfg = t.controls.cfg) (hstates : r.symbolStates = t.controls.symbolStates)
    (hslot : t.controls.nextSlot ≤ r.nextSlot) : Netted cap ⟨r, t.orders⟩ :=
  ⟨by rw [← h.cap_eq, hcfg], by simpa only [hstates] using h.gross_eq,
    by simpa only [hstates] using h.net_eq, h.within, h.nonzero,
    fun i hi => h.untaken i (hslot.trans hi)⟩

/-- **A commit keeps the invariant.** -/
theorem Netted.commit (h : t.Netted cap) (hcap : 0 < cap) {c : CommitCall}
    (hc : t.commit c = .ok t') : t'.Netted cap := by
  unfold RiskBook.commit at hc
  cases hcommit : t.controls.commitOrder c.exchange c.symbol c.signedNotional with
  | error f =>
    rw [hcommit] at hc
    cases hc
  | ok answer =>
    obtain ⟨result, r⟩ := answer
    simp only [hcommit, bind, Except.bind, pure, Except.pure] at hc
    obtain rfl := Except.ok.inj hc
    rcases commitOrder_cases hcommit with
      ⟨hne, hr⟩ | ⟨rfl, hx, v, i, -, ⟨s, hfind, hs, hsymbol, rfl⟩ | ⟨hfind, rfl, hlt, rfl⟩⟩
    · have horders : t.ordersAfter c result = t.orders := by
        unfold ordersAfter
        split <;> simp [hne]
      rw [horders]
      rcases hr with rfl | rfl
      · obtain ⟨k, hk⟩ := t.controls.breach_eq
        rw [hk]
        exact h.of_frame rfl rfl le_rfl
      · exact h.of_frame rfl rfl (Nat.le_succ _)
    · -- the symbol has a state
      have horders : t.ordersAfter c .ok =
          Function.update t.orders i (t.orders i ++ [c.signedNotional]) := by
        simp [ordersAfter, getOrCreateSymbol, hfind, bind, Except.bind, pure, Except.pure]
      rw [horders]
      obtain ⟨-, -, -, hi⟩ := findSymbol_eq_some hfind
      refine h.add hi hx fun hne => ?_
      have hgross : 0 < s.grossNotional := by
        rw [h.gross_eq i s hs]
        exact sum_abs_pos hne (h.nonzero i)
      have hnet := checkSymbol_ok hsymbol (h.cap_eq ▸ hcap) hgross
      rwa [h.net_eq i s hs, h.cap_eq] at hnet
    · -- the symbol takes the next slot, which no order has used
      have horders : t.ordersAfter c .ok = Function.update t.orders t.controls.nextSlot
          (t.orders t.controls.nextSlot ++ [c.signedNotional]) := by
        simp [ordersAfter, getOrCreateSymbol, hfind, bind, Except.bind, pure, Except.pure,
          not_le.mpr hlt]
      rw [horders]
      have htake := h.take (copySymbol (c.symbol.getD []))
      exact htake.add (Nat.lt_succ_self _) hx fun hne => absurd (h.untaken _ le_rfl) hne

theorem Netted.run (hcap : 0 < cap) {cs : List CommitCall} :
    ∀ {t : RiskBook}, t.Netted cap → t.run cs = .ok t' → t'.Netted cap := by
  induction cs with
  | nil =>
    intro t h hrun
    exact Except.ok.inj hrun ▸ h
  | cons c cs ih =>
    intro t h hrun
    unfold RiskBook.run at hrun
    cases hc : t.commit c with
    | error f =>
      rw [hc] at hrun
      cases hrun
    | ok t₁ =>
      rw [hc] at hrun
      exact ih (h.commit hcap hc) hrun

/-- **The netting cap of a symbol.** Its net notional is that of its orders, and is within the cap
once there is more than one. -/
theorem netting_run (cfg : GlobalRiskConfig) (futuresCfg : FuturesRiskGateConfig)
    (killSwitch : KillSwitch) (hcap : 0 < cfg.maxCrossVenueNetNotional) {cs : List CommitCall}
    (hrun : (start cfg futuresCfg killSwitch).run cs = .ok t) {i : ℕ} {s : SymbolState}
    (hs : t.controls.symbolStates[i]? = some s) :
    s.netNotional = (t.orders i).sum ∧
      (1 < (t.orders i).length → |s.netNotional| ≤ cfg.maxCrossVenueNetNotional) := by
  have h := (netted_start cfg futuresCfg killSwitch).run hcap hrun
  have hnet := h.net_eq i s hs
  exact ⟨hnet, fun hi => hnet ▸ h.within i hi⟩

/-- A cap of 250 on the net notional of each symbol, and no other. -/
def nettingCap : GlobalRiskConfig where
  maxGrossNotional := 0
  maxNetNotional := 0
  maxSymbolConcentration := 0
  maxVenueNotional := 0
  maxCrossVenueNetNotional := 250
  killOnBreach := false

/-- A purchase beyond the cap. -/
def firstPurchase : CommitCall := ⟨.binance, some "BTCUSDT".toList, 300⟩

/-- A sale of a third of it, at another venue. -/
def partialSale : CommitCall := ⟨.kraken, some "BTCUSDT".toList, -100⟩

/-- The sale brings the symbol back within the cap. -/
theorem netting_run_partialSale :
    ∃ t s, (start nettingCap {} {}).run [firstPurchase, partialSale] = .ok t ∧
      t.controls.symbolStates[0]? = some s ∧ s.netNotional = 200 ∧ |s.netNotional| ≤ 250 := by
  have hshape : ((start nettingCap {} {}).run [firstPurchase, partialSale]).map
      (fun t => (t.orders 0, (t.controls.symbolStates[0]?).isSome)) = .ok ([300, -100], true) := by
    decide +kernel
  cases hrun : (start nettingCap {} {}).run [firstPurchase, partialSale] with
  | error f =>
    rw [hrun] at hshape
    cases hshape
  | ok t =>
    rw [hrun] at hshape
    obtain ⟨horders, hsome⟩ := Prod.mk.inj (Except.ok.inj hshape)
    obtain ⟨s, hs⟩ := Option.isSome_iff_exists.mp hsome
    have h := netting_run nettingCap {} {} (by norm_num [nettingCap]) hrun hs
    rw [horders] at h
    refine ⟨t, s, rfl, hs, by rw [h.1]; norm_num, h.2 (by decide)⟩

/-- **The first order of a symbol is not held to the cap.** -/
theorem firstPurchase_exceeds_cap :
    ∃ t s, (start nettingCap {} {}).run [firstPurchase] = .ok t ∧ s ∈ t.controls.symbolStates ∧
      nettingCap.maxCrossVenueNetNotional < |s.netNotional| := by
  have hnet : ((start nettingCap {} {}).run [firstPurchase]).map
      (fun t => t.controls.symbolStates[0]?.map (·.netNotional)) = .ok (some 300) := by
    decide +kernel
  cases hrun : (start nettingCap {} {}).run [firstPurchase] with
  | error f =>
    rw [hrun] at hnet
    cases hnet
  | ok t =>
    rw [hrun] at hnet
    obtain ⟨s, hs, h300⟩ := Option.map_eq_some_iff.mp (Except.ok.inj hnet)
    refine ⟨t, s, rfl, List.mem_of_getElem? hs, ?_⟩
    rw [h300]
    norm_num [nettingCap]

end RiskBook

end TradingInfrastructure
