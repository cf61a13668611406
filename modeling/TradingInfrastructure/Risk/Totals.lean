import TradingInfrastructure.Risk.GlobalRiskControls
import TradingInfrastructure.Foundations.Exposure

/-!
# The totals of the risk controls

The risk controls keep the gross and the net notional of all orders, the gross notional of each
venue, and both of each symbol. They are the totals of one book of postings, the orders that were
committed (`Carries`), so they agree with each other, and the checks keep them within the caps
(`WithinCaps`).

A run asks for a slot of the table once for each symbol. With no more symbols than slots, the
search never reads past the table (`Tabled`), and every call that is turned down leaves the totals
as they were.
-/

namespace TradingInfrastructure

open Exposure (gross net under)

/-- An order that was committed. -/
structure RiskPosting where
  venue : Fin 4
  symbol : CString
  notional : ℚ

/-- The symbol of a state in use. -/
def SymbolState.key (s : SymbolState) : Option CString :=
  if s.active then some s.symbol.chars else none

theorem SymbolState.key_eq_some {s : SymbolState} {k : CString} :
    s.key = some k ↔ s.active = true ∧ s.symbol.chars = k := by
  simp [key]

theorem SymbolState.isFor_iff {s : SymbolState} {symbol : CString} (h : symbol.length < 16) :
    s.isFor symbol = true ↔ s.key = some symbol := by
  rw [isFor, key_eq_some, Bool.and_eq_true, strncmpEq_of_length_lt s.symbol.length_lt h]

namespace GlobalRiskControls

/-- The totals are those of the postings. -/
structure Carries (r : GlobalRiskControls) (ps : List RiskPosting) : Prop where
  gross_eq : r.grossNotional = gross RiskPosting.notional ps
  net_eq : r.netNotional = net RiskPosting.notional ps
  venue_eq : ∀ v, r.venueGrossNotional v =
    gross RiskPosting.notional (under RiskPosting.venue v ps)
  unique : SlotPool.KeysUnique SymbolState.key r.symbolStates
  known : ∀ p ∈ ps, SlotPool.HasKey SymbolState.key r.symbolStates p.symbol
  symbol_eq : ∀ s ∈ r.symbolStates, ∀ k, s.key = some k →
    s.grossNotional = gross RiskPosting.notional (under RiskPosting.symbol k ps) ∧
      s.netNotional = net RiskPosting.notional (under RiskPosting.symbol k ps)
  idle : ∀ s ∈ r.symbolStates, s.key = none → s.grossNotional = 0 ∧ s.netNotional = 0

/-- The slots given out are the first of the table, to symbols of the set. -/
structure Tabled (symbols : Finset CString) (r : GlobalRiskControls) : Prop where
  length_eq : r.symbolStates.length = maxSymbols
  nextSlot_le : r.nextSlot ≤ maxSymbols
  active_iff : ∀ (i : ℕ) s, r.symbolStates[i]? = some s → (s.active = true ↔ i < r.nextSlot)
  listed : ∀ s ∈ r.symbolStates, ∀ k, s.key = some k → k ∈ symbols

/-- The caps that are set hold. -/
structure WithinCaps (r : GlobalRiskControls) : Prop where
  gross : 0 < r.cfg.maxGrossNotional → r.grossNotional ≤ r.cfg.maxGrossNotional
  net : 0 < r.cfg.maxNetNotional → |r.netNotional| ≤ r.cfg.maxNetNotional
  venue : 0 < r.cfg.maxVenueNotional → ∀ v, r.venueGrossNotional v ≤ r.cfg.maxVenueNotional

/-- **The totals agree with each other.** -/
structure Balanced (r : GlobalRiskControls) : Prop where
  venues : r.grossNotional = ∑ v, r.venueGrossNotional v
  symbols : r.grossNotional = (r.symbolStates.map (·.grossNotional)).sum
  netSymbols : r.netNotional = (r.symbolStates.map (·.netNotional)).sum
  abs_net_le : |r.netNotional| ≤ r.grossNotional

variable {r : GlobalRiskControls} {ps : List RiskPosting} {symbols : Finset CString}

theorem Carries.balanced (h : r.Carries ps) : r.Balanced where
  venues := by
    simp only [h.venue_eq, h.gross_eq]
    exact (Exposure.sum_gross_at RiskPosting.notional RiskPosting.venue ps).symm
  symbols := by
    rw [h.gross_eq]
    exact (Exposure.sum_slots_under RiskPosting.symbol _ h.unique h.known
      (fun s hs k hk => (h.symbol_eq s hs k hk).1) fun s hs hk => (h.idle s hs hk).1).symm
  netSymbols := by
    rw [h.net_eq]
    exact (Exposure.sum_slots_under RiskPosting.symbol _ h.unique h.known
      (fun s hs k hk => (h.symbol_eq s hs k hk).2) fun s hs hk => (h.idle s hs hk).2).symm
  abs_net_le := by
    rw [h.gross_eq, h.net_eq]
    exact Exposure.abs_net_le_gross RiskPosting.notional ps

/-! ## The start -/

section Start

variable (cfg : GlobalRiskConfig) (futuresCfg : FuturesRiskGateConfig) (killSwitch : KillSwitch)

theorem eq_of_mem_new {s : SymbolState} (h : s ∈ (new cfg futuresCfg killSwitch).symbolStates) :
    s = {} :=
  List.eq_of_mem_replicate h

theorem carries_new : (new cfg futuresCfg killSwitch).Carries [] where
  gross_eq := rfl
  net_eq := rfl
  venue_eq _ := rfl
  unique i j a b k ha _ hk _ := by
    rw [eq_of_mem_new cfg futuresCfg killSwitch (List.mem_of_getElem? ha)] at hk
    cases hk
  known p hp := by cases hp
  symbol_eq s hs k hk := by
    rw [eq_of_mem_new cfg futuresCfg killSwitch hs] at hk
    cases hk
  idle s hs _ := by
    rw [eq_of_mem_new cfg futuresCfg killSwitch hs]
    exact ⟨rfl, rfl⟩

theorem tabled_new : (new cfg futuresCfg killSwitch).Tabled symbols where
  length_eq := List.length_replicate
  nextSlot_le := Nat.zero_le _
  active_iff i s hs := by
    rw [eq_of_mem_new cfg futuresCfg killSwitch (List.mem_of_getElem? hs)]
    simp [new]
  listed s hs k hk := by
    rw [eq_of_mem_new cfg futuresCfg killSwitch hs] at hk
    cases hk

theorem withinCaps_new : (new cfg futuresCfg killSwitch).WithinCaps where
  gross h := h.le
  net h := by
    change |(0 : ℚ)| ≤ _
    rw [abs_zero]
    exact h.le
  venue h _ := h.le

end Start

/-! ## The table -/

/-- What the search for a symbol finds. -/
theorem Tabled.findSymbol_cases (h : r.Tabled symbols) {symbol : CString}
    (hlen : symbol.length < 16) :
    (∃ (i : ℕ) (s : SymbolState), r.findSymbol symbol = .ok (some i) ∧
        r.symbolStates[i]? = some s ∧ s.key = some symbol) ∨
      (r.findSymbol symbol = .ok none ∧
        ¬ SlotPool.HasKey SymbolState.key r.symbolStates symbol) := by
  unfold findSymbol
  cases hfind : (r.symbolStates.take r.nextSlot).findIdx? (SymbolState.isFor symbol) with
  | some i =>
    obtain ⟨s, hs, hfor, -⟩ := SlotPool.getElem?_of_findIdx? hfind
    rw [List.getElem?_take] at hs
    split at hs
    · exact Or.inl ⟨i, s, rfl, hs, (SymbolState.isFor_iff hlen).mp hfor⟩
    · cases hs
  | none =>
    refine Or.inr ⟨by simp [h.nextSlot_le], ?_⟩
    rintro ⟨s, hmem, hk⟩
    obtain ⟨i, hi⟩ := List.mem_iff_getElem?.mp hmem
    -- a state with a symbol lies among those that the search has seen
    have hlt := (h.active_iff i s hi).mp (SymbolState.key_eq_some.mp hk).1
    have hseen : s ∈ r.symbolStates.take r.nextSlot := by
      refine List.mem_of_getElem? (i := i) ?_
      rw [List.getElem?_take, if_pos hlt, hi]
    have hnot := SlotPool.not_of_findIdx?_eq_none hfind hseen
    rw [(SymbolState.isFor_iff hlen).mpr hk] at hnot
    cases hnot

/-- Every slot given out has a symbol of its own. -/
theorem Tabled.nextSlot_lt (h : r.Tabled symbols)
    (hunique : SlotPool.KeysUnique SymbolState.key r.symbolStates) {symbol : CString}
    (hmem : symbol ∈ symbols) (hnew : ¬ SlotPool.HasKey SymbolState.key r.symbolStates symbol) :
    r.nextSlot < symbols.card := by
  have hget : ∀ i < r.nextSlot, ∃ s, r.symbolStates[i]? = some s ∧ s.key = some s.symbol.chars := by
    intro i hi
    have hlt : i < r.symbolStates.length := by
      rw [h.length_eq]
      exact hi.trans_le h.nextSlot_le
    obtain ⟨s, hs⟩ : ∃ s, r.symbolStates[i]? = some s := ⟨_, List.getElem?_eq_getElem hlt⟩
    exact ⟨s, hs, SymbolState.key_eq_some.mpr ⟨(h.active_iff i s hs).mpr hi, rfl⟩⟩
  have hcard : (Finset.range r.nextSlot).card ≤ (symbols.erase symbol).card := by
    refine Finset.card_le_card_of_injOn (fun i => (r.symbolStates.getD i {}).symbol.chars)
      (fun i hi => ?_) (fun i hi j hj he => ?_)
    · obtain ⟨s, hs, hk⟩ := hget i (Finset.mem_range.mp hi)
      have hs' := List.mem_of_getElem? hs
      simp only [List.getD_eq_getElem?_getD, hs, Option.getD_some]
      refine Finset.mem_erase.mpr ⟨?_, h.listed s hs' _ hk⟩
      rintro rfl
      exact hnew ⟨s, hs', hk⟩
    · obtain ⟨s, hs, hk⟩ := hget i (Finset.mem_range.mp hi)
      obtain ⟨s', hs', hk'⟩ := hget j (Finset.mem_range.mp hj)
      simp only [List.getD_eq_getElem?_getD, hs, hs', Option.getD_some] at he
      exact hunique i j s s' _ hs hs' hk (he ▸ hk')
  rw [Finset.card_range, Finset.card_erase_of_mem hmem] at hcard
  have hpos := Finset.card_pos.mpr ⟨symbol, hmem⟩
  omega

/-- **A symbol of the set gets a state**, and the totals stay as they were. -/
theorem Tabled.getOrCreateSymbol (h : r.Tabled symbols) (hc : r.Carries ps)
    (hcard : symbols.card ≤ maxSymbols) {symbol : CString} (hlen : symbol.length < 16)
    (hmem : symbol ∈ symbols) :
    ∃ (i n : ℕ) (states : List SymbolState),
      r.getOrCreateSymbol symbol =
        .ok (some i, { r with nextSlot := n, symbolStates := states }) ∧
      Tabled symbols { r with nextSlot := n, symbolStates := states } ∧
      Carries { r with nextSlot := n, symbolStates := states } ps ∧
      ∃ s, states[i]? = some s ∧ s.key = some symbol := by
  unfold GlobalRiskControls.getOrCreateSymbol
  rcases h.findSymbol_cases hlen with ⟨i, s, hfind, hs, hk⟩ | ⟨hfind, hnew⟩
  · rw [hfind]
    exact ⟨i, r.nextSlot, r.symbolStates, rfl, h, hc, s, hs, hk⟩
  · have hlt := (h.nextSlot_lt hc.unique hmem hnew).trans_le hcard
    obtain ⟨old, hold⟩ : ∃ old, r.symbolStates[r.nextSlot]? = some old :=
      ⟨_, List.getElem?_eq_getElem (h.length_eq ▸ hlt)⟩
    have hidle : old.active = false := by
      rw [← Bool.not_eq_true, h.active_iff _ _ hold]
      exact lt_irrefl _
    have hfree : old.key = none := by simp [SymbolState.key, hidle]
    set f : SymbolState → SymbolState :=
      fun s => { s with symbol := copySymbol symbol, active := true } with hf
    have hkey : (f old).key = some symbol := by
      refine SymbolState.key_eq_some.mpr ⟨rfl, ?_⟩
      exact strncpyBuf_of_length_lt hlen
    refine ⟨r.nextSlot, r.nextSlot + 1, r.symbolStates.modify r.nextSlot f, ?_, ?_, ?_, f old,
      by simp [hold], hkey⟩
    · rw [hfind]
      simp only [bind, Except.bind, ge_iff_le, not_le.mpr hlt, if_false, pure, Except.pure, hf]
    · refine ⟨by simpa using h.length_eq, hlt, fun i s hs => ?_, ?_⟩
      · rcases SlotPool.getElem?_modify_cases hs with ⟨hne, hs⟩ | ⟨rfl, a, ha, rfl⟩
        · rw [h.active_iff i s hs]
          change i < r.nextSlot ↔ i < r.nextSlot + 1
          omega
        · exact iff_of_true rfl (Nat.lt_succ_self _)
      · refine SlotPool.forall_mem_modify h.listed fun a ha k hk => ?_
        obtain rfl : a = old := Option.some.inj (ha.symm.trans hold)
        rwa [← Option.some.inj (hkey.symm.trans hk)]
    · refine ⟨hc.gross_eq, hc.net_eq, hc.venue_eq, ?_, fun p hp => ?_, ?_, ?_⟩
      · refine hc.unique.modify fun a k ha hk j b _ hb hkb => hnew ?_
        obtain rfl : a = old := Option.some.inj (ha.symm.trans hold)
        rw [← Option.some.inj (hkey.symm.trans hk)] at hkb
        exact ⟨b, List.mem_of_getElem? hb, hkb⟩
      · exact (SlotPool.hasKey_modify_of_take hold hfree hkey).mpr (Or.inl (hc.known p hp))
      · refine SlotPool.forall_mem_modify hc.symbol_eq fun a ha k hk => ?_
        obtain rfl : a = old := Option.some.inj (ha.symm.trans hold)
        obtain rfl := Option.some.inj (hkey.symm.trans hk)
        -- nothing has been posted under the new symbol
        have hnone : ∀ p ∈ ps, p.symbol ≠ symbol := fun p hp he => hnew (he ▸ hc.known p hp)
        rw [Exposure.under_eq_nil RiskPosting.symbol hnone]
        exact hc.idle a (List.mem_of_getElem? ha) hfree
      · refine SlotPool.forall_mem_modify hc.idle fun a ha hk => ?_
        obtain rfl : a = old := Option.some.inj (ha.symm.trans hold)
        rw [hkey] at hk
        cases hk

/-! ## Commits -/

/-- **The additions of a commit post the order.** -/
theorem Carries.addNotional (h : r.Carries ps) (v : Fin 4) {i : ℕ} {s : SymbolState}
    {symbol : CString} (hs : r.symbolStates[i]? = some s) (hk : s.key = some symbol) (x : ℚ) :
    (r.addNotional v i x).Carries (ps ++ [⟨v, symbol, x⟩]) := by
  set f : SymbolState → SymbolState := fun s =>
    { s with grossNotional := s.grossNotional + |x|, netNotional := s.netNotional + x } with hf
  have hstates : (r.addNotional v i x).symbolStates = r.symbolStates.modify i f := rfl
  have hkey : ∀ a, (f a).key = a.key := fun _ => rfl
  refine ⟨?_, ?_, fun w => ?_, ?_, fun p hp => ?_, ?_, ?_⟩
  · rw [Exposure.gross_append_singleton, ← h.gross_eq]
    rfl
  · rw [Exposure.net_append_singleton, ← h.net_eq]
    rfl
  · by_cases hw : v = w
    · subst hw
      rw [Exposure.under_append_of_eq RiskPosting.venue (p := ⟨v, symbol, x⟩) rfl,
        Exposure.gross_append_singleton, ← h.venue_eq]
      exact Function.update_self ..
    · rw [Exposure.under_append_of_ne RiskPosting.venue hw, ← h.venue_eq]
      exact Function.update_of_ne (Ne.symm hw) ..
  · rw [hstates]
    exact h.unique.modify_of_key_eq fun a _ => Or.inl (hkey a)
  · rw [hstates, SlotPool.hasKey_modify_of_same hs (hkey s)]
    rcases List.mem_append.mp hp with hp | hp
    · exact h.known p hp
    · rw [List.mem_singleton.mp hp]
      exact ⟨s, List.mem_of_getElem? hs, hk⟩
  · rw [hstates]
    intro a ha k hka
    obtain ⟨j, hj⟩ := List.mem_iff_getElem?.mp ha
    rcases SlotPool.getElem?_modify_cases hj with ⟨hij, hold⟩ | ⟨rfl, b, hb, rfl⟩
    · -- another symbol, whose postings are the same as before
      have hne : symbol ≠ k := by
        rintro rfl
        exact hij (h.unique i j s a _ hs hold hk hka)
      rw [Exposure.under_append_of_ne RiskPosting.symbol hne]
      exact h.symbol_eq a (List.mem_of_getElem? hold) k hka
    · obtain rfl : b = s := Option.some.inj (hb.symm.trans hs)
      obtain rfl := Option.some.inj (hk.symm.trans hka)
      obtain ⟨hgross, hnet⟩ := h.symbol_eq b (List.mem_of_getElem? hs) symbol hk
      rw [Exposure.under_append_of_eq RiskPosting.symbol (p := ⟨v, symbol, x⟩) rfl,
        Exposure.gross_append_singleton, Exposure.net_append_singleton, ← hgross, ← hnet]
      exact ⟨rfl, rfl⟩
  · rw [hstates]
    refine SlotPool.forall_mem_modify h.idle fun a ha hka => ?_
    obtain rfl : a = s := Option.some.inj (ha.symm.trans hs)
    rw [hkey, hk] at hka
    cases hka

theorem Tabled.addNotional (h : r.Tabled symbols) (v : Fin 4) (i : ℕ) (x : ℚ) :
    (r.addNotional v i x).Tabled symbols := by
  refine ⟨by simpa [GlobalRiskControls.addNotional] using h.length_eq, h.nextSlot_le,
    fun j s hs => ?_, ?_⟩
  · rcases SlotPool.getElem?_modify_cases hs with ⟨-, hs⟩ | ⟨rfl, a, ha, rfl⟩
    · exact h.active_iff j s hs
    · exact h.active_iff i a ha
  · exact SlotPool.forall_mem_modify h.listed fun a ha k hk =>
      h.listed a (List.mem_of_getElem? ha) k hk

/-- What an order meets that passes the checks. -/
theorem checkOrder_ok {exchange : Exchange} {symbol : Option CString} {x : ℚ}
    (h : r.checkOrder exchange symbol x = .ok .ok) :
    symbol.getD [] ≠ [] ∧ ∃ v, venueIndex exchange = some v ∧
      (0 < r.cfg.maxGrossNotional → r.grossNotional + |x| ≤ r.cfg.maxGrossNotional) ∧
      (0 < r.cfg.maxNetNotional → |r.netNotional + x| ≤ r.cfg.maxNetNotional) ∧
      (0 < r.cfg.maxVenueNotional → r.venueGrossNotional v + |x| ≤ r.cfg.maxVenueNotional) := by
  unfold checkOrder at h
  split at h
  · cases h
  · next hinput =>
    refine ⟨fun hc => hinput (Or.inl hc), ?_⟩
    split at h
    · cases h
    · next hgross =>
      split at h
      · cases h
      · next hnet =>
        split at h
        · cases h
        · next v hv =>
          split at h
          · cases h
          · next hvenue =>
            exact ⟨v, hv, fun hp => not_lt.mp fun hc => hgross ⟨hp, hc⟩,
              fun hp => not_lt.mp fun hc => hnet ⟨hp, hc⟩,
              fun hp => not_lt.mp fun hc => hvenue ⟨hp, hc⟩⟩

/-- As long as the search stays in the table, a check has a result. -/
theorem Tabled.checkOrder_total (h : r.Tabled symbols) (exchange : Exchange)
    {symbol : Option CString} (hsymbol : ∀ s, symbol = some s → s.length < 16 ∧ s ∈ symbols)
    (x : ℚ) : ∃ result, r.checkOrder exchange symbol x = .ok result := by
  have hlen : (symbol.getD []).length < 16 := by
    cases symbol with
    | none => decide
    | some s => exact (hsymbol s rfl).1
  unfold checkOrder
  split_ifs
  · exact ⟨_, rfl⟩
  · exact ⟨_, rfl⟩
  · exact ⟨_, rfl⟩
  · split
    · exact ⟨_, rfl⟩
    · split_ifs
      · exact ⟨_, rfl⟩
      · rcases h.findSymbol_cases hlen with ⟨i, s, hfind, -⟩ | ⟨hfind, -⟩ <;> rw [hfind] <;>
          exact ⟨_, rfl⟩

/-- **The invariant of the risk controls.** -/
structure Sound (symbols : Finset CString) (r : GlobalRiskControls) : Prop where
  carries : ∃ ps, r.Carries ps
  tabled : r.Tabled symbols
  withinCaps : r.WithinCaps

theorem sound_new (cfg : GlobalRiskConfig) (futuresCfg : FuturesRiskGateConfig)
    (killSwitch : KillSwitch) : Sound symbols (new cfg futuresCfg killSwitch) :=
  ⟨⟨[], carries_new cfg futuresCfg killSwitch⟩, tabled_new cfg futuresCfg killSwitch,
    withinCaps_new cfg futuresCfg killSwitch⟩

/-- A breach only touches the kill switch. -/
theorem breach_eq (r : GlobalRiskControls) : ∃ k, r.breach = { r with killSwitch := k } := by
  unfold breach
  split
  · exact ⟨_, rfl⟩
  · exact ⟨r.killSwitch, rfl⟩

/-- The kill switch has no part in the invariant. -/
theorem Sound.withKillSwitch (h : Sound symbols r) (k : KillSwitch) :
    Sound symbols { r with killSwitch := k } := by
  obtain ⟨ps, hc⟩ := h.carries
  exact ⟨⟨ps, hc.gross_eq, hc.net_eq, hc.venue_eq, hc.unique, hc.known, hc.symbol_eq, hc.idle⟩,
    ⟨h.tabled.length_eq, h.tabled.nextSlot_le, h.tabled.active_iff, h.tabled.listed⟩,
    ⟨h.withinCaps.gross, h.withinCaps.net, h.withinCaps.venue⟩⟩

theorem Sound.breach (h : Sound symbols r) : Sound symbols r.breach := by
  obtain ⟨k, hk⟩ := r.breach_eq
  rw [hk]
  exact h.withKillSwitch k

/-- What a call does to risk controls that are sound: it keeps them sound, and when it does not
return OK it changes nothing but the kill switch. -/
def Keeps (symbols : Finset CString) (r : GlobalRiskControls) (result : GlobalRiskCheckResult)
    (r' : GlobalRiskControls) : Prop :=
  Sound symbols r' ∧ (result ≠ .ok → r' = r.breach)

/-- **A commit keeps the invariant**, and returns what the check returns. -/
theorem Sound.commitOrder (h : Sound symbols r) (hcard : symbols.card ≤ maxSymbols)
    (exchange : Exchange) {symbol : Option CString} (hsymbol : ∀ s, symbol = some s →
      s.length < 16 ∧ s ∈ symbols) (x : ℚ) :
    ∃ check r', r.checkOrder exchange symbol x = .ok check ∧
      r.commitOrder exchange symbol x = .ok (check, r') ∧ Keeps symbols r check r' := by
  obtain ⟨check, hcheck⟩ := h.tabled.checkOrder_total exchange hsymbol x
  obtain ⟨ps, hc⟩ := h.carries
  unfold GlobalRiskControls.commitOrder
  by_cases hok : check = .ok
  · subst hok
    obtain ⟨hgiven, v, hv, hgross, hnet, hvenue⟩ := checkOrder_ok hcheck
    obtain ⟨symbol, rfl⟩ : ∃ s, symbol = some s := by
      cases symbol with
      | none => exact absurd rfl hgiven
      | some s => exact ⟨s, rfl⟩
    obtain ⟨hlen, hmem⟩ := hsymbol symbol rfl
    obtain ⟨i, n, states, hget, htab, hcar, s, hs, hk⟩ :=
      h.tabled.getOrCreateSymbol hc hcard hlen hmem
    refine ⟨.ok, _, hcheck, ?_, ⟨⟨_, hcar.addNotional v hs hk x⟩, htab.addNotional v i x, ?_⟩,
      fun hne => absurd rfl hne⟩
    · rw [hcheck]
      simp only [bind, Except.bind, ne_eq, not_true_eq_false, if_false, Option.getD_some, hget, hv]
      rfl
    · refine ⟨hgross, hnet, fun hp w => ?_⟩
      show Function.update r.venueGrossNotional v (r.venueGrossNotional v + |x|) w ≤ _
      by_cases hw : w = v
      · rw [hw, Function.update_self]
        exact hvenue hp
      · rw [Function.update_of_ne hw]
        exact h.withinCaps.venue hp w
  · refine ⟨check, r.breach, hcheck, ?_, h.breach, fun _ => rfl⟩
    rw [hcheck]
    simp only [bind, Except.bind, ne_eq, hok, not_false_eq_true, if_true]
    rfl

/-- **A futures commit keeps the invariant**, and returns what the check returns. -/
theorem Sound.commitFuturesOrder (h : Sound symbols r) (hcard : symbols.card ≤ maxSymbols)
    (exchange : Exchange) {symbol : Option CString} (hsymbol : ∀ s, symbol = some s →
      s.length < 16 ∧ s ∈ symbols) (x : ℚ) (ctx : FuturesRiskContext) :
    ∃ check scaled r', r.checkFuturesOrder exchange symbol x ctx = .ok (check, scaled) ∧
      r.commitFuturesOrder exchange symbol x ctx = .ok (check, scaled, r') ∧
      Keeps symbols r check r' ∧
      (check = .ok → r.commitOrder exchange symbol scaled = .ok (check, r')) := by
  obtain ⟨check, scaled, hcheck, hscaled⟩ : ∃ check scaled,
      r.checkFuturesOrder exchange symbol x ctx = .ok (check, scaled) ∧
      (check = .ok → r.checkOrder exchange symbol scaled = .ok .ok) := by
    unfold checkFuturesOrder
    split
    · next scaled _ =>
      obtain ⟨check, hcheck⟩ := h.tabled.checkOrder_total exchange hsymbol scaled
      exact ⟨check, scaled, by rw [hcheck]; rfl, fun hok => hok ▸ hcheck⟩
    · next gate scaled hgate _ => exact ⟨gate, scaled, rfl, fun hok => absurd hok (by
        rintro rfl
        exact hgate rfl)⟩
  unfold GlobalRiskControls.commitFuturesOrder
  rw [hcheck]
  by_cases hok : check = .ok
  · obtain ⟨check', r', hcheck', hcommit, hkeeps⟩ := h.commitOrder hcard exchange hsymbol scaled
    obtain rfl : check = check' := by
      rw [hscaled hok] at hcheck'
      exact hok.trans (Except.ok.inj hcheck')
    refine ⟨check, scaled, r', rfl, ?_, hkeeps, fun _ => hcommit⟩
    simp only [bind, Except.bind, hok, ne_eq, not_true_eq_false, if_false]
    rw [hok] at hcommit
    rw [hcommit]
    rfl
  · refine ⟨check, scaled, r.breach, rfl, ?_, ⟨h.breach, fun _ => rfl⟩, fun hc => absurd hc hok⟩
    simp only [bind, Except.bind, ne_eq, hok, not_false_eq_true, if_true]
    rfl

/-! ## Runs -/

/-- A call of the risk controls. -/
inductive Call
  | commitOrder (exchange : Exchange) (symbol : Option CString) (signedNotional : ℚ)
  | commitFuturesOrder (exchange : Exchange) (symbol : Option CString) (signedNotional : ℚ)
      (ctx : FuturesRiskContext)

namespace Call

def exchange : Call → Exchange
  | commitOrder exchange _ _ => exchange
  | commitFuturesOrder exchange _ _ _ => exchange

def symbol : Call → Option CString
  | commitOrder _ symbol _ => symbol
  | commitFuturesOrder _ symbol _ _ => symbol

end Call

/-- What a call returns and leaves. -/
def call (r : GlobalRiskControls) :
    Call → Except RiskFault (GlobalRiskCheckResult × GlobalRiskControls)
  | .commitOrder exchange symbol x => r.commitOrder exchange symbol x
  | .commitFuturesOrder exchange symbol x ctx => do
    let (result, _, r) ← r.commitFuturesOrder exchange symbol x ctx
    return (result, r)

/-- What is left after one call after another. -/
def run : GlobalRiskControls → List Call → Except RiskFault GlobalRiskControls
  | r, [] => .ok r
  | r, c :: cs => do
    let (_, r) ← r.call c
    run r cs

/-- Calls with known exchanges, for at most 32 symbols shorter than sixteen characters. -/
structure Legal (calls : List Call) : Prop where
  exchange : ∀ c ∈ calls, c.exchange ≠ .unknown
  length_lt : ∀ c ∈ calls, ∀ s, c.symbol = some s → s.length < 16
  few : (calls.filterMap Call.symbol).toFinset.card ≤ maxSymbols

/-- The five totals. -/
def totals (r : GlobalRiskControls) : ℚ × ℚ × (Fin 4 → ℚ) × List (ℚ × ℚ) :=
  (r.grossNotional, r.netNotional, r.venueGrossNotional,
    r.symbolStates.map fun s => (s.grossNotional, s.netNotional))

theorem Sound.call (h : Sound symbols r) (hcard : symbols.card ≤ maxSymbols) {c : Call}
    (hsymbol : ∀ s, c.symbol = some s → s.length < 16 ∧ s ∈ symbols) :
    ∃ result r', r.call c = .ok (result, r') ∧ Keeps symbols r result r' := by
  cases c with
  | commitOrder exchange symbol x =>
    obtain ⟨check, r', -, hcommit, hkeeps⟩ := h.commitOrder hcard exchange hsymbol x
    exact ⟨check, r', hcommit, hkeeps⟩
  | commitFuturesOrder exchange symbol x ctx =>
    have hsymbol' : ∀ s, symbol = some s → s.length < 16 ∧ s ∈ symbols := hsymbol
    obtain ⟨result, scaled, r', -, hcommit, hkeeps, -⟩ :=
      h.commitFuturesOrder hcard exchange hsymbol' x ctx
    refine ⟨result, r', ?_, hkeeps⟩
    simp only [GlobalRiskControls.call, hcommit]
    rfl

theorem Sound.run (hcard : symbols.card ≤ maxSymbols) {calls : List Call}
    (hsymbol : ∀ c ∈ calls, ∀ s, c.symbol = some s → s.length < 16 ∧ s ∈ symbols) :
    ∀ {r : GlobalRiskControls}, Sound symbols r → ∃ r', r.run calls = .ok r' ∧
      Sound symbols r' := by
  induction calls with
  | nil => exact fun h => ⟨_, rfl, h⟩
  | cons c cs ih =>
    intro r h
    obtain ⟨result, r', hcall, hkeeps⟩ := h.call hcard (hsymbol c (by simp))
    obtain ⟨r'', hrun, h''⟩ := ih (fun c hc => hsymbol c (by simp [hc])) hkeeps.1
    refine ⟨r'', ?_, h''⟩
    simp only [GlobalRiskControls.run, hcall, bind, Except.bind]
    exact hrun

/-- **The risk controls stay balanced and within their caps.** A legal sequence of calls never
leaves the table, the totals that it leaves agree with each other and with the caps, and a further
call that does not return OK leaves all totals unchanged. -/
theorem run_balanced (cfg : GlobalRiskConfig) (futuresCfg : FuturesRiskGateConfig)
    (killSwitch : KillSwitch) {calls : List Call} (hlegal : Legal calls) :
    ∃ r, (new cfg futuresCfg killSwitch).run calls = .ok r ∧ r.Balanced ∧ r.WithinCaps ∧
      ∀ c, Legal (calls ++ [c]) → ∃ result r', r.call c = .ok (result, r') ∧
        (result ≠ .ok → r'.totals = r.totals) := by
  have hsymbols : ∀ calls : List Call, Legal calls → ∀ c ∈ calls, ∀ s, c.symbol = some s →
      s.length < 16 ∧ s ∈ (calls.filterMap Call.symbol).toFinset := by
    intro calls hl c hc s hs
    exact ⟨hl.length_lt c hc s hs, List.mem_toFinset.mpr (List.mem_filterMap.mpr ⟨c, hc, hs⟩)⟩
  obtain ⟨r, hrun, hsound⟩ := (sound_new cfg futuresCfg killSwitch).run hlegal.few
    (hsymbols calls hlegal)
  obtain ⟨ps, hcarries⟩ := hsound.carries
  refine ⟨r, hrun, hcarries.balanced, hsound.withinCaps, fun c hc => ?_⟩
  -- the same run, with room in the table for the symbol of the last call
  obtain ⟨r', hrun', hsound'⟩ := (sound_new cfg futuresCfg killSwitch).run hc.few
    fun c' (hc' : c' ∈ calls) => hsymbols _ hc c' (by simp [hc'])
  obtain rfl : r = r' := Except.ok.inj (hrun.symm.trans hrun')
  obtain ⟨result, r', hcall, -, hkept⟩ := hsound'.call hc.few (hsymbols _ hc c (by simp))
  refine ⟨result, r', hcall, fun hne => ?_⟩
  obtain ⟨k, hk⟩ := r.breach_eq
  rw [hkept hne, hk]
  rfl

/-- Caps on everything but the concentration. -/
def tightCaps : GlobalRiskConfig where
  maxGrossNotional := 200
  maxNetNotional := 100
  maxSymbolConcentration := 0
  maxVenueNotional := 120
  maxCrossVenueNetNotional := 0
  killOnBreach := true

/-- Scales futures orders down to a half as the funding cost goes from one to three. -/
def halvingGate : FuturesRiskGateConfig :=
  { FuturesRiskGateConfig.off with
    enabled := true
    fundingCostScaleStartBps := 1
    maxProjectedFundingCostBps := 3
    minFundingScale := 1 / 2 }

/-- A purchase, and a futures sale at a funding cost of two. -/
def hedgedCalls : List Call :=
  [.commitOrder .binance (some "BTCUSDT".toList) 100,
    .commitFuturesOrder .okx (some "BTCUSDT".toList) (-80)
      { collateralNotional := 1000, markPrice := 100, indexPrice := 100, fundingRateBps := 2 }]

theorem legal_hedgedCalls : Legal hedgedCalls where
  exchange := by simp [hedgedCalls, Call.exchange]
  length_lt := by simp [hedgedCalls, Call.symbol]
  few := by decide

/-- The sale is scaled to three quarters, and both totals add up. -/
theorem run_balanced_hedgedCalls :
    ∃ r, (new tightCaps halvingGate {}).run hedgedCalls = .ok r ∧ r.grossNotional = 160 ∧
      ∑ v, r.venueGrossNotional v = 160 ∧ (r.symbolStates.map (·.netNotional)).sum = 40 := by
  obtain ⟨r, hrun, hbalanced, -⟩ := run_balanced tightCaps halvingGate {} legal_hedgedCalls
  have hgross : ((new tightCaps halvingGate {}).run hedgedCalls).map
      (fun r => (r.grossNotional, r.netNotional)) = .ok (160, 40) := by
    decide +kernel
  rw [hrun] at hgross
  have hboth := Except.ok.inj hgross
  have h160 : r.grossNotional = 160 := congrArg Prod.fst hboth
  have h40 : r.netNotional = 40 := congrArg Prod.snd hboth
  exact ⟨r, hrun, h160, hbalanced.venues.symm.trans h160, hbalanced.netSymbols.symm.trans h40⟩

end GlobalRiskControls

end TradingInfrastructure
