import TradingInfrastructure.Risk.Netting
import TradingInfrastructure.Foundations.Runs

/-!
# The symbol table

The symbols are looked up in the first `next_slot_` entries of a table of 32, under the first
fifteen characters that an entry keeps. A call of the risk controls gets as far as the table when
nothing before turns the order down (`LooksUp`). The lookups stay in the table and agree with each
other exactly as long as the symbols that have an entry are shorter than sixteen characters, and no
new symbol is looked up once more than 32 entries have been asked for (`lookupsSafe_run_iff`).
-/

namespace TradingInfrastructure

open GlobalRiskControls

namespace GlobalRiskControls

variable {r : GlobalRiskControls} {k : CString} {i : ℕ}

/-- `check_order` gets as far as the symbol table. -/
def LooksUp (r : GlobalRiskControls) (exchange : Exchange) (symbol : Option CString)
    (signedNotional : ℚ) : Prop :=
  ¬ (symbol.getD [] = [] ∨ signedNotional = 0) ∧
    ¬ (r.cfg.maxGrossNotional > 0 ∧ r.grossNotional + |signedNotional| > r.cfg.maxGrossNotional) ∧
    ¬ (r.cfg.maxNetNotional > 0 ∧ |r.netNotional + signedNotional| > r.cfg.maxNetNotional) ∧
    ∃ v ∈ venueIndex exchange, ¬ (r.cfg.maxVenueNotional > 0 ∧
      r.venueGrossNotional v + |signedNotional| > r.cfg.maxVenueNotional)

instance (r : GlobalRiskControls) (exchange : Exchange) (symbol : Option CString) (x : ℚ) :
    Decidable (r.LooksUp exchange symbol x) :=
  inferInstanceAs (Decidable (_ ∧ _ ∧ _ ∧ _))

/-- A symbol of sixteen or more characters is never found. -/
theorem isFor_of_length_ge (hk : 16 ≤ k.length) (s : SymbolState) : s.isFor k = false := by
  rw [SymbolState.isFor, Bool.and_eq_false_iff]
  refine Or.inr ?_
  rw [← Bool.not_eq_true, strncmpEq_iff]
  intro htake
  have hlength := congrArg List.length htake
  have hlt := s.symbol.length_lt
  simp only [List.length_take] at hlength
  omega

theorem findSymbol_ne_some (hk : 16 ≤ k.length) : r.findSymbol k ≠ .ok (some i) := by
  intro h
  obtain ⟨s, -, hfor, -⟩ := findSymbol_eq_some h
  rw [isFor_of_length_ge hk] at hfor
  cases hfor

/-- What is found first is found first again in a table that keeps the symbols of the entries and
may have given out more of them. -/
theorem findSymbol_mono {r' : GlobalRiskControls} (h : r.findSymbol k = .ok (some i))
    (hslot : r.nextSlot ≤ r'.nextSlot)
    (hsame : ∀ (j : ℕ), j < r.nextSlot →
      (r'.symbolStates[j]?).map (SymbolState.isFor k) =
        (r.symbolStates[j]?).map (SymbolState.isFor k)) :
    r'.findSymbol k = .ok (some i) := by
  have hfound : (r.symbolStates.take r.nextSlot).findIdx? (SymbolState.isFor k) = some i := by
    unfold findSymbol at h
    split at h
    · next j hfind => rw [hfind, Option.some.inj (Except.ok.inj h)]
    · split at h
      · cases Except.ok.inj h
      · cases h
  have hget : ∀ (l : List SymbolState) (j : ℕ),
      (l.map (SymbolState.isFor k))[j]? = (l[j]?).map (SymbolState.isFor k) := fun l j => by simp
  have hprefix : (r'.symbolStates.take r.nextSlot).map (SymbolState.isFor k) =
      (r.symbolStates.take r.nextSlot).map (SymbolState.isFor k) := by
    refine List.ext_getElem? fun j => ?_
    rw [hget, hget, List.getElem?_take, List.getElem?_take]
    split
    · next hj => exact hsame j hj
    · rfl
  have hidx : ∀ l : List SymbolState,
      l.findIdx? (SymbolState.isFor k) = (l.map (SymbolState.isFor k)).findIdx? id := by
    intro l
    rw [List.findIdx?_map]
    rfl
  have hfirst : (r'.symbolStates.take r.nextSlot).findIdx? (SymbolState.isFor k) = some i := by
    rw [hidx, hprefix, ← hidx, hfound]
  have hsplit : r'.symbolStates.take r'.nextSlot =
      r'.symbolStates.take r.nextSlot ++
        (r'.symbolStates.drop r.nextSlot).take (r'.nextSlot - r.nextSlot) := by
    rw [← List.take_add, Nat.add_sub_cancel' hslot]
  unfold findSymbol
  rw [hsplit, List.findIdx?_append, hfirst]
  rfl

theorem findSymbol_eq_none (h : r.findSymbol k = .ok none) :
    (r.symbolStates.take r.nextSlot).findIdx? (SymbolState.isFor k) = none := by
  unfold findSymbol at h
  split at h
  · cases Except.ok.inj h
  · assumption

/-- A symbol that takes the next entry is found there. -/
theorem findSymbol_take (h : r.findSymbol k = .ok none) (hroom : r.nextSlot < r.symbolStates.length)
    (hk : k.length < 16) :
    findSymbol { r with
      nextSlot := r.nextSlot + 1
      symbolStates := r.symbolStates.modify r.nextSlot fun s =>
        { s with symbol := copySymbol k, active := true } } k = .ok (some r.nextSlot) := by
  obtain ⟨a, ha⟩ : ∃ a, r.symbolStates[r.nextSlot]? = some a :=
    ⟨_, List.getElem?_eq_getElem hroom⟩
  have hfor : SymbolState.isFor k { a with symbol := copySymbol k, active := true } = true := by
    rw [SymbolState.isFor_iff hk, SymbolState.key_eq_some]
    exact ⟨rfl, strncpyBuf_of_length_lt hk⟩
  have htake : (r.symbolStates.modify r.nextSlot fun s =>
      { s with symbol := copySymbol k, active := true }).take (r.nextSlot + 1) =
      r.symbolStates.take r.nextSlot ++ [{ a with symbol := copySymbol k, active := true }] := by
    rw [List.take_add_one, List.getElem?_modify_eq, ha]
    congr 1
    refine List.ext_getElem? fun j => ?_
    rw [List.getElem?_take, List.getElem?_take]
    split
    · next hj => rw [List.getElem?_modify_ne _ _ (Nat.ne_of_gt hj)]
    · rfl
  unfold findSymbol
  simp only [htake, List.findIdx?_append, findSymbol_eq_none h, List.findIdx?_singleton,
    hfor, if_true,
    Option.map_some, List.length_take, min_eq_left hroom.le]
  simp

end GlobalRiskControls

/-! ## Lookups -/

/-- The calls that look a symbol up. -/
inductive TableCall
  | checkOrder (exchange : Exchange) (symbol : Option CString) (signedNotional : ℚ)
  | commitOrder (exchange : Exchange) (symbol : Option CString) (signedNotional : ℚ)

namespace TableCall

def exchange : TableCall → Exchange
  | checkOrder exchange _ _ => exchange
  | commitOrder exchange _ _ => exchange

/-- The symbol, or nothing for a null pointer. -/
def symbol : TableCall → Option CString
  | checkOrder _ symbol _ => symbol
  | commitOrder _ symbol _ => symbol

def signedNotional : TableCall → ℚ
  | checkOrder _ _ x => x
  | commitOrder _ _ x => x

/-- The name that is looked up. -/
def name (c : TableCall) : CString := c.symbol.getD []

end TableCall

/-- The risk controls, and the entry that each symbol was first resolved to. -/
structure Lookups where
  controls : GlobalRiskControls
  resolved : CString → Option ℕ

namespace Lookups

def start (cfg : GlobalRiskConfig) (futuresCfg : FuturesRiskGateConfig) (killSwitch : KillSwitch) :
    Lookups :=
  ⟨.new cfg futuresCfg killSwitch, fun _ => none⟩

/-- The call gets as far as the symbol table. -/
def Reaches (t : Lookups) (c : TableCall) : Prop :=
  t.controls.LooksUp c.exchange c.symbol c.signedNotional

instance (t : Lookups) (c : TableCall) : Decidable (t.Reaches c) :=
  inferInstanceAs (Decidable (LooksUp ..))

/-- What the search for the symbol of the call finds. -/
def lookup (t : Lookups) (c : TableCall) : Option ℕ :=
  match t.controls.findSymbol c.name with
  | .ok found => found
  | .error _ => none

/-- The entry that the call resolves its symbol to. -/
def entry (t : Lookups) (c : TableCall) : Option ℕ :=
  if t.Reaches c then
    match c with
    | .checkOrder .. => t.lookup c
    | .commitOrder exchange symbol x =>
      match t.controls.commitOrder exchange symbol x, t.controls.getOrCreateSymbol c.name with
      | .ok (.ok, _), .ok (i, _) => i
      | _, _ => t.lookup c
  else none

/-- A call. -/
def step (t : Lookups) (c : TableCall) : Lookups where
  controls :=
    match c with
    | .checkOrder .. => t.controls
    | .commitOrder exchange symbol x =>
      match t.controls.commitOrder exchange symbol x with
      | .ok (_, r) => r
      | .error _ => t.controls
  resolved :=
    if t.resolved c.name = none then Function.update t.resolved c.name (t.entry c) else t.resolved

/-- A lookup of the call stays in the table, and finds the entry that the symbol had before. -/
def Safe (t : Lookups) (c : TableCall) : Prop :=
  t.Reaches c → ∃ found, t.controls.findSymbol c.name = .ok found ∧
    ∀ i, t.resolved c.name = some i → found = some i

/-- A lookup of the call is for a symbol shorter than sixteen characters when the symbol has an
entry, and otherwise finds no more entries asked for than there are, or one with this name. -/
def Fits (t : Lookups) (c : TableCall) : Prop :=
  t.Reaches c →
    if (t.resolved c.name).isSome then c.name.length < 16
    else t.controls.nextSlot ≤ maxSymbols ∨ ∃ s ∈ t.controls.symbolStates, s.isFor c.name = true

/-- **The invariant of the table**: the entries given out are the ones in use, and a symbol that
fits its entry is found there. -/
structure Kept (t : Lookups) : Prop where
  length_eq : t.controls.symbolStates.length = maxSymbols
  active : ∀ (i : ℕ) s, t.controls.symbolStates[i]? = some s → s.active = true →
    i < t.controls.nextSlot
  found : ∀ k i, t.resolved k = some i → k.length < 16 → t.controls.findSymbol k = .ok (some i)

variable {t : Lookups} {c : TableCall}

theorem kept_start (cfg : GlobalRiskConfig) (futuresCfg : FuturesRiskGateConfig)
    (killSwitch : KillSwitch) : (start cfg futuresCfg killSwitch).Kept where
  length_eq := List.length_replicate
  active i s hs hactive := by
    rw [eq_of_mem_new cfg futuresCfg killSwitch (List.mem_of_getElem? hs)] at hactive
    cases hactive
  found k i hk := by cases hk

/-- A lookup faults exactly when a symbol without an entry is looked up too late. -/
theorem Kept.findSymbol_ok_iff (h : t.Kept) (k : CString) :
    (∃ found, t.controls.findSymbol k = .ok found) ↔
      t.controls.nextSlot ≤ maxSymbols ∨ ∃ s ∈ t.controls.symbolStates, s.isFor k = true := by
  constructor
  · rintro ⟨found, hfind⟩
    cases found with
    | some i =>
      obtain ⟨s, hs, hfor, -⟩ := findSymbol_eq_some hfind
      exact Or.inr ⟨s, List.mem_of_getElem? hs, hfor⟩
    | none =>
      unfold findSymbol at hfind
      split at hfind
      · cases Except.ok.inj hfind
      · split at hfind
        · next hle => exact Or.inl hle
        · cases hfind
  · intro hor
    unfold findSymbol
    split
    · exact ⟨_, rfl⟩
    · next hnone =>
      rcases hor with hle | ⟨s, hs, hfor⟩
      · exact ⟨none, by simp [hle]⟩
      · -- an entry in use is among those that are searched
        obtain ⟨j, hj⟩ := List.mem_iff_getElem?.mp hs
        have hactive : s.active = true := (Bool.and_eq_true _ _ ▸ hfor).1
        have hseen : s ∈ t.controls.symbolStates.take t.controls.nextSlot := by
          refine List.mem_of_getElem? (i := j) ?_
          rw [List.getElem?_take, if_pos (h.active j s hj hactive), hj]
        rw [SlotPool.not_of_findIdx?_eq_none hnone hseen] at hfor
        cases hfor

/-- **One call is safe exactly when it fits.** -/
theorem Kept.safe_iff_fits (h : t.Kept) : t.Safe c ↔ t.Fits c := by
  refine imp_congr_right fun _ => ?_
  cases hres : t.resolved c.name with
  | none =>
    simp only [Option.isSome_none, Bool.false_eq_true, if_false, reduceCtorEq, false_implies,
      implies_true, and_true]
    exact h.findSymbol_ok_iff c.name
  | some i =>
    simp only [Option.isSome_some, if_true]
    constructor
    · rintro ⟨found, hfind, hfound⟩
      rw [hfound i rfl] at hfind
      by_contra hlong
      exact findSymbol_ne_some (not_lt.mp hlong) hfind
    · intro hlt
      refine ⟨some i, h.found _ i hres hlt, fun j hj => ?_⟩
      rw [hj]

/-- A change of the table that keeps what the entries given out are for. -/
structure Grows (r r' : GlobalRiskControls) : Prop where
  length_eq : r'.symbolStates.length = r.symbolStates.length
  nextSlot_le : r.nextSlot ≤ r'.nextSlot
  same : ∀ k j, j < r.nextSlot → (r'.symbolStates[j]?).map (SymbolState.isFor k) =
    (r.symbolStates[j]?).map (SymbolState.isFor k)
  active : ∀ (i : ℕ) s, r'.symbolStates[i]? = some s → s.active = true →
    i < r'.nextSlot ∨ ∃ s, r.symbolStates[i]? = some s ∧ s.active = true

/-- Totals are no matter of the table. -/
theorem grows_addNotional (r : GlobalRiskControls) (v : Fin 4) (i : ℕ) (x : ℚ) :
    Grows r (r.addNotional v i x) := by
  refine ⟨by simp [addNotional], le_rfl, fun k j _ => ?_, fun j s hs hactive => Or.inr ?_⟩
  · simp only [addNotional, List.getElem?_modify]
    cases r.symbolStates[j]? with
    | none => rfl
    | some a => split <;> rfl
  · rcases SlotPool.getElem?_modify_cases hs with ⟨-, hs⟩ | ⟨rfl, a, ha, rfl⟩
    · exact ⟨s, hs, hactive⟩
    · exact ⟨a, ha, hactive⟩

theorem grows_take (r : GlobalRiskControls) (symbol : Symbol) :
    Grows r { r with
      nextSlot := r.nextSlot + 1
      symbolStates := r.symbolStates.modify r.nextSlot fun s =>
        { s with symbol := symbol, active := true } } := by
  refine ⟨by simp, Nat.le_succ _, fun k j hj => ?_, fun j s hs hactive => ?_⟩
  · rw [List.getElem?_modify_ne _ _ (Nat.ne_of_gt hj)]
  · rcases SlotPool.getElem?_modify_cases hs with ⟨-, hs⟩ | ⟨rfl, -⟩
    · exact Or.inr ⟨s, hs, hactive⟩
    · exact Or.inl (Nat.lt_succ_self _)

theorem Grows.trans {r r' r'' : GlobalRiskControls} (h : Grows r r') (h' : Grows r' r'') :
    Grows r r'' := by
  refine ⟨h'.length_eq.trans h.length_eq, h.nextSlot_le.trans h'.nextSlot_le, fun k j hj => ?_,
    fun i s hs hactive => ?_⟩
  · rw [h'.same k j (hj.trans_le h.nextSlot_le), h.same k j hj]
  · rcases h'.active i s hs hactive with hlt | ⟨s', hs', hactive'⟩
    · exact Or.inl hlt
    · rcases h.active i s' hs' hactive' with hlt | hold
      · exact Or.inl (hlt.trans_le h'.nextSlot_le)
      · exact Or.inr hold

/-- **A call lets the table grow.** -/
theorem grows_step (t : Lookups) (c : TableCall) : Grows t.controls (t.step c).controls := by
  have hrefl : Grows t.controls t.controls :=
    ⟨rfl, le_rfl, fun _ _ _ => rfl, fun _ s hs hactive => Or.inr ⟨s, hs, hactive⟩⟩
  cases c with
  | checkOrder exchange symbol x => exact hrefl
  | commitOrder exchange symbol x =>
    simp only [step]
    cases hcommit : t.controls.commitOrder exchange symbol x with
    | error f => exact hrefl
    | ok answer =>
      obtain ⟨result, r⟩ := answer
      rcases commitOrder_cases hcommit with
        ⟨-, rfl | rfl⟩ | ⟨-, -, v, i, -, ⟨s, -, -, -, rfl⟩ | ⟨-, rfl, -, rfl⟩⟩
      · obtain ⟨k, hk⟩ := t.controls.breach_eq
        simp only [hk]
        exact ⟨rfl, le_rfl, fun _ _ _ => rfl, fun _ s hs hactive => Or.inr ⟨s, hs, hactive⟩⟩
      · exact ⟨rfl, Nat.le_succ _, fun _ _ _ => rfl,
          fun _ s hs hactive => Or.inr ⟨s, hs, hactive⟩⟩
      · exact grows_addNotional ..
      · exact (grows_take _ _).trans (grows_addNotional ..)

/-- A symbol that fits its entry is found there after the call that has resolved it. -/
theorem Kept.found_entry (h : t.Kept) {i : ℕ} (hentry : t.entry c = some i)
    (hlt : c.name.length < 16) : (t.step c).controls.findSymbol c.name = .ok (some i) := by
  have hgrows := t.grows_step c
  -- an entry that was there before the call
  have hbefore : t.lookup c = some i → (t.step c).controls.findSymbol c.name = .ok (some i) := by
    intro hfound
    unfold lookup at hfound
    split at hfound
    · next found hfind =>
      rw [hfound] at hfind
      exact findSymbol_mono hfind hgrows.nextSlot_le (hgrows.same c.name)
    · cases hfound
  unfold entry at hentry
  split at hentry
  · cases c with
    | checkOrder exchange symbol x => exact hbefore hentry
    | commitOrder exchange symbol x =>
      simp only at hentry
      split at hentry
      · next r j r' hcommit hget =>
        subst hentry
        rcases commitOrder_cases hcommit with
          ⟨hne, -⟩ | ⟨-, -, v, i', -, ⟨s, hfind, -, -, -⟩ | ⟨hfind, rfl, hroom, rfl⟩⟩
        · exact absurd rfl hne
        · refine hbefore ?_
          have hfind' : t.controls.findSymbol (TableCall.commitOrder exchange symbol x).name =
            .ok (some i') := hfind
          simp only [getOrCreateSymbol, hfind', bind, Except.bind, pure, Except.pure,
            Except.ok.injEq, Prod.mk.injEq, Option.some.injEq] at hget
          simp only [lookup, hfind', hget.1]
        · -- the entry is a new one, and the last
          have hfind' : t.controls.findSymbol (TableCall.commitOrder exchange symbol x).name =
            .ok none := hfind
          simp only [getOrCreateSymbol, hfind', bind, Except.bind, pure, Except.pure, ge_iff_le,
            not_le.mpr hroom, if_false, Except.ok.injEq, Prod.mk.injEq, Option.some.injEq] at hget
          rw [← hget.1]
          have hstep : (t.step (.commitOrder exchange symbol x)).controls =
              r'.addNotional v t.controls.nextSlot x := by
            rw [← hget.2]
            simp only [step, hcommit]
            rfl
          rw [hstep]
          have hnew := findSymbol_take hfind' (h.length_eq ▸ hroom) hlt
          rw [hget.2] at hnew
          exact findSymbol_mono hnew le_rfl ((grows_addNotional ..).same _)
      · exact hbefore hentry
  · cases hentry

/-- **A call keeps the invariant.** -/
theorem Kept.step (h : t.Kept) : (t.step c).Kept := by
  have hgrows := t.grows_step c
  refine ⟨hgrows.length_eq.trans h.length_eq, fun i s hs hactive => ?_, fun k i hk hlt => ?_⟩
  · rcases hgrows.active i s hs hactive with hi | ⟨s', hs', hactive'⟩
    · exact hi
    · exact (h.active i s' hs' hactive').trans_le hgrows.nextSlot_le
  · have hold : t.resolved k = some i → (t.step c).controls.findSymbol k = .ok (some i) :=
      fun hk => findSymbol_mono (h.found k i hk hlt) hgrows.nextSlot_le (hgrows.same k)
    simp only [Lookups.step] at hk
    split at hk
    · by_cases hname : k = c.name
      · subst hname
        rw [Function.update_self] at hk
        exact h.found_entry hk hlt
      · rw [Function.update_of_ne hname] at hk
        exact hold hk
    · exact hold hk

theorem Kept.safe_run_iff (h : t.Kept) (calls : List TableCall) :
    AllSteps Lookups.step Safe t calls ↔ AllSteps Lookups.step Fits t calls :=
  allSteps_congr (fun _ _ h => Kept.step h) (fun _ _ h => Kept.safe_iff_fits h) h

/-- **The lookups of a run are safe exactly when its calls fit.** -/
theorem lookupsSafe_run_iff (cfg : GlobalRiskConfig) (futuresCfg : FuturesRiskGateConfig)
    (killSwitch : KillSwitch) (calls : List TableCall) :
    AllSteps step Safe (start cfg futuresCfg killSwitch) calls ↔
      AllSteps step Fits (start cfg futuresCfg killSwitch) calls :=
  (kept_start cfg futuresCfg killSwitch).safe_run_iff calls

instance (t : Lookups) (c : TableCall) : Decidable (t.Fits c) :=
  inferInstanceAs (Decidable (t.Reaches c →
    if (t.resolved c.name).isSome then c.name.length < 16
    else t.controls.nextSlot ≤ maxSymbols ∨ ∃ s ∈ t.controls.symbolStates, s.isFor c.name = true))

/-- No caps. -/
def uncapped : GlobalRiskConfig where
  maxGrossNotional := 0
  maxNetNotional := 0
  maxSymbolConcentration := 0
  maxVenueNotional := 0
  maxCrossVenueNetNotional := 0
  killOnBreach := false

/-- One order for a symbol whose name is one of 33 characters. -/
def oneOrderEach : List TableCall :=
  (List.range 33).map fun i => .commitOrder .binance (some [Char.ofNat (65 + i)]) 1

/-- **A long name** is not found again, and the search for a name after 33 others leaves the
table. -/
theorem lookups_unsafe :
    ¬ AllSteps step Safe (start uncapped {} {})
        [.commitOrder .binance (some "ABCDEFGHIJKLMNOP".toList) 1,
          .checkOrder .binance (some "ABCDEFGHIJKLMNOP".toList) 1] ∧
      ¬ AllSteps step Safe (start uncapped {} {})
        (oneOrderEach ++ [.checkOrder .okx (some "BTCUSDT".toList) 1]) := by
  rw [(kept_start ..).safe_run_iff, (kept_start ..).safe_run_iff]
  decide +kernel

end Lookups

end TradingInfrastructure
