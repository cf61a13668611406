import TradingInfrastructure.Portfolio.PositionLedger

/-!
# Reconciliation of the position ledger

`reconcile_positions` writes the entries of a snapshot into the records of their symbols, one after
the other, and then empties the records of the exchange that no entry has reached. An entry is lost
when a later one has the same symbol, as the two legs of a hedged position have, and when its symbol
has no record and all four are taken.

So the total of the exchange afterwards is that of the entries that are not lost
(`exchangeTotal_reconcilePositions`), and the records of other exchanges are not touched
(`recordsOf_reconcilePositions`). `snapshot` adds the positions to a field that it never sets to
zero (`globalPosition_snapshot`).
-/

namespace TradingInfrastructure

namespace PositionLedger

/-! ## What is compared -/

/-- The position of the ledger over the records of an exchange. -/
def exchangeTotal (l : PositionLedger) (exchange : Exchange) : ℚ :=
  (l.venues.map fun v => if v.active && v.exchange == exchange then v.position else 0).sum

/-- The position of the ledger over all records. -/
def total (l : PositionLedger) : ℚ := (l.venues.map fun v => if v.active then v.position else 0).sum

/-- The records of an exchange. -/
def recordsOf (l : PositionLedger) (exchange : Exchange) : List VenuePosition :=
  l.venues.filter fun v => v.active && v.exchange == exchange

/-- The quantity over all entries. -/
def totalQuantity (entries : List ReconciledPosition) : ℚ := (entries.map (·.quantity)).sum

/-! ## Which entries are lost -/

/-- The symbols of the exchange that have a record. -/
def known (l : PositionLedger) (exchange : Exchange) (symbol : CString) : Bool :=
  (l.findVenue exchange symbol).isSome

/-- The free records. -/
def freeSlots (l : PositionLedger) : ℕ := l.venues.countP fun v => !v.active

/-- The symbols that have a record after the entries, from those that have one before and the number
of free records: first come, first served. -/
def served (known : CString → Bool) (free : ℕ) : List ReconciledPosition → CString → Bool
  | [] => known
  | entry :: rest =>
    if known entry.symbol = true ∨ free = 0 then served known free rest
    else served (fun symbol => known symbol || symbol == entry.symbol) (free - 1) rest

/-- The entries that keep their record: the last one of each symbol that has one. -/
def surviving (served : CString → Bool) : List ReconciledPosition → List ReconciledPosition
  | [] => []
  | entry :: rest =>
    if served entry.symbol = true ∧ ∀ later ∈ rest, later.symbol ≠ entry.symbol then
      entry :: surviving served rest
    else surviving served rest

/-- The other entries. -/
def lost (served : CString → Bool) : List ReconciledPosition → List ReconciledPosition
  | [] => []
  | entry :: rest =>
    if served entry.symbol = true ∧ ∀ later ∈ rest, later.symbol ≠ entry.symbol then
      lost served rest
    else entry :: lost served rest

/-- The entries of a snapshot that reconciliation loses. -/
def lostEntries (l : PositionLedger) (exchange : Exchange) (snapshot : ReconciliationSnapshot) :
    List ReconciledPosition :=
  lost (served (l.known exchange) l.freeSlots snapshot.positions.items) snapshot.positions.items

variable {l l' : PositionLedger} {exchange other : Exchange} {symbol : CString}
variable {entry : ReconciledPosition} {entries rest : List ReconciledPosition}
variable {served' : CString → Bool} {nowSystem nowSteady : ℤ}

theorem surviving_add_lost : totalQuantity (surviving served' entries) +
    totalQuantity (lost served' entries) = totalQuantity entries := by
  induction entries with
  | nil => exact add_zero _
  | cons entry rest ih =>
    rw [surviving, lost]
    split_ifs
    · simp only [totalQuantity, List.map_cons, List.sum_cons] at ih ⊢
      linarith
    · simp only [totalQuantity, List.map_cons, List.sum_cons] at ih ⊢
      linarith

/-- A symbol has at most one surviving entry, and has one when it is served. -/
theorem sum_surviving_symbol (c : ℚ) : ((surviving served' entries).map fun entry =>
    if entry.symbol = symbol then c else 0).sum =
      if served' symbol = true ∧ ∃ entry ∈ entries, entry.symbol = symbol then c else 0 := by
  induction entries with
  | nil => simp [surviving]
  | cons entry rest ih =>
    rw [surviving]
    by_cases hsymbol : entry.symbol = symbol
    · subst hsymbol
      by_cases hlater : ∀ later ∈ rest, later.symbol ≠ entry.symbol
      · have hnone : ¬ ∃ later ∈ rest, later.symbol = entry.symbol := by
          rintro ⟨later, hmem, heq⟩
          exact hlater later hmem heq
        by_cases hserved : served' entry.symbol = true
        · rw [if_pos ⟨hserved, hlater⟩, List.map_cons, List.sum_cons, ih, if_pos rfl,
            if_neg fun h => hnone h.2, if_pos ⟨hserved, entry, List.mem_cons_self, rfl⟩, add_zero]
        · rw [if_neg fun h => hserved h.1, ih, if_neg fun h => hserved h.1,
            if_neg fun h => hserved h.1]
      · have hsome : ∃ later ∈ rest, later.symbol = entry.symbol := by
          push Not at hlater
          exact hlater
        rw [if_neg fun h => hlater h.2, ih]
        refine if_congr (and_congr_right fun _ => iff_of_true hsome ?_) rfl rfl
        exact ⟨entry, List.mem_cons_self, rfl⟩
    · have hhead : ((surviving served' (entry :: rest)).map fun e =>
          if e.symbol = symbol then c else 0).sum = ((surviving served' rest).map fun e =>
          if e.symbol = symbol then c else 0).sum := by
        rw [surviving]
        split_ifs
        · rw [List.map_cons, List.sum_cons, if_neg hsymbol, zero_add]
        · rfl
      rw [surviving] at hhead
      rw [hhead, ih]
      refine if_congr (and_congr_right fun _ => ?_) rfl rfl
      simp [hsymbol]

/-! ## One entry -/

/-- The position over the records of the exchange that an entry has reached. -/
def reachedTotal (l : PositionLedger) (exchange : Exchange) : ℚ :=
  (l.venues.map fun v =>
    if v.active && v.exchange == exchange && !v.markedForReconcile then v.position else 0).sum

/-- The position of a symbol, if an entry has reached its record. -/
def reached (l : PositionLedger) (exchange : Exchange) (symbol : CString) : ℚ :=
  if (l.venue exchange symbol).markedForReconcile then 0 else (l.venue exchange symbol).position

theorem isFor_iff_chars {v : VenuePosition} : VenuePosition.isFor exchange symbol v = true ↔
    v.active = true ∧ v.exchange = exchange ∧ v.symbol.chars = symbol := by
  rw [VenuePosition.isFor, Bool.and_eq_true, Bool.and_eq_true, beq_iff_eq, and_assoc]
  refine and_congr_right fun _ => and_congr_right fun _ => ?_
  rw [strncmpEq_iff, List.take_of_length_le v.symbol.length_lt.le]
  constructor
  · intro heq
    have hlength : (symbol.take 16).length < 16 := heq ▸ v.symbol.length_lt
    rw [List.length_take] at hlength
    rw [heq, List.take_of_length_le (by omega)]
  · rintro rfl
    exact (List.take_of_length_le v.symbol.length_lt.le).symm

/-- What a change of the record `i` leaves of the others: nothing that is asked of other symbols and
other exchanges moves when the record answers to the same symbol of this one before and after, or to
none before. -/
structure Touches (exchange : Exchange) (symbol : CString) (l : PositionLedger) (i : ℕ)
    (f : VenuePosition → VenuePosition) : Prop where
  before : ∀ v, l.venues[i]? = some v → v.active = true →
    v.exchange = exchange ∧ v.symbol.chars = symbol
  after : ∀ v, l.venues[i]? = some v →
    (f v).active = true ∧ (f v).exchange = exchange ∧ (f v).symbol.chars = symbol

variable {i : ℕ} {f : VenuePosition → VenuePosition}

/-- Neither version of the record answers to another symbol or another exchange. -/
theorem Touches.not_isFor (h : Touches exchange symbol l i f) {ex : Exchange} {s : CString}
    (hne : ¬ (ex = exchange ∧ s = symbol)) {v : VenuePosition} (hv : l.venues[i]? = some v) :
    VenuePosition.isFor ex s v = false ∧ VenuePosition.isFor ex s (f v) = false := by
  constructor <;> rw [Bool.eq_false_iff] <;> intro hfor <;>
    obtain ⟨hactive, rfl, rfl⟩ := isFor_iff_chars.mp hfor
  · exact hne (h.before v hv hactive)
  · exact hne (h.after v hv).2

theorem Touches.findVenue (h : Touches exchange symbol l i f) {ex : Exchange} {s : CString}
    (hne : ¬ (ex = exchange ∧ s = symbol)) :
    (l.modifyVenue i f).findVenue ex s = l.findVenue ex s :=
  SlotPool.findIdx?_modify_of_eq fun _ hv =>
    (h.not_isFor hne hv).2.trans (h.not_isFor hne hv).1.symm

theorem Touches.venue (h : Touches exchange symbol l i f) {ex : Exchange} {s : CString}
    (hne : ¬ (ex = exchange ∧ s = symbol)) : (l.modifyVenue i f).venue ex s = l.venue ex s := by
  rw [PositionLedger.venue, PositionLedger.venue, h.findVenue hne]
  cases hfind : l.findVenue ex s with
  | none => rfl
  | some j =>
    obtain ⟨v, hv, hfor, -⟩ := SlotPool.getElem?_of_findIdx? hfind
    have hij : i ≠ j := by
      rintro rfl
      rw [(h.not_isFor hne hv).1] at hfor
      cases hfor
    simp only [modifyVenue, Option.bind_some, List.getElem?_modify_ne f l.venues hij]

theorem Touches.recordsOf_eq (h : Touches exchange symbol l i f) (hother : other ≠ exchange) :
    (l.modifyVenue i f).recordsOf other = l.recordsOf other := by
  have hmodify : ∀ (venues : List VenuePosition) (i : ℕ), (∀ v, venues[i]? = some v →
      (v.active && v.exchange == other) = false ∧
        ((f v).active && (f v).exchange == other) = false) →
      (venues.modify i f).filter (fun v => v.active && v.exchange == other) =
        venues.filter fun v => v.active && v.exchange == other := by
    intro venues
    induction venues with
    | nil => exact fun _ _ => by rw [List.modify_nil]
    | cons head rest ih =>
      intro i hi
      cases i with
      | zero =>
        obtain ⟨hbefore, hafter⟩ := hi head rfl
        rw [List.modify_zero_cons, List.filter_cons_of_neg (by simp [hafter]),
          List.filter_cons_of_neg (by simp [hbefore])]
      | succ i => rw [List.modify_succ_cons, List.filter_cons, List.filter_cons, ih i hi]
  refine hmodify l.venues i fun _ hv => ⟨?_, ?_⟩ <;> rw [Bool.eq_false_iff] <;> intro hfor <;>
    rw [Bool.and_eq_true, beq_iff_eq] at hfor
  · exact hother (hfor.2.symm.trans (h.before _ hv hfor.1).1)
  · exact hother (hfor.2.symm.trans (h.after _ hv).2.1)

/-- The record that the entry works on, before and after. -/
structure Writes (exchange : Exchange) (entry : ReconciledPosition) (l l' : PositionLedger) (i : ℕ)
    (v : VenuePosition) (f : VenuePosition → VenuePosition) : Prop where
  result : l' = (l.modifyVenue i f).writeSymbol entry.symbol
  record : l.venues[i]? = some v
  touches : Touches exchange entry.symbol l i f
  position : (f v).position = entry.quantity
  unmarked : (f v).markedForReconcile = false
  /-- The record is the one that was there, or a free one when there was none. -/
  found : l.findVenue exchange entry.symbol = some i ∨
    (l.findVenue exchange entry.symbol = none ∧ v.active = false)

/-- The record with the position of an entry. -/
def takePosition (nowSystem nowSteady : ℤ) (entry : ReconciledPosition) (v : VenuePosition) :
    VenuePosition :=
  let ageNs := if nowSystem > entry.openedAtNs then nowSystem - entry.openedAtNs else 0
  { v with
    position := entry.quantity
    avgEntryPrice := entry.avgEntryPrice
    leverage := entry.leverage
    markedForReconcile := false
    hasInventoryAge := entry.quantity ≠ 0
    openedAt :=
      if entry.quantity = 0 then 0
      else if v.hasInventoryAge then v.openedAt
      else if entry.openedAtNs > 0 then nowSteady - ageNs
      else nowSteady }

/-- **What an entry does**: nothing, when its symbol has no record and none is free, or it writes
its quantity into one record. -/
theorem reconcilePosition_cases (l : PositionLedger) (hfits : entry.symbol.length < 16) :
    (l.known exchange entry.symbol = false ∧ l.freeSlots = 0 ∧
      reconcilePosition exchange nowSystem nowSteady l entry = l) ∨
    ∃ i v f, Writes exchange entry l (reconcilePosition exchange nowSystem nowSteady l entry)
      i v f := by
  rw [reconcilePosition, findOrCreateVenue]
  cases hfind : l.findVenue exchange entry.symbol with
  | some i =>
    right
    obtain ⟨v, hv, hfor, -⟩ := SlotPool.getElem?_of_findIdx? hfind
    obtain ⟨hactive, hexchange, hsymbol⟩ := isFor_iff_chars.mp hfor
    refine ⟨i, v, _, rfl, hv, ⟨fun w hw _ => ?_, fun w hw => ?_⟩, rfl, rfl, .inl hfind⟩ <;>
      cases hv.symm.trans hw
    · exact ⟨hexchange, hsymbol⟩
    · exact ⟨hactive, hexchange, hsymbol⟩
  | none =>
    cases hfree : l.findFreeSlot with
    | none =>
      left
      refine ⟨by rw [known, hfind]; rfl, List.countP_eq_zero.mpr fun v hv => ?_, rfl⟩
      simp [SlotPool.not_of_findIdx?_eq_none hfree hv]
    | some i =>
      right
      obtain ⟨v, hv, hinactive, -⟩ := SlotPool.getElem?_of_findIdx? hfree
      rw [Bool.not_eq_true'] at hinactive
      -- the new record is written at once
      set created : VenuePosition :=
        { exchange, active := true, symbol := copySymbol entry.symbol } with hcreated
      have hresult : ((({ l with venues := l.venues.modify i fun _ => created } :
          PositionLedger).modifyVenue i (takePosition nowSystem nowSteady entry)).writeSymbol
          entry.symbol) = (l.modifyVenue i fun _ =>
          takePosition nowSystem nowSteady entry created).writeSymbol entry.symbol := by
        rw [modifyVenue, modifyVenue, List.modify_modify_eq]
        rfl
      refine ⟨i, v, fun _ => takePosition nowSystem nowSteady entry created, hresult, hv,
        ⟨fun w hw hactive => ?_, fun w hw => ?_⟩, rfl, rfl, .inr ⟨hfind, hinactive⟩⟩
      · cases hv.symm.trans hw
        rw [hinactive] at hactive
        cases hactive
      · exact ⟨rfl, rfl, strncpyBuf_of_length_lt hfits⟩

/-- What the record contributes to the total is what the search for its symbol reads. -/
theorem Writes.contribution {v : VenuePosition} (h : Writes exchange entry l l' i v f) :
    (if v.active && v.exchange == exchange && !v.markedForReconcile then v.position else 0) =
      l.reached exchange entry.symbol := by
  rw [reached, venue]
  obtain hfind | ⟨hfind, hinactive⟩ := h.found
  · obtain ⟨w, hw, hfor, -⟩ := SlotPool.getElem?_of_findIdx? hfind
    cases h.record.symm.trans hw
    obtain ⟨hactive, hexchange, -⟩ := isFor_iff_chars.mp hfor
    simp only [hfind, Option.bind_some, h.record, Option.getD_some, hactive, hexchange]
    cases v.markedForReconcile <;> simp
  · simp [hfind, hinactive]

/-- The symbol of the entry is found at its record. -/
theorem Writes.findVenue {v : VenuePosition} (h : Writes exchange entry l l' i v f) :
    l'.findVenue exchange entry.symbol = some i := by
  have hafter := isFor_iff_chars.mpr (h.touches.after v h.record)
  rw [h.result]
  obtain hfind | ⟨hfind, -⟩ := h.found
  · rw [← hfind]
    refine SlotPool.findIdx?_modify_of_eq fun w hw => ?_
    cases h.record.symm.trans hw
    obtain ⟨w, hw, hfor, -⟩ := SlotPool.getElem?_of_findIdx? hfind
    cases h.record.symm.trans hw
    exact hafter.trans hfor.symm
  · exact SlotPool.findIdx?_modify_of_none hfind h.record hafter

theorem Writes.known {v : VenuePosition} (h : Writes exchange entry l l' i v f) :
    l'.known exchange = fun symbol => l.known exchange symbol || symbol == entry.symbol := by
  funext symbol
  by_cases hsymbol : symbol = entry.symbol
  · rw [PositionLedger.known, hsymbol, h.findVenue, Option.isSome_some, beq_self_eq_true,
      Bool.or_true]
  · have hother : l'.findVenue exchange symbol = l.findVenue exchange symbol := by
      rw [h.result]
      exact h.touches.findVenue fun heq => hsymbol heq.2
    rw [PositionLedger.known, hother, beq_eq_false_iff_ne.mpr hsymbol, Bool.or_false]
    rfl

theorem Writes.freeSlots {v : VenuePosition} (h : Writes exchange entry l l' i v f) :
    l'.freeSlots + (if l.known exchange entry.symbol then 0 else 1) = l.freeSlots := by
  have hcount := SlotPool.countP_modify (p := fun v : VenuePosition => !v.active) h.record f
  have hactive : (f v).active = true := (h.touches.after v h.record).1
  have hresult : l'.freeSlots = (l.venues.modify i f).countP fun v => !v.active := by
    rw [h.result]
    rfl
  rw [hresult, PositionLedger.freeSlots]
  obtain hfind | ⟨hfind, hinactive⟩ := h.found
  · obtain ⟨w, hw, hfor, -⟩ := SlotPool.getElem?_of_findIdx? hfind
    cases h.record.symm.trans hw
    simpa [PositionLedger.known, hfind, hactive, (isFor_iff_chars.mp hfor).1] using hcount
  · simpa [PositionLedger.known, hfind, hactive, hinactive] using hcount

theorem Writes.reached_self {v : VenuePosition} (h : Writes exchange entry l l' i v f) :
    l'.reached exchange entry.symbol = entry.quantity := by
  have hrecord : l'.venues[i]? = some (f v) := by
    rw [h.result]
    simp [modifyVenue, writeSymbol, h.record]
  rw [reached, venue, h.findVenue]
  simp [hrecord, h.unmarked, h.position]

theorem Writes.reached_of_ne {v : VenuePosition} (h : Writes exchange entry l l' i v f)
    (hne : symbol ≠ entry.symbol) : l'.reached exchange symbol = l.reached exchange symbol := by
  have hvenue : l'.venue exchange symbol = l.venue exchange symbol := by
    rw [h.result]
    exact h.touches.venue fun heq => hne heq.2
  rw [reached, reached, hvenue]

/-- The entry replaces what its symbol had in the total. -/
theorem Writes.reachedTotal {v : VenuePosition} (h : Writes exchange entry l l' i v f) :
    l'.reachedTotal exchange =
      l.reachedTotal exchange + (entry.quantity - l.reached exchange entry.symbol) := by
  obtain ⟨hactive, hexchange, -⟩ := h.touches.after v h.record
  have hsum := SlotPool.sum_map_modify h.record f fun v : VenuePosition =>
    if v.active && v.exchange == exchange && !v.markedForReconcile then v.position else 0
  rw [h.contribution] at hsum
  rw [h.result]
  refine hsum.trans ?_
  rw [PositionLedger.reachedTotal]
  simp [hactive, hexchange, h.unmarked, h.position]

/-! ## All entries -/

/-- An entry that is written is served, and leaves what the ledger after it serves. -/
theorem Writes.served {v : VenuePosition} (h : Writes exchange entry l l' i v f) :
    PositionLedger.served (l.known exchange) l.freeSlots (entry :: rest) =
      PositionLedger.served (l'.known exchange) l'.freeSlots rest := by
  have hfree := h.freeSlots
  rw [PositionLedger.served, h.known]
  by_cases hknown : l.known exchange entry.symbol = true
  · have hsame : (fun symbol => l.known exchange symbol || symbol == entry.symbol) =
        l.known exchange := by
      funext symbol
      by_cases hsymbol : symbol = entry.symbol
      · rw [hsymbol, hknown, Bool.true_or]
      · rw [beq_eq_false_iff_ne.mpr hsymbol, Bool.or_false]
    rw [hknown, if_pos rfl, add_zero] at hfree
    rw [if_pos (.inl hknown), hsame, hfree]
  · rw [if_neg hknown] at hfree
    rw [if_neg (not_or.mpr ⟨hknown, by omega⟩), ← hfree, Nat.add_sub_cancel]

/-- What is served stays served. -/
theorem served_of_known {known : CString → Bool} {free : ℕ} (h : known symbol = true) :
    served known free entries symbol = true := by
  induction entries generalizing known free with
  | nil => exact h
  | cons entry rest ih =>
    rw [served]
    split_ifs
    · exact ih h
    · exact ih (by rw [h, Bool.true_or])

/-- Without a free record nothing else is served. -/
theorem served_of_full {known : CString → Bool} : served known 0 entries = known := by
  induction entries generalizing known with
  | nil => rfl
  | cons entry rest ih => rw [served, if_pos (.inr rfl), ih]

/-- **What all entries do to the total**: each surviving one replaces what its symbol had. -/
theorem reachedTotal_foldl (hfits : ∀ entry ∈ entries, entry.symbol.length < 16) :
    (entries.foldl (reconcilePosition exchange nowSystem nowSteady) l).reachedTotal exchange =
      l.reachedTotal exchange + ((surviving (served (l.known exchange) l.freeSlots entries)
        entries).map fun entry => entry.quantity - l.reached exchange entry.symbol).sum := by
  induction entries generalizing l with
  | nil => simp [surviving]
  | cons entry rest ih =>
    rw [List.foldl_cons, ih fun e he => hfits e (List.mem_cons_of_mem entry he)]
    obtain ⟨hunknown, hfull, hsame⟩ | ⟨i, v, f, hw⟩ := @reconcilePosition_cases exchange entry
      nowSystem nowSteady l (hfits entry List.mem_cons_self)
    · rw [hsame, hfull, served_of_full, served_of_full, surviving, if_neg]
      rw [hunknown]
      exact fun h => absurd h.1 (by decide)
    · rw [← hw.served, hw.reachedTotal]
      set l₁ := reconcilePosition exchange nowSystem nowSteady l entry
      have hserved : served (l.known exchange) l.freeSlots (entry :: rest) entry.symbol = true := by
        rw [hw.served]
        exact served_of_known (by simp [hw.known])
      generalize served (l.known exchange) l.freeSlots (entry :: rest) = served₁ at hserved ⊢
      -- the later entries see the quantity of this one in place of what its symbol had
      have hshift : ((surviving served₁ rest).map fun e =>
            e.quantity - l.reached exchange e.symbol).sum =
          ((surviving served₁ rest).map fun e => e.quantity - l₁.reached exchange e.symbol).sum +
            ((surviving served₁ rest).map fun e => if e.symbol = entry.symbol then
              entry.quantity - l.reached exchange entry.symbol else 0).sum := by
        rw [← List.sum_map_add]
        refine congrArg List.sum (List.map_congr_left fun e _ => ?_)
        by_cases hsymbol : e.symbol = entry.symbol
        · rw [if_pos hsymbol, hsymbol, hw.reached_self]
          ring
        · rw [if_neg hsymbol, hw.reached_of_ne hsymbol, add_zero]
      rw [sum_surviving_symbol] at hshift
      by_cases hlater : ∀ later ∈ rest, later.symbol ≠ entry.symbol
      · have hnone : ¬ (served₁ entry.symbol = true ∧ ∃ e ∈ rest, e.symbol = entry.symbol) := by
          rintro ⟨-, later, hmem, heq⟩
          exact hlater later hmem heq
        rw [if_neg hnone] at hshift
        rw [surviving, if_pos ⟨hserved, hlater⟩, List.map_cons, List.sum_cons]
        linarith
      · have hsome : ∃ e ∈ rest, e.symbol = entry.symbol := by
          push Not at hlater
          exact hlater
        rw [if_pos ⟨hserved, hsome⟩] at hshift
        rw [surviving, if_neg fun h => hlater h.2]
        linarith

/-- The records of other exchanges are not touched by the entries. -/
theorem recordsOf_foldl (hother : other ≠ exchange)
    (hfits : ∀ entry ∈ entries, entry.symbol.length < 16) :
    (entries.foldl (reconcilePosition exchange nowSystem nowSteady) l).recordsOf other =
      l.recordsOf other := by
  induction entries generalizing l with
  | nil => rfl
  | cons entry rest ih =>
    rw [List.foldl_cons, ih fun e he => hfits e (List.mem_cons_of_mem entry he)]
    obtain ⟨-, -, hsame⟩ | ⟨i, v, f, hw⟩ := @reconcilePosition_cases exchange entry nowSystem
      nowSteady l (hfits entry List.mem_cons_self)
    · rw [hsame]
    · rw [hw.result]
      exact hw.touches.recordsOf_eq hother

/-! ## The two passes around the entries -/

/-- The first pass over a record. -/
def markRecord (exchange : Exchange) (v : VenuePosition) : VenuePosition :=
  if v.active && v.exchange == exchange then { v with markedForReconcile := true } else v

/-- The last pass over a record. -/
def sweepRecord (exchange : Exchange) (v : VenuePosition) : VenuePosition :=
  if v.active && v.exchange == exchange && v.markedForReconcile then
    { v with
      position := 0, avgEntryPrice := 0, leverage := 0, hasInventoryAge := false, openedAt := 0
      markedForReconcile := false }
  else v

/-- The ledger after a pass. -/
def mapRecords (l : PositionLedger) (f : VenuePosition → VenuePosition) : PositionLedger :=
  { l with venues := l.venues.map f }

theorem reconcilePositions_eq (snapshot : ReconciliationSnapshot) :
    l.reconcilePositions exchange snapshot nowSystem nowSteady =
      (snapshot.positions.items.foldl (reconcilePosition exchange nowSystem nowSteady)
        (l.mapRecords (markRecord exchange))).mapRecords (sweepRecord exchange) := rfl

/-- Both passes keep who a record is for, and leave the records of other exchanges as they are. -/
structure Passes (exchange : Exchange) (f : VenuePosition → VenuePosition) : Prop where
  keepsActive : ∀ v, (f v).active = v.active
  keepsExchange : ∀ v, (f v).exchange = v.exchange
  keepsSymbol : ∀ v, (f v).symbol = v.symbol
  others : ∀ v, v.exchange ≠ exchange → f v = v

theorem passes_markRecord : Passes exchange (markRecord exchange) where
  keepsActive v := by rw [markRecord]; split <;> rfl
  keepsExchange v := by rw [markRecord]; split <;> rfl
  keepsSymbol v := by rw [markRecord]; split <;> rfl
  others v hne := by simp [markRecord, hne]

theorem passes_sweepRecord : Passes exchange (sweepRecord exchange) where
  keepsActive v := by rw [sweepRecord]; split <;> rfl
  keepsExchange v := by rw [sweepRecord]; split <;> rfl
  keepsSymbol v := by rw [sweepRecord]; split <;> rfl
  others v hne := by simp [sweepRecord, hne]

theorem Passes.findVenue (h : Passes exchange f) :
    (l.mapRecords f).findVenue other symbol = l.findVenue other symbol := by
  have hfor : VenuePosition.isFor other symbol ∘ f = VenuePosition.isFor other symbol := by
    funext v
    simp only [Function.comp_apply, VenuePosition.isFor, h.keepsActive, h.keepsExchange,
      h.keepsSymbol]
  rw [PositionLedger.findVenue, mapRecords, List.findIdx?_map, hfor]
  rfl

theorem Passes.known (h : Passes exchange f) : (l.mapRecords f).known other = l.known other := by
  funext symbol
  rw [PositionLedger.known, h.findVenue]
  rfl

theorem Passes.freeSlots (h : Passes exchange f) : (l.mapRecords f).freeSlots = l.freeSlots := by
  rw [PositionLedger.freeSlots, mapRecords, List.countP_map]
  refine List.countP_congr fun v _ => ?_
  rw [Function.comp_apply, h.keepsActive]

theorem Passes.recordsOf (h : Passes exchange f) (hother : other ≠ exchange) :
    (l.mapRecords f).recordsOf other = l.recordsOf other := by
  have hkeep : ((fun v : VenuePosition => v.active && v.exchange == other) ∘ f) =
      fun v => v.active && v.exchange == other := by
    funext v
    simp only [Function.comp_apply, h.keepsActive, h.keepsExchange]
  rw [PositionLedger.recordsOf, mapRecords, List.filter_map, hkeep]
  refine (List.map_congr_left fun v hv => ?_).trans (List.map_id' _)
  have hfor : (v.active && v.exchange == other) = true := (List.mem_filter.mp hv).2
  rw [Bool.and_eq_true, beq_iff_eq] at hfor
  exact h.others v fun heq => hother (hfor.2.symm.trans heq)

/-- After the first pass no entry has reached a record. -/
theorem reachedTotal_mark : (l.mapRecords (markRecord exchange)).reachedTotal exchange = 0 := by
  rw [reachedTotal, mapRecords, List.map_map]
  refine List.sum_eq_zero fun x hx => ?_
  obtain ⟨v, -, rfl⟩ := List.mem_map.mp hx
  by_cases hfor : (v.active && v.exchange == exchange) = true
  · simp [markRecord, hfor]
  · rw [Function.comp_apply, markRecord, if_neg hfor, if_neg fun h =>
      hfor (Bool.and_eq_true_iff.mp h).1]

theorem reached_mark : (l.mapRecords (markRecord exchange)).reached exchange symbol = 0 := by
  rw [reached, venue, passes_markRecord.findVenue]
  cases hfind : l.findVenue exchange symbol with
  | none => rfl
  | some i =>
    obtain ⟨v, hv, hfor, -⟩ := SlotPool.getElem?_of_findIdx? hfind
    obtain ⟨hactive, hexchange, -⟩ := isFor_iff_chars.mp hfor
    simp [mapRecords, hv, markRecord, hactive, hexchange]

/-- The last pass empties what no entry has reached. -/
theorem exchangeTotal_sweep :
    (l.mapRecords (sweepRecord exchange)).exchangeTotal exchange = l.reachedTotal exchange := by
  rw [exchangeTotal, mapRecords, List.map_map, reachedTotal]
  refine congrArg List.sum (List.map_congr_left fun v _ => ?_)
  rw [Function.comp_apply, passes_sweepRecord.keepsActive, passes_sweepRecord.keepsExchange]
  by_cases hfor : (v.active && v.exchange == exchange) = true
  · cases hmarked : v.markedForReconcile <;> simp [sweepRecord, hfor, hmarked]
  · rw [if_neg hfor, if_neg fun h => hfor (Bool.and_eq_true_iff.mp h).1]

/-! ## Reconciliation and the snapshot after it -/

variable {snapshot : ReconciliationSnapshot}

/-- **The total after reconciliation** is that of the surviving entries. -/
theorem exchangeTotal_reconcilePositions
    (hfits : ∀ entry ∈ snapshot.positions.items, entry.symbol.length < 16) :
    (l.reconcilePositions exchange snapshot nowSystem nowSteady).exchangeTotal exchange =
      totalQuantity (surviving (served (l.known exchange) l.freeSlots snapshot.positions.items)
        snapshot.positions.items) := by
  rw [reconcilePositions_eq, exchangeTotal_sweep, reachedTotal_foldl hfits, reachedTotal_mark,
    passes_markRecord.known, passes_markRecord.freeSlots, zero_add, totalQuantity]
  refine congrArg List.sum (List.map_congr_left fun entry _ => ?_)
  rw [reached_mark, sub_zero]

/-- **Reconciliation does not touch the records of other exchanges.** -/
theorem recordsOf_reconcilePositions (hother : other ≠ exchange)
    (hfits : ∀ entry ∈ snapshot.positions.items, entry.symbol.length < 16) :
    (l.reconcilePositions exchange snapshot nowSystem nowSteady).recordsOf other =
      l.recordsOf other := by
  rw [reconcilePositions_eq, passes_sweepRecord.recordsOf hother, recordsOf_foldl hother hfits,
    passes_markRecord.recordsOf hother]

/-- **The position that `snapshot` reports** is the sum over the records on top of what its memory
held. -/
theorem globalPosition_snapshot (memory : Snapshot) (now : ℤ) :
    (l.snapshot memory now).globalPosition = memory.globalPosition + l.total := by
  have hfold : ∀ (venues : List VenuePosition) (out : Snapshot),
      (venues.foldl (addVenue now) out).globalPosition = out.globalPosition +
        (venues.map fun v => if v.active then v.position else 0).sum := by
    intro venues
    induction venues with
    | nil => exact fun out => (add_zero _).symm
    | cons v rest ih =>
      intro out
      rw [List.foldl_cons, ih, List.map_cons, List.sum_cons]
      cases hactive : v.active <;> simp [addVenue, hactive, add_assoc]
  exact hfold l.venues _

/-- **When reconciliation is faithful.** The total of the exchange is that of all entries, the
records of other exchanges are as before, and the snapshot after it reports the sum over all
records, exactly when the entries that reconciliation loses add up to zero and the snapshot starts
from a zero. -/
theorem reconcilePositions_faithful_iff (l : PositionLedger) (exchange : Exchange)
    (snapshot : ReconciliationSnapshot) (memory : Snapshot) (nowSystem nowSteady now : ℤ)
    (hfits : ∀ entry ∈ snapshot.positions.items, entry.symbol.length < 16) :
    let after := l.reconcilePositions exchange snapshot nowSystem nowSteady
    (after.exchangeTotal exchange = totalQuantity snapshot.positions.items ∧
        (∀ other, other ≠ exchange → after.recordsOf other = l.recordsOf other) ∧
        (after.snapshot memory now).globalPosition = after.total) ↔
      totalQuantity (l.lostEntries exchange snapshot) = 0 ∧ memory.globalPosition = 0 := by
  intro after
  have htotal : after.exchangeTotal exchange + totalQuantity (l.lostEntries exchange snapshot) =
      totalQuantity snapshot.positions.items := by
    rw [exchangeTotal_reconcilePositions hfits, lostEntries, surviving_add_lost]
  have hsnapshot : (after.snapshot memory now).globalPosition =
      memory.globalPosition + after.total := globalPosition_snapshot memory now
  constructor
  · rintro ⟨hfaithful, -, hglobal⟩
    exact ⟨by linarith, by linarith⟩
  · rintro ⟨hlost, hmemory⟩
    exact ⟨by linarith, fun other hother => recordsOf_reconcilePositions hother hfits,
      by linarith⟩

/-- The two legs of a hedged position. -/
def hedged : ReconciliationSnapshot :=
  { ReconciliationSnapshot.empty with positions := { items := [
      { symbol := "BTCUSDT".toList, positionSide := "LONG".toList, quantity := 2 },
      { symbol := "BTCUSDT".toList, positionSide := "SHORT".toList, quantity := -1 }] } }

/-- Two positions of a one-way account. -/
def oneWay : ReconciliationSnapshot :=
  { ReconciliationSnapshot.empty with positions := { items := [
      { symbol := "BTCUSDT".toList, positionSide := "BOTH".toList, quantity := 2 },
      { symbol := "ETHUSDT".toList, positionSide := "BOTH".toList, quantity := -1 }] } }

theorem reconcilePositions_faithful_oneWay :
    (new.lostEntries .binance oneWay = [] ∧ (default : Snapshot).globalPosition = 0) ∧
      ((new.reconcilePositions .binance oneWay 0 0).exchangeTotal .binance =
          totalQuantity oneWay.positions.items ∧
        (∀ other, other ≠ Exchange.binance →
          (new.reconcilePositions .binance oneWay 0 0).recordsOf other = new.recordsOf other) ∧
        ((new.reconcilePositions .binance oneWay 0 0).snapshot default 0).globalPosition =
          (new.reconcilePositions .binance oneWay 0 0).total) :=
  ⟨by decide +kernel, (reconcilePositions_faithful_iff new .binance oneWay default 0 0 0
    (by decide)).mpr (by decide +kernel)⟩

/-- A new ledger keeps only the short leg of the hedged position. -/
theorem hedged_leg_lost :
    ¬ ∀ (l : PositionLedger) (exchange : Exchange) (snapshot : ReconciliationSnapshot)
      (memory : Snapshot) (nowSystem nowSteady now : ℤ),
      (∀ entry ∈ snapshot.positions.items, entry.symbol.length < 16) →
      let after := l.reconcilePositions exchange snapshot nowSystem nowSteady
      after.exchangeTotal exchange = totalQuantity snapshot.positions.items ∧
        (∀ other, other ≠ exchange → after.recordsOf other = l.recordsOf other) ∧
        (after.snapshot memory now).globalPosition = after.total := by
  intro hfaithful
  have hlost := (hfaithful new .binance hedged default 0 0 0 (by decide)).1
  exact absurd hlost (by decide +kernel)

end PositionLedger

end TradingInfrastructure
