import TradingInfrastructure.Connectors.BinanceFuturesConnector
import TradingInfrastructure.Connectors.CoinbaseConnector
import TradingInfrastructure.Connectors.KrakenConnector
import TradingInfrastructure.Connectors.ReadableReplies

/-!
# Snapshots that can be read

A fetch goes over the replies of a venue one after another, and over the rows of each until its
table is full. A part of it tells what it wants of its reply, given the room in its table, and when
the next part runs (`FetchStep.Fills`).
-/

namespace TradingInfrastructure

/-! ## Rows -/

/-- The rows that are read: up to the first one that there is no room for. -/
def RowsRead {ι : Type} (P : ι → Prop) (room : ℕ) (rows : Option (List ι)) : Prop :=
  ∀ items, rows = some items → ∀ item ∈ items.take (room + 1), P item

/-- There are rows, and there is room for them. -/
def RowsFit {ι : Type} (room : ℕ) (rows : Option (List ι)) : Prop :=
  ∃ items, rows = some items ∧ items.length ≤ room

/-- The elements, of an array. -/
def Json.elements? : Json → Option (List Json)
  | .array items => some items
  | _ => none

/-- The members, of an object. -/
def Json.fields? : Json → Option (List (CString × Json))
  | .object fields => some fields
  | _ => none

section

variable {ι α : Type} {capacity : ℕ} {read : ι → Except ReplyFault α} {items : List ι}
  {t t' : FixedTable α capacity}

theorem FixedTable.push_eq_some {row : α} (h : t.push row = some t') :
    t.items.length < capacity ∧ t'.items.length = t.items.length + 1 := by
  unfold push at h
  split_ifs at h with hroom
  cases h
  exact ⟨hroom, by simp⟩

theorem FixedTable.push_eq_none {row : α} (h : t.push row = none) :
    t.items.length = capacity := by
  unfold push at h
  split_ifs at h with hroom
  have := t.bound
  omega

theorem succeeds_appendRows : Succeeds (appendRows read items t) ↔
    ∀ item ∈ items.take (capacity - t.items.length + 1), Succeeds (read item) := by
  induction items generalizing t with
  | nil => simp [appendRows]
  | cons item items ih =>
    rw [List.take_succ_cons, List.forall_mem_cons, appendRows]
    refine succeeds_bind_iff fun row _ => ?_
    cases hpush : t.push row with
    | none => simp [FixedTable.push_eq_none hpush]
    | some t' =>
      obtain ⟨hroom, hlength⟩ := FixedTable.push_eq_some hpush
      have htake : capacity - t.items.length = capacity - t'.items.length + 1 := by omega
      rw [htake]
      exact ih

/-- All rows are there exactly when there was room for them. -/
theorem appendRows_eq_ok {done : Bool} (h : appendRows read items t = .ok (done, t')) :
    (done = true ↔ t.items.length + items.length ≤ capacity) ∧
      (done = true → t'.items.length = t.items.length + items.length) := by
  induction items generalizing t with
  | nil =>
    cases h
    exact ⟨iff_of_true rfl (by simpa using t'.bound), fun _ => rfl⟩
  | cons item items ih =>
    rw [appendRows] at h
    obtain ⟨row, -, h⟩ := bind_eq_ok.mp h
    cases hpush : t.push row with
    | none =>
      rw [hpush] at h
      cases h
      have hfull := FixedTable.push_eq_none hpush
      exact ⟨iff_of_false Bool.false_ne_true (by rw [List.length_cons]; omega), fun h => by cases h⟩
    | some t₁ =>
      rw [hpush] at h
      obtain ⟨-, hlength⟩ := FixedTable.push_eq_some hpush
      obtain ⟨hdone, hall⟩ := ih h
      rw [List.length_cons]
      rw [hlength] at hdone hall
      exact ⟨hdone.trans (by omega), fun h => (hall h).trans (by omega)⟩

end

/-! ## The parts of a fetch -/

/-- The tables of a snapshot. -/
inductive SnapshotTable
  | openOrders | fills | balances | positions
  deriving DecidableEq

/-- The places of a table. -/
def SnapshotTable.capacity : SnapshotTable → ℕ
  | openOrders => 128
  | fills => 512
  | balances | positions => 64

/-- The rows in a table. -/
def ReconciliationSnapshot.rows (s : ReconciliationSnapshot) : SnapshotTable → ℕ
  | .openOrders => s.openOrders.items.length
  | .fills => s.fills.items.length
  | .balances => s.balances.items.length
  | .positions => s.positions.items.length

/-- The places of a table that are left. -/
def ReconciliationSnapshot.room (s : ReconciliationSnapshot) (table : SnapshotTable) : ℕ :=
  table.capacity - s.rows table

namespace FetchStep

/-- The part works on one table: what it wants, given the room in the table, and when the next part
runs. -/
structure Fills (step : FetchStep) (table : SnapshotTable) (reads completes : ℕ → Prop) :
    Prop where
  succeeds : ∀ s, Succeeds (step s) ↔ reads (s.room table)
  goesOn : ∀ s s' result, step s = .ok (result, s') → (result = .ok ↔ completes (s.room table))
  others : ∀ s s' result, step s = .ok (result, s') → ∀ other ≠ table, s'.room other = s.room other

/-- What stands at one place of a reply, as rows of the table. -/
structure FillsRows {ι : Type} (step : FetchStep) (table : SnapshotTable) (P : ι → Prop)
    (items : List ι) : Prop extends
  step.Fills table (RowsRead P · (some items)) (RowsFit · (some items)) where
  room : ∀ s s', step s = .ok (.ok, s') → s'.room table = s.room table - items.length

section

variable {ι α : Type} {P : ι → Prop} {items : List ι} {read : ι → Except ReplyFault α}

/-- A part that reads rows and puts them into the table. -/
theorem fillsRows_append {capacity : ℕ} (table : SnapshotTable)
    (get : ReconciliationSnapshot → FixedTable α capacity)
    (put : ReconciliationSnapshot → FixedTable α capacity → ReconciliationSnapshot)
    (hcapacity : table.capacity = capacity)
    (hget : ∀ s, s.rows table = (get s).items.length)
    (hput : ∀ s t, (put s t).rows table = t.items.length)
    (hothers : ∀ s t, ∀ other ≠ table, (put s t).rows other = s.rows other)
    (hread : ∀ item, Succeeds (read item) ↔ P item) :
    FillsRows (fun s => do
      let (done, t) ← appendRows read items (get s)
      return (if done then .ok else .errorUnknown, put s t)) table P items := by
  subst hcapacity
  have hinv : ∀ {s s' result}, (do
      let (done, t) ← appendRows read items (get s)
      return (if done then .ok else .errorUnknown, put s t) :
        Except ReplyFault (ConnectorResult × ReconciliationSnapshot)) = .ok (result, s') →
      ∃ done t, appendRows read items (get s) = .ok (done, t) ∧ s' = put s t ∧
        (result = .ok ↔ done = true) := by
    intro s s' result h
    obtain ⟨⟨done, t⟩, happend, h⟩ := bind_eq_ok.mp h
    cases h
    exact ⟨done, t, happend, rfl, by cases done <;> simp⟩
  constructor
  · constructor
    · intro s
      rw [succeeds_bind_of_total fun x => succeeds_pure _, succeeds_appendRows]
      simp only [RowsRead, Option.some.injEq, forall_eq', hread, ReconciliationSnapshot.room, hget]
    · intro s s' result h
      obtain ⟨done, t, happend, -, hresult⟩ := hinv h
      rw [hresult, (appendRows_eq_ok happend).1]
      have hbound := (get s).bound
      simp only [RowsFit, Option.some.injEq, exists_eq_left', ReconciliationSnapshot.room, hget]
      omega
    · intro s s' result h other hother
      obtain ⟨done, t, -, rfl, -⟩ := hinv h
      simp only [ReconciliationSnapshot.room, hothers s t other hother]
  · intro s s' h
    obtain ⟨done, t, happend, rfl, hresult⟩ := hinv h
    have hlength := (appendRows_eq_ok happend).2 (hresult.mp rfl)
    simp only [ReconciliationSnapshot.room, hput, hget, hlength]
    omega

end

section

variable {ι : Type} {P : ι → Prop} {items : List ι}

theorem fillsRows_orders {read : ι → Except ReplyFault ReconciledOrder}
    (hread : ∀ item, Succeeds (read item) ↔ P item) :
    (orders read items).FillsRows .openOrders P items :=
  fillsRows_append .openOrders (·.openOrders) (fun s table => { s with openOrders := table }) rfl
    (fun _ => rfl) (fun _ _ => rfl)
    (fun _ _ other h => by cases other <;> first | rfl | exact absurd rfl h) hread

theorem fillsRows_balances {read : ι → Except ReplyFault ReconciledBalance}
    (hread : ∀ item, Succeeds (read item) ↔ P item) :
    (balances read items).FillsRows .balances P items :=
  fillsRows_append .balances (·.balances) (fun s table => { s with balances := table }) rfl
    (fun _ => rfl) (fun _ _ => rfl)
    (fun _ _ other h => by cases other <;> first | rfl | exact absurd rfl h) hread

theorem fillsRows_positions {read : ι → Except ReplyFault ReconciledPosition}
    (hread : ∀ item, Succeeds (read item) ↔ P item) :
    (positions read items).FillsRows .positions P items :=
  fillsRows_append .positions (·.positions) (fun s table => { s with positions := table }) rfl
    (fun _ => rfl) (fun _ _ => rfl)
    (fun _ _ other h => by cases other <;> first | rfl | exact absurd rfl h) hread

theorem fillsRows_fills {read : ι → Except ReplyFault ReconciledFill}
    (hread : ∀ item, Succeeds (read item) ↔ P item) :
    (fills read items).FillsRows .fills P items :=
  fillsRows_append .fills (·.fills) (fun s table => { s with fills := table }) rfl
    (fun _ => rfl) (fun _ _ => rfl)
    (fun _ _ other h => by cases other <;> first | rfl | exact absurd rfl h) hread

end

/-! ## Parts of a reply -/

section

variable {step next : FetchStep} {table : SnapshotTable} {reads completes : ℕ → Prop}

/-- The next part runs where this one is complete. -/
theorem Fills.succeeds_andThen (hstep : step.Fills table reads completes)
    {s : ReconciliationSnapshot} {n : ℕ} {Q : Prop} (hroom : s.room table = n)
    (hnext : ∀ s', step s = .ok (.ok, s') → (∀ other ≠ table, s'.room other = s.room other) →
      (Succeeds (next s') ↔ Q)) :
    Succeeds (step.andThen next s) ↔ reads n ∧ (completes n → Q) := by
  subst hroom
  unfold andThen
  rw [← hstep.succeeds]
  refine succeeds_bind_iff fun x hx => ?_
  obtain ⟨result, s'⟩ := x
  have hgoes := hstep.goesOn s s' result hx
  dsimp only
  by_cases hok : result = .ok
  · subst hok
    rw [if_pos rfl, hnext s' hx (hstep.others s s' .ok hx)]
    exact ⟨fun h _ => h, fun h => h (hgoes.mp rfl)⟩
  · rw [if_neg hok]
    exact iff_of_true (succeeds_pure _) fun h => absurd (hgoes.mpr h) hok

/-- A part that stands under a test: nothing is read otherwise. -/
theorem Fills.guarded (hstep : step.Fills table reads completes) {guarded : FetchStep}
    {goes : Prop} (hthen : goes → guarded = step)
    (helse : ¬ goes → ∃ result, result ≠ ConnectorResult.ok ∧ guarded = stop result) :
    guarded.Fills table (fun room => goes → reads room) (fun room => goes ∧ completes room) := by
  by_cases hgoes : goes
  · rw [hthen hgoes]
    simpa only [hgoes, forall_const, true_and] using hstep
  · obtain ⟨result, hne, rfl⟩ := helse hgoes
    refine ⟨fun s => iff_of_true (succeeds_pure _) fun h => absurd h hgoes, fun s s' _ h => ?_,
      fun s s' _ h other _ => ?_⟩
    · cases h
      exact iff_of_false hne fun h => hgoes h.1
    · cases h
      rfl

/-- A part that a venue may not have. -/
theorem Fills.optional (hstep : step.Fills table reads completes) {optional : FetchStep}
    {absent : Prop} (hthen : absent → optional = stop .ok) (helse : ¬ absent → optional = step) :
    optional.Fills table (fun room => ¬ absent → reads room)
      (fun room => absent ∨ completes room) := by
  by_cases habsent : absent
  · rw [hthen habsent]
    refine ⟨fun s => iff_of_true (succeeds_pure _) fun h => absurd habsent h, fun s s' _ h => ?_,
      fun s s' _ h other _ => ?_⟩
    · cases h
      exact iff_of_true rfl (Or.inl habsent)
    · cases h
      rfl
  · rw [helse habsent]
    simpa only [habsent, not_false_eq_true, forall_const, false_or] using hstep

/-- The rows at one place of a reply. -/
theorem fills_located {ι : Type} {P : ι → Prop} {rows : List ι → FetchStep}
    {locate : Except ReplyFault Json} {rowsOf : Json → Option (List ι)}
    (hrows : ∀ items, (rows items).FillsRows table P items)
    (hstep : ∀ s, step s = locate >>= fun value =>
      match rowsOf value with
      | some items => rows items s
      | none => return (.errorUnknown, s)) :
    step.Fills table (fun room => ∃ value, locate = .ok value ∧ RowsRead P room (rowsOf value))
      (fun room => ∃ value, locate = .ok value ∧ RowsFit room (rowsOf value)) := by
  constructor
  · intro s
    rw [hstep, succeeds_bind]
    refine exists_congr fun value => and_congr_right fun _ => ?_
    cases rowsOf value with
    | none => exact iff_of_true (succeeds_pure _) fun items h => by cases h
    | some items => exact (hrows items).succeeds s
  · intro s s' result h
    rw [hstep] at h
    obtain ⟨value, hvalue, h⟩ := bind_eq_ok.mp h
    rw [hvalue]
    simp only [Except.ok.injEq, exists_eq_left']
    cases hitems : rowsOf value with
    | none =>
      rw [hitems] at h
      cases h
      exact iff_of_false (by decide) fun ⟨items, h, _⟩ => by cases h
    | some items =>
      rw [hitems] at h
      exact (hrows items).goesOn s s' result h
  · intro s s' result h
    rw [hstep] at h
    obtain ⟨value, -, h⟩ := bind_eq_ok.mp h
    cases hitems : rowsOf value with
    | none =>
      rw [hitems] at h
      cases h
      exact fun _ _ => rfl
    | some items =>
      rw [hitems] at h
      exact (hrows items).others s s' result h

end

end FetchStep

end TradingInfrastructure
