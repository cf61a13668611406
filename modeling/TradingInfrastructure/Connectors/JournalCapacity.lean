import TradingInfrastructure.Connectors.ConnectorRuns

/-!
# The table fills up

A new operation on an order takes an entry of the table, which nothing gives back, and which is read
back from the file. While an entry is free, an operation that was never asked for is sent to the
venue; once all are in use, none is, be it a submission or the cancel of an order that is at the
venue (`asks_iff`).
-/

namespace TradingInfrastructure

open Fields (NoBlank)

namespace OrderRequest

/-- The operation of the request, and the client order id that it is entered under. -/
def op : OrderRequest → JournalOperation
  | submit _ => .submit
  | cancel _ => .cancel
  | replace _ _ => .replace

def clientOrderId : OrderRequest → ℕ
  | submit order => order.clientOrderId
  | cancel k | replace k _ => k

/-- The client order ids are 64-bit ones. -/
def Typed : OrderRequest → Prop
  | submit order => order.clientOrderId < 2 ^ 64
  | cancel k => k < 2 ^ 64
  | replace k replacement => k < 2 ^ 64 ∧ replacement.clientOrderId < 2 ^ 64

end OrderRequest

namespace ConnectorCall

/-- The request is typed, and the venue order ids that it is answered with are single words. -/
def Typed : ConnectorCall → Prop
  | request r answers .. => r.Typed ∧ ∀ n v, (answers n).venueOrderId = some v → NoBlank v
  | reconcile => True

/-- The call asks for the operation on the order. -/
def Names (op : JournalOperation) (k : ℕ) : ConnectorCall → Prop
  | request r .. => r.op = op ∧ r.clientOrderId = k
  | reconcile => False

end ConnectorCall

namespace LiveConnectorBase

variable {P : JournalEntry → Prop} {c : LiveConnectorBase} {answers : ℕ → VenueAnswer}
  {opened opened' : Bool}

/-- The journal holds what has the property, and the mapped venue order ids are single words. -/
structure Sane (P : JournalEntry → Prop) (c : LiveConnectorBase) : Prop where
  journal : c.journal.Holds P
  noBlank : ∀ m ∈ c.venueOrderMap, m.active = true → NoBlank m.venueOrderId

theorem sane_new (P : JournalEntry → Prop) (exchange : Exchange) (retryPolicy : RetryPolicy) :
    (new exchange retryPolicy []).Sane P where
  journal := IdempotencyJournal.holds_load_nil P
  noBlank m hm hactive := by
    rw [VenueOrderMap.active_of_mem_empty hm] at hactive
    cases hactive

theorem Sane.withJournal (h : c.Sane P) {j : IdempotencyJournal} (hj : j.Holds P) :
    Sane P { c with journal := j } :=
  ⟨hj, h.noBlank⟩

theorem Sane.mapOrder (h : c.Sane P) (k : ℕ) {v : CString} (hv : NoBlank v) (symbol : Symbol) :
    (c.mapOrder k v symbol).2.Sane P := by
  unfold LiveConnectorBase.mapOrder
  cases hup : c.venueOrderMap.upsert k v c.exchange symbol.chars with
  | none => exact h
  | some m' =>
    refine ⟨h.journal, fun m hm hactive => ?_⟩
    rcases VenueOrderMap.mem_upsert hup hm with hm | ⟨-, hmv⟩
    · exact h.noBlank m hm hactive
    · rw [hmv]
      exact fun a ha => hv a (List.mem_of_mem_take ha)

theorem Sane.erase (h : c.Sane P) (k : ℕ) :
    Sane P { c with venueOrderMap := c.venueOrderMap.erase k } := by
  refine ⟨h.journal, fun m hm hactive => ?_⟩
  rcases VenueOrderMap.mem_erase hm with hm | hinactive
  · exact h.noBlank m hm hactive
  · rw [hinactive] at hactive
    cases hactive

theorem noBlank_attempt (hwords : ∀ n v, (answers n).venueOrderId = some v → NoBlank v)
    (c : LiveConnectorBase) : NoBlank (c.attempt answers).2 :=
  noBlank_withRetries hwords _ 1 [] (by decide)

/-- The venue order id of an entry of the journal is a single word. -/
theorem Sane.noBlank_decision (h : c.Sane P) {op : JournalOperation} {k : ℕ} {e : JournalEntry}
    (he : c.journal.entries.entryOf op k = some e) : NoBlank e.decision.venueOrderId := fun a ha =>
  (h.journal.entries e (JournalTable.entryOf_eq_some he).1).1.noBlank a (List.mem_of_mem_take ha)

section Requests

open IdempotencyJournal (Allows)

variable (hwords : ∀ n v, (answers n).venueOrderId = some v → NoBlank v)

include hwords

theorem Sane.submitOrder (h : c.Sane P) {order : Order} (hP : Allows P .submit order.clientOrderId)
    (hk : order.clientOrderId < 2 ^ 64) :
    (c.submitOrder order answers opened opened').2.Sane P := by
  obtain ⟨d, j, hbegin⟩ : ∃ d j,
    c.journal.begin .submit order.clientOrderId 0 opened = (d, j) := ⟨_, _, rfl⟩
  have hholds : (c.journal.begin .submit order.clientOrderId 0 opened).2.Holds P :=
    h.journal.begin hP ⟨rfl, by decide⟩ hk (by decide)
  have hj := h.withJournal hholds
  rw [hbegin] at hj
  simp only [LiveConnectorBase.submitOrder, beginSubmit, hbegin]
  cases IdempotencyJournal.begin_outcome h.journal.idle hbegin with
  | acked e halready he hstate hd hentries =>
    subst hd
    by_cases hhas : hasVenueOrderId e.decision = true
    · simp only [halready, hhas, if_true]
      exact hj.mapOrder _ (h.noBlank_decision he) _
    · simp only [halready, hhas, if_true]
      exact hj
  | sent e halready hsend hnot he hother =>
    have hv := noBlank_attempt hwords { c with journal := j }
    simp only [halready, hsend, Bool.not_true, Bool.false_eq_true, if_false, finishSubmit]
    split_ifs
    · exact (hj.withJournal (hj.journal.ack hP he hv (by decide))).mapOrder _ hv _
    · exact hj.withJournal (hj.journal.fail hP he (by decide))
  | refused halready hsend hsame =>
    simp only [halready, hsend, Bool.not_false, Bool.false_eq_true, if_false, if_true]
    exact hj

omit hwords in
theorem Sane.cancelOrder (h : c.Sane P) {k : ℕ} (hP : Allows P .cancel k) (hk : k < 2 ^ 64) :
    (c.cancelOrder k answers opened opened').2.Sane P := by
  obtain ⟨d, j, hbegin⟩ : ∃ d j, c.journal.begin .cancel k 0 opened = (d, j) := ⟨_, _, rfl⟩
  have hholds : (c.journal.begin .cancel k 0 opened).2.Holds P :=
    h.journal.begin hP ⟨rfl, by decide⟩ hk (by decide)
  have hj := h.withJournal hholds
  rw [hbegin] at hj
  simp only [LiveConnectorBase.cancelOrder, beginCancel, hbegin]
  by_cases hreplace : (c.journal.lookup .replace k).state = .inFlight ∨
      (c.journal.lookup .replace k).state = .acked
  · simp only [hreplace, if_true]
    exact h
  simp only [hreplace, if_false]
  cases IdempotencyJournal.begin_outcome h.journal.idle hbegin with
  | acked e halready he hstate hd hentries =>
    simp only [halready, if_true]
    exact hj
  | sent e halready hsend hnot he hother =>
    simp only [halready, hsend, Bool.not_true, Bool.false_eq_true, if_false]
    cases hget : c.venueOrderMap.get k with
    | none => exact hj.withJournal (hj.journal.fail hP he (by decide))
    | some mapped =>
      obtain ⟨hmem, hactive, -⟩ := VenueOrderMap.get_eq_some hget
      simp only [finishCancel]
      split_ifs
      · exact (hj.withJournal
          (hj.journal.ack hP he (h.noBlank mapped hmem hactive) (by decide))).erase k
      · exact hj.withJournal (hj.journal.fail hP he (by decide))
  | refused halready hsend hsame =>
    simp only [halready, hsend, Bool.not_false, Bool.false_eq_true, if_false, if_true]
    exact hj

theorem Sane.replaceOrder (h : c.Sane P) {k : ℕ} {replacement : Order} (hP : Allows P .replace k)
    (hk : k < 2 ^ 64) (hrelated : replacement.clientOrderId < 2 ^ 64) :
    (c.replaceOrder k replacement answers opened opened').2.Sane P := by
  obtain ⟨d, j, hbegin⟩ : ∃ d j,
    c.journal.begin .replace k replacement.clientOrderId opened = (d, j) := ⟨_, _, rfl⟩
  have hholds : (c.journal.begin .replace k replacement.clientOrderId opened).2.Holds P :=
    h.journal.begin hP ⟨rfl, by decide⟩ hk hrelated
  have hj := h.withJournal hholds
  rw [hbegin] at hj
  rw [replaceOrder_eq]
  simp only [beginReplace, hbegin]
  by_cases hcancel : (c.journal.lookup .cancel k).state = .inFlight ∨
      (c.journal.lookup .cancel k).state = .acked
  · simp only [hcancel, if_true]
    exact h
  simp only [hcancel, if_false]
  cases hget : c.venueOrderMap.get k with
  | none => exact h
  | some mapped =>
    simp only
    cases IdempotencyJournal.begin_outcome h.journal.idle hbegin with
    | acked e halready he hstate hd hentries =>
      subst hd
      by_cases hhas : hasVenueOrderId e.decision = true
      · simp only [halready, hhas, if_true]
        exact (hj.erase k).mapOrder _ (h.noBlank_decision he) _
      · simp only [halready, hhas, if_true]
        exact hj
    | sent e halready hsend hnot he hother =>
      have hv := noBlank_attempt hwords { c with journal := j }
      simp only [halready, hsend, Bool.not_true, Bool.false_eq_true, if_false, finishReplace]
      split_ifs
      · exact hj.withJournal (hj.journal.fail hP he hrelated)
      · exact ((hj.withJournal (hj.journal.ack hP he hv hrelated)).erase k).mapOrder _ hv _
    | refused halready hsend hsame =>
      simp only [halready, hsend, Bool.not_false, Bool.false_eq_true, if_false, if_true]
      exact hj

end Requests

/-- **A call keeps what the journal holds** when it may write its own entry. -/
theorem Sane.call (h : c.Sane P) (hread : IdempotencyJournal.Readable P) {x : ConnectorCall}
    (hx : x.Typed) (hP : ∀ op k, x.Names op k → IdempotencyJournal.Allows P op k) :
    (c.call x).Sane P := by
  cases x with
  | request r answers opened opened' =>
    obtain ⟨htyped, hwords⟩ := hx
    have hP := hP r.op r.clientOrderId ⟨rfl, rfl⟩
    cases r with
    | submit order => exact h.submitOrder hwords hP htyped
    | cancel k => exact h.cancelOrder hP htyped
    | replace k replacement => exact h.replaceOrder hwords hP htyped.1 htyped.2
  | reconcile =>
    refine ⟨h.journal.load hread, fun m hm hactive => ?_⟩
    rw [VenueOrderMap.active_of_mem_empty hm] at hactive
    cases hactive

/-- The operation on the order is never asked for. -/
def NeverUsed (calls : List ConnectorCall) (op : JournalOperation) (k : ℕ) : Prop :=
  ∀ x ∈ calls, ¬ x.Names op k

/-- **An operation that was never asked for** has no entry, not even one that is read back. -/
theorem entryOf_of_neverUsed {exchange : Exchange} {retryPolicy : RetryPolicy}
    {calls : List ConnectorCall} (hcalls : ∀ x ∈ calls, x.Typed) {op : JournalOperation} {k : ℕ}
    (hnever : NeverUsed calls op k) :
    ((new exchange retryPolicy []).run calls).journal.entries.entryOf op k = none := by
  let P : JournalEntry → Prop := fun e => ¬ (e.op = op ∧ e.clientOrderId = k)
  have hstep : ∀ (c : LiveConnectorBase) (x : ConnectorCall), c.Sane P →
      (x.Typed ∧ ¬ x.Names op k) → (LiveConnectorBase.call c x).Sane P := by
    intro c x h hx
    refine h.call (fun _ hP => hP) hx.1 fun op' k' hnames e hop hk hsame => hx.2 ?_
    rw [← hsame.1, ← hsame.2, hop, hk]
    exact hnames
  have hrun : ((new exchange retryPolicy []).run calls).Sane P :=
    foldl_induction hstep (sane_new P exchange retryPolicy) fun x hx => ⟨hcalls x hx, hnever x hx⟩
  rw [Option.eq_none_iff_forall_not_mem]
  intro e he
  obtain ⟨hmem, hused, hop, hk⟩ := JournalTable.entryOf_eq_some he
  exact (hrun.journal.entries e hmem).2 hused ⟨hop, hk⟩

end LiveConnectorBase

/-! ## Entries in use -/

namespace JournalTable

variable {t t' : JournalTable} {op : JournalOperation} {k i : ℕ} {e : JournalEntry}

/-- The entries of the table that are in use. -/
def inUse (t : JournalTable) : ℕ := t.countP fun e => e.used

/-- **An entry that is put into the table** is one more in use, if there was none. -/
theorem inUse_put (h : t.findOrCreate op k = some (i, t')) (hused : e.used = true) :
    inUse (t'.modify i fun _ => e) = t.inUse + if (t.entryOf op k).isNone then 1 else 0 := by
  obtain ⟨a, ha, haused, -, -, hcases⟩ := findOrCreate_spec h
  have hput := SlotPool.countP_modify (p := fun e : JournalEntry => e.used) ha fun _ => e
  simp only [haused, hused, if_true] at hput
  rcases hcases with ⟨rfl, hentry⟩ | ⟨hnone, old, hold, hunused, rfl, -⟩
  · simp only [hentry, Option.isNone_some, Bool.false_eq_true, if_false, inUse]
    omega
  · have hcreate := SlotPool.countP_modify (p := fun e : JournalEntry => e.used) hold
      fun e => { e with used := true, op := op, clientOrderId := k }
    simp only [hunused, Bool.false_eq_true, if_false, if_true] at hcreate
    simp only [hnone, Option.isNone_none, if_true, inUse]
    omega

end JournalTable

namespace IdempotencyJournal

variable {j : IdempotencyJournal} {op : JournalOperation} {k related : ℕ} {opened : Bool}
  {e : JournalEntry}

/-- **What is sent** takes an entry, if it has none. -/
theorem inUse_begin (hidle : ∀ e ∈ j.entries, e.used = false → e = {})
    (h : (j.begin op k related opened).1.shouldSendToVenue = true) :
    (j.begin op k related opened).2.entries.inUse =
      j.entries.inUse + if (j.entries.entryOf op k).isNone then 1 else 0 := by
  unfold begin at h ⊢
  cases hfind : j.entries.findOrCreate op k with
  | none =>
    rw [hfind] at h
    cases h
  | some answer =>
    obtain ⟨i, t⟩ := answer
    obtain ⟨a, ha, haused, -, -, hcases⟩ := JournalTable.findOrCreate_spec hfind
    have hget : t.getD i {} = a := by rw [List.getD_eq_getElem?_getD, ha, Option.getD_some]
    simp only [hget]
    by_cases hheld : a.state = .acked ∨ a.state = .inFlight
    · rcases hcases with ⟨rfl, hentry⟩ | ⟨-, old, hold, hunused, -, rfl⟩
      · rw [if_pos hheld, entries_countDuplicate, hentry]
        rfl
      · obtain rfl := hidle old (List.mem_of_getElem? hold) hunused
        exact absurd hheld (by simp)
    · rw [if_neg hheld, entries_put, entries_countDuplicate]
      exact JournalTable.inUse_put hfind haused

theorem inUse_ack (he : j.entries.entryOf op k = some e) (v : CString) (related : ℕ)
    (opened : Bool) :
    (j.ack op k v related opened).entries.inUse = j.entries.inUse := by
  obtain ⟨i, hfind, hget⟩ := JournalTable.findOrCreate_of_entryOf he
  obtain ⟨-, hused, -, -⟩ := JournalTable.entryOf_eq_some he
  simp only [ack, hfind, hget, entries_put, entries_countDuplicate]
  refine (JournalTable.inUse_put hfind ?_).trans ?_
  · exact hused
  · rw [he]
    rfl

theorem inUse_fail (he : j.entries.entryOf op k = some e) (related : ℕ) (opened : Bool) :
    (j.fail op k related opened).entries.inUse = j.entries.inUse := by
  obtain ⟨i, hfind, hget⟩ := JournalTable.findOrCreate_of_entryOf he
  obtain ⟨-, hused, -, -⟩ := JournalTable.entryOf_eq_some he
  simp only [fail, hfind, hget, entries_put]
  refine (JournalTable.inUse_put hfind ?_).trans ?_
  · exact hused
  · rw [he]
    rfl

end IdempotencyJournal

/-! ## Room in the table -/

namespace LiveConnectorBase

variable {c : LiveConnectorBase} {answers : ℕ → VenueAnswer} {opened opened' : Bool}

/-- An entry of the table is free. -/
def HasRoom (c : LiveConnectorBase) : Prop :=
  c.journal.entries.inUse < JournalTable.maxRecords

instance (c : LiveConnectorBase) : Decidable c.HasRoom := inferInstanceAs (Decidable (_ < _))

theorem Tidy.hasRoom_iff (h : c.Tidy) :
    c.HasRoom ↔ ∃ i, (c.journal.entries.findIdx? fun e => !e.used) = some i := by
  have hle := List.countP_le_length (p := fun e : JournalEntry => e.used) (l := c.journal.entries)
  rw [h.table.length] at hle
  rw [HasRoom, JournalTable.inUse, ← Option.isSome_iff_exists, lt_iff_le_and_ne, ne_eq,
    ← h.table.length,
    List.countP_eq_length, List.findIdx?_isSome, h.table.length]
  simp [hle]

/-- **An operation without an entry** is sent when there is room for one, and refused otherwise. -/
theorem Tidy.begin_fresh (h : c.Tidy) {op : JournalOperation} {k : ℕ}
    (hnone : c.journal.entries.entryOf op k = none) (related : ℕ) (opened : Bool) :
    (c.journal.begin op k related opened).1.alreadyAcked = false ∧
      ((c.journal.begin op k related opened).1.shouldSendToVenue = true ↔ c.HasRoom) := by
  have hfind : c.journal.entries.find op k = none := Option.map_eq_none_iff.mp hnone
  rw [h.hasRoom_iff]
  unfold IdempotencyJournal.begin JournalTable.findOrCreate
  rw [hfind]
  cases hfree : c.journal.entries.findIdx? fun e => !e.used with
  | none =>
    refine ⟨rfl, iff_of_false (fun hc => by cases hc) fun hc => ?_⟩
    obtain ⟨i, hi⟩ := hc
    cases hi
  | some i =>
    obtain ⟨old, hold, hunused, hmem⟩ := SlotPool.getElem?_of_findIdx? hfree
    obtain rfl := h.table.idle old hmem (by simpa using hunused)
    have hget : (c.journal.entries.modify i fun e =>
        { e with used := true, op := op, clientOrderId := k }).getD i {} =
        { used := true, op := op, clientOrderId := k } := by
      rw [List.getD_eq_getElem?_getD, List.getElem?_modify_eq, hold]
      rfl
    simp only [hget, reduceCtorEq, or_self, if_false]
    exact ⟨rfl, iff_of_true rfl ⟨i, rfl⟩⟩

/-- **What was never asked for reaches the venue** exactly while the table has room: an operation of
the journal, the submission of an order, and the cancel of an order that is mapped. -/
theorem asks_iff {exchange : Exchange} {retryPolicy : RetryPolicy} {calls : List ConnectorCall}
    (hcalls : ∀ x ∈ calls, x.Typed) (hc : (new exchange retryPolicy []).run calls = c) :
    (∀ op k related opened, NeverUsed calls op k →
      ((c.journal.begin op k related opened).1.shouldSendToVenue = true ↔ c.HasRoom)) ∧
    (∀ order opened opened', NeverUsed calls .submit order.clientOrderId →
      (c.asks (.submit order) opened opened' = true ↔ c.HasRoom)) ∧
    (∀ k opened opened', NeverUsed calls .cancel k → NeverUsed calls .replace k →
      c.venueOrderMap.get k ≠ none → (c.asks (.cancel k) opened opened' = true ↔ c.HasRoom)) := by
  subst hc
  have h := (tidy_new exchange retryPolicy []).run calls
  refine ⟨fun op k related opened hnever => ?_, fun order opened opened' hnever => ?_,
    fun k opened opened' hcancel hreplace hmapped => ?_⟩
  · exact (h.begin_fresh (entryOf_of_neverUsed hcalls hnever) related opened).2
  · obtain ⟨hacked, hsend⟩ := h.begin_fresh (entryOf_of_neverUsed hcalls hnever) 0 opened
    simp only [asks, beginSubmit, hacked, Bool.false_eq_true, if_false]
    rw [← hsend]
    split_ifs with hrefused <;> simp_all
  · obtain ⟨hacked, hsend⟩ := h.begin_fresh (entryOf_of_neverUsed hcalls hcancel) 0 opened
    obtain ⟨mapped, hget⟩ := Option.ne_none_iff_exists'.mp hmapped
    have hstate : (((new exchange retryPolicy []).run calls).journal.lookup .replace k).state =
        .none := by
      rw [IdempotencyJournal.lookup_eq, entryOf_of_neverUsed hcalls hreplace]
      rfl
    simp only [asks, beginCancel, hstate, reduceCtorEq, or_self, if_false, hacked,
      Bool.false_eq_true, hget]
    rw [← hsend]
    split_ifs with hrefused <;> simp_all

/-- **The submission of a new order takes an entry**, however the venue answers. -/
theorem Tidy.inUse_submitOrder (h : c.Tidy) {order : Order}
    (hnone : c.journal.entries.entryOf .submit order.clientOrderId = none) (hroom : c.HasRoom) :
    (c.submitOrder order answers opened opened').2.journal.entries.inUse =
      c.journal.entries.inUse + 1 := by
  obtain ⟨hacked, hsend⟩ := h.begin_fresh hnone 0 opened
  have hsend := hsend.mpr hroom
  obtain ⟨-, ⟨e, he⟩, -⟩ := IdempotencyJournal.begin_shouldSend h.table.idle hsend
  have hbegin := IdempotencyJournal.inUse_begin h.table.idle hsend
  rw [hnone] at hbegin
  simp only [LiveConnectorBase.submitOrder, beginSubmit, hacked, hsend, Bool.not_true,
    Bool.false_eq_true, if_false, finishSubmit]
  split_ifs
  · have hack := IdempotencyJournal.inUse_ack he
      (attempt { c with
        journal := (c.journal.begin .submit order.clientOrderId 0 opened).2 } answers).2 0 opened'
    unfold LiveConnectorBase.mapOrder
    split <;> exact hack.trans hbegin
  · exact (IdempotencyJournal.inUse_fail he 0 opened').trans hbegin

/-- Some orders, one after another. -/
def manyBids (n : ℕ) : List ConnectorCall :=
  (List.range n).map fun k => .request (.submit (bid k)) accepted true true

theorem manyBids_typed {n : ℕ} (hn : n ≤ 2 ^ 64) : ∀ x ∈ manyBids n, x.Typed := by
  intro x hx
  obtain ⟨k, hk, rfl⟩ := List.mem_map.mp hx
  refine ⟨show k < 2 ^ 64 from lt_of_lt_of_le (List.mem_range.mp hk) hn, fun n v hv => ?_⟩
  cases hv
  decide

theorem manyBids_neverUsed (n : ℕ) : NeverUsed (manyBids n) .submit n := by
  intro x hx hnames
  obtain ⟨k, hk, rfl⟩ := List.mem_map.mp hx
  exact absurd hnames.2 (List.mem_range.mp hk).ne

theorem inUse_manyBids {n : ℕ} (hn : n ≤ JournalTable.maxRecords) :
    ((new .binance ⟨3⟩ []).run (manyBids n)).journal.entries.inUse = n := by
  induction n with
  | zero => decide +kernel
  | succ n ih =>
    have hcount := ih (Nat.le_of_succ_le hn)
    have hsmall : n ≤ 2 ^ 64 := le_trans (Nat.le_of_succ_le hn) (by decide)
    have hrun : (new .binance ⟨3⟩ []).run (manyBids (n + 1)) =
        (((new .binance ⟨3⟩ []).run (manyBids n)).submitOrder (bid n) accepted true true).2 := by
      simp only [manyBids, run, List.range_succ, List.map_append, List.foldl_append]
      rfl
    have htidy := (tidy_new .binance ⟨3⟩ []).run (manyBids n)
    have hnone := @entryOf_of_neverUsed .binance ⟨3⟩ _ (manyBids_typed hsmall) .submit n
      (manyBids_neverUsed n)
    rw [hrun, htidy.inUse_submitOrder hnone, hcount]
    rw [HasRoom, hcount]
    exact hn

/-- After a submission, another order reaches the venue. -/
theorem asks_second :
    ((new .binance ⟨3⟩ []).run (manyBids 1)).asks (.submit (bid 1)) true true = true :=
  ((asks_iff (manyBids_typed (by decide)) rfl).2.1 (bid 1) true true (manyBids_neverUsed 1)).mpr
    (by rw [HasRoom, inUse_manyBids (by decide)]; decide)

/-- **After as many orders as the table has entries**, a new one is not sent to the venue. -/
theorem manyBids_wedged :
    (∀ x ∈ manyBids 256, x.Typed) ∧ NeverUsed (manyBids 256) .submit 256 ∧
      (((new .binance ⟨3⟩ []).run (manyBids 256)).journal.begin .submit 256 0
        true).1.shouldSendToVenue = false := by
  have htyped := manyBids_typed (n := 256) (by decide)
  have hnone := @entryOf_of_neverUsed .binance ⟨3⟩ _ htyped .submit 256 (manyBids_neverUsed 256)
  have hsend := (((tidy_new .binance ⟨3⟩ []).run (manyBids 256)).begin_fresh hnone 0 true).2
  refine ⟨htyped, manyBids_neverUsed 256, ?_⟩
  rw [← Bool.not_eq_true, hsend, HasRoom, inUse_manyBids (n := 256) le_rfl]
  decide

end LiveConnectorBase

end TradingInfrastructure
