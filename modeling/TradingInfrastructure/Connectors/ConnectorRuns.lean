import TradingInfrastructure.Connectors.OrderRuns
import TradingInfrastructure.Connectors.VenueOrders

/-!
# Runs of a connector

A connector serves requests to submit, cancel and replace orders, and reconciles (`run`). A request
is taken apart where the venue is asked (`asks`). In every state that a connector reaches the venue
order map has one entry for a client order id at most, and an entry of the journal that is not in
use is blank (`Tidy.run`).
-/

namespace TradingInfrastructure

/-- What a connector is asked to do with an order. -/
inductive OrderRequest
  | submit (order : Order)
  | cancel (clientOrderId : ℕ)
  | replace (clientOrderId : ℕ) (replacement : Order)

/-- The calls of a connector, with the answers of the venue and whether each append opens the file.
A new process on the file starts with what `reconcile` leaves. -/
inductive ConnectorCall
  | request (r : OrderRequest) (answers : ℕ → VenueAnswer) (opened opened' : Bool)
  | reconcile

namespace LiveConnectorBase

/-- `replace_order` up to the call of the venue: its result when there is none. -/
def beginReplace (c : LiveConnectorBase) (clientOrderId : ℕ) (replacement : Order) (opened : Bool) :
    Option ConnectorResult × LiveConnectorBase :=
  let cancelState := c.journal.lookup .cancel clientOrderId
  if cancelState.state = .inFlight ∨ cancelState.state = .acked then (some .errorInvalidOrder, c)
  else
    match c.venueOrderMap.get clientOrderId with
    | none => (some .errorInvalidOrder, c)
    | some _ =>
      let (decision, journal) :=
        c.journal.begin .replace clientOrderId replacement.clientOrderId opened
      let c := { c with journal := journal }
      if decision.alreadyAcked then
        if hasVenueOrderId decision then
          let (result, c) := { c with
            venueOrderMap := c.venueOrderMap.erase clientOrderId }.mapOrder
              replacement.clientOrderId decision.venueOrderId replacement.symbol
          (some result, c)
        else (some .ok, c)
      else if !decision.shouldSendToVenue then (some .errorUnknown, c)
      else (none, c)

/-- `replace_order` after the call of the venue. -/
def finishReplace (c : LiveConnectorBase) (clientOrderId : ℕ) (replacement : Order)
    (result : ConnectorResult) (newVenueOrderId : CString) (opened : Bool) :
    ConnectorResult × LiveConnectorBase :=
  if result ≠ .ok then
    (result, { c with
      journal := c.journal.fail .replace clientOrderId replacement.clientOrderId opened })
  else
    { c with
      journal := c.journal.ack .replace clientOrderId newVenueOrderId
        replacement.clientOrderId opened
      venueOrderMap := c.venueOrderMap.erase clientOrderId }.mapOrder
        replacement.clientOrderId newVenueOrderId replacement.symbol

/-- **A replacement** is the two parts that lie before and after the call of the venue. -/
theorem replaceOrder_eq (c : LiveConnectorBase) (k : ℕ) (replacement : Order)
    (answers : ℕ → VenueAnswer) (opened opened' : Bool) :
    c.replaceOrder k replacement answers opened opened' =
      match c.beginReplace k replacement opened with
      | (some result, c) => (result, c)
      | (none, c) =>
        c.finishReplace k replacement (c.attempt answers).1 (c.attempt answers).2 opened' := by
  unfold replaceOrder beginReplace finishReplace
  simp only
  by_cases hcancel : (c.journal.lookup .cancel k).state = .inFlight ∨
      (c.journal.lookup .cancel k).state = .acked
  · simp only [hcancel, if_true]
  · simp only [hcancel, if_false]
    cases c.venueOrderMap.get k with
    | none => rfl
    | some mapped =>
      simp only
      by_cases hacked :
        (c.journal.begin .replace k replacement.clientOrderId opened).1.alreadyAcked = true
      · simp only [hacked, if_true]
        by_cases hhas :
          hasVenueOrderId (c.journal.begin .replace k replacement.clientOrderId opened).1 = true
        · simp only [hhas, if_true]
        · simp only [hhas, Bool.false_eq_true, if_false]
      · simp only [hacked, Bool.false_eq_true, if_false]
        by_cases hsend :
          (!(c.journal.begin .replace k replacement.clientOrderId opened).1.shouldSendToVenue) =
            true
        · simp only [hsend, if_true]
        · simp only [hsend, Bool.false_eq_true, if_false]

/-- What a request returns and leaves. -/
def serve (c : LiveConnectorBase) (r : OrderRequest) (answers : ℕ → VenueAnswer)
    (opened opened' : Bool) : ConnectorResult × LiveConnectorBase :=
  match r with
  | .submit order => c.submitOrder order answers opened opened'
  | .cancel k => c.cancelOrder k answers opened opened'
  | .replace k replacement => c.replaceOrder k replacement answers opened opened'

/-- The request gets as far as the call of the venue. -/
def asks (c : LiveConnectorBase) (r : OrderRequest) (opened opened' : Bool) : Bool :=
  match r with
  | .submit order => (c.beginSubmit order opened).1.isNone
  | .cancel k => (c.beginCancel k opened opened').1.isRight
  | .replace k replacement => (c.beginReplace k replacement opened).1.isNone

def call (c : LiveConnectorBase) : ConnectorCall → LiveConnectorBase
  | .request r answers opened opened' => (c.serve r answers opened opened').2
  | .reconcile => c.reconcile

/-- What is left after one call after another. -/
def run (c : LiveConnectorBase) (calls : List ConnectorCall) : LiveConnectorBase :=
  calls.foldl call c

end LiveConnectorBase

/-! ## Tables -/

namespace JournalTable

variable {t t' : JournalTable} {op : JournalOperation} {k i : ℕ} {e : JournalEntry}

/-- The table has its size, and what is not in use is blank. -/
structure Tidy (t : JournalTable) : Prop where
  idle : ∀ e ∈ t, e.used = false → e = {}
  length : t.length = maxRecords

theorem tidy_empty : Tidy empty :=
  ⟨fun _ he _ => List.eq_of_mem_replicate he, List.length_replicate ..⟩

/-- A slot that is in use after a change leaves the table tidy. -/
theorem Tidy.modify (h : t.Tidy) {f : JournalEntry → JournalEntry}
    (hf : ∀ a, t[i]? = some a → (f a).used = true) : Tidy (t.modify i f) where
  idle b hb hidle := by
    rcases SlotPool.mem_modify hb with hb | ⟨a, ha, rfl⟩
    · exact h.idle b hb hidle
    · rw [hf a ha] at hidle
      cases hidle
  length := by rw [List.length_modify, h.length]

theorem Tidy.findOrCreate (h : t.Tidy) (hfind : t.findOrCreate op k = some (i, t')) : t'.Tidy := by
  obtain ⟨e, -, -, -, -, hcases⟩ := findOrCreate_spec hfind
  rcases hcases with ⟨rfl, -⟩ | ⟨-, -, -, -, rfl, -⟩
  · exact h
  · exact h.modify fun _ _ => rfl

theorem Tidy.put (h : t.Tidy) (hfind : t.findOrCreate op k = some (i, t')) (hused : e.used = true) :
    Tidy (t'.modify i fun _ => e) :=
  (h.findOrCreate hfind).modify fun _ _ => hused

theorem used_getD_of_findOrCreate (hfind : t.findOrCreate op k = some (i, t')) :
    (t'.getD i {}).used = true := by
  obtain ⟨e, he, hused, -⟩ := findOrCreate_spec hfind
  rw [List.getD_eq_getElem?_getD, he, Option.getD_some, hused]

theorem Tidy.applyRecord (h : t.Tidy) (r : JournalRecord) : (t.applyRecord r).Tidy := by
  unfold JournalTable.applyRecord
  cases hfind : t.findOrCreate (.ofCode r.op) r.clientOrderId with
  | none => exact h
  | some answer =>
    obtain ⟨i, t'⟩ := answer
    obtain ⟨e, he, hused, -⟩ := findOrCreate_spec hfind
    refine (h.findOrCreate hfind).modify fun a ha => ?_
    rw [Option.some.inj (ha.symm.trans he), hused]

/-- **Whatever the file says**, the table that is recovered is tidy. -/
theorem tidy_recover (file : CString) : (recover file).Tidy := by
  have hloop : ∀ (n : ℕ) (text : CString) (t : JournalTable), t.Tidy →
      (recoverLoop n text t).Tidy := by
    intro n
    induction n with
    | zero => exact fun _ _ h => h
    | succ n ih =>
      intro text t h
      rw [recoverLoop]
      cases readRecord text with
      | none => exact h
      | some answer =>
        obtain ⟨r, rest⟩ := answer
        simp only
        split_ifs
        · exact h
        · exact ih rest t h
        · exact ih rest _ (h.applyRecord r)
  exact hloop _ _ _ tidy_empty

end JournalTable

namespace IdempotencyJournal

variable {j : IdempotencyJournal} (op : JournalOperation) (k related : ℕ) (opened : Bool)

@[simp] theorem entries_put (j : IdempotencyJournal) (opened : Bool) (i : ℕ) (e : JournalEntry) :
    (j.put opened i e).entries = j.entries.modify i fun _ => e := by
  unfold put appendRecord
  split <;> rfl

theorem tidy_begin (h : j.entries.Tidy) : (j.begin op k related opened).2.entries.Tidy := by
  unfold begin
  cases hfind : j.entries.findOrCreate op k with
  | none => exact h
  | some answer =>
    obtain ⟨i, t⟩ := answer
    have hused := JournalTable.used_getD_of_findOrCreate hfind
    simp only
    split_ifs
    · rw [entries_countDuplicate]
      exact h.findOrCreate hfind
    · rw [entries_put, entries_countDuplicate]
      exact h.put hfind hused

theorem tidy_ack (h : j.entries.Tidy) (v : CString) :
    (j.ack op k v related opened).entries.Tidy := by
  unfold ack
  cases hfind : j.entries.findOrCreate op k with
  | none => exact h
  | some answer =>
    obtain ⟨i, t⟩ := answer
    have hused := JournalTable.used_getD_of_findOrCreate hfind
    simp only [entries_put, entries_countDuplicate]
    exact h.put hfind hused

theorem tidy_fail (h : j.entries.Tidy) : (j.fail op k related opened).entries.Tidy := by
  unfold fail
  cases hfind : j.entries.findOrCreate op k with
  | none => exact h
  | some answer =>
    obtain ⟨i, t⟩ := answer
    have hused := JournalTable.used_getD_of_findOrCreate hfind
    simp only [entries_put]
    exact h.put hfind hused

end IdempotencyJournal

/-! ## What every call keeps -/

namespace LiveConnectorBase

variable {c c' : LiveConnectorBase}

/-- The map has one entry for an order at most, and the table is tidy. -/
structure Tidy (c : LiveConnectorBase) : Prop where
  unique : c.venueOrderMap.Unique
  table : c.journal.entries.Tidy

theorem tidy_new (exchange : Exchange) (retryPolicy : RetryPolicy) (file : CString) :
    (new exchange retryPolicy file).Tidy :=
  ⟨VenueOrderMap.unique_empty, JournalTable.tidy_recover file⟩

theorem Tidy.mapOrder (h : c.Tidy) (k : ℕ) (v : CString) (symbol : Symbol) :
    (c.mapOrder k v symbol).2.Tidy := by
  unfold LiveConnectorBase.mapOrder
  cases hup : c.venueOrderMap.upsert k v c.exchange symbol.chars with
  | none => exact h
  | some m => exact ⟨h.unique.upsert hup, h.table⟩

theorem Tidy.withJournal (h : c.Tidy) {j : IdempotencyJournal} (hj : j.entries.Tidy) :
    Tidy { c with journal := j } :=
  ⟨h.unique, hj⟩

theorem Tidy.erase (h : c.Tidy) (k : ℕ) :
    Tidy { c with venueOrderMap := c.venueOrderMap.erase k } :=
  ⟨h.unique.erase, h.table⟩

theorem Tidy.after_beginSubmit (h : c.Tidy) (order : Order) (opened : Bool) :
    (c.beginSubmit order opened).2.Tidy := by
  have hj := h.withJournal
    (IdempotencyJournal.tidy_begin .submit order.clientOrderId 0 opened h.table)
  unfold beginSubmit
  simp only
  split_ifs
  · exact hj.mapOrder ..
  · exact hj
  · exact hj
  · exact hj

theorem Tidy.after_finishSubmit (h : c.Tidy) (order : Order) (result : ConnectorResult)
    (venueOrderId : CString) (opened : Bool) :
    (c.finishSubmit order result venueOrderId opened).2.Tidy := by
  unfold finishSubmit
  split_ifs
  · exact (h.withJournal (IdempotencyJournal.tidy_ack _ _ _ _ h.table _)).mapOrder ..
  · exact h.withJournal (IdempotencyJournal.tidy_fail _ _ _ _ h.table)

theorem Tidy.submitOrder (h : c.Tidy) (order : Order) (answers : ℕ → VenueAnswer)
    (opened opened' : Bool) : (c.submitOrder order answers opened opened').2.Tidy := by
  have hbegin := h.after_beginSubmit order opened
  unfold LiveConnectorBase.submitOrder
  cases hc : c.beginSubmit order opened with
  | mk r c' =>
    rw [hc] at hbegin
    cases r with
    | some r => exact hbegin
    | none => exact hbegin.after_finishSubmit ..

theorem Tidy.cancelOrder (h : c.Tidy) (k : ℕ) (answers : ℕ → VenueAnswer) (opened opened' : Bool) :
    (c.cancelOrder k answers opened opened').2.Tidy := by
  have hbegin : (c.beginCancel k opened opened').2.Tidy := by
    have hj := h.withJournal (IdempotencyJournal.tidy_begin .cancel k 0 opened h.table)
    unfold beginCancel
    simp only
    by_cases hreplace : (c.journal.lookup .replace k).state = .inFlight ∨
        (c.journal.lookup .replace k).state = .acked
    · rw [if_pos hreplace]
      exact h
    · rw [if_neg hreplace]
      cases c.venueOrderMap.get k with
      | none =>
        simp only
        split_ifs
        · exact hj
        · exact hj
        · exact hj.withJournal (IdempotencyJournal.tidy_fail _ _ _ _ hj.table)
      | some mapped =>
        simp only
        split_ifs <;> exact hj
  unfold LiveConnectorBase.cancelOrder
  cases hc : c.beginCancel k opened opened' with
  | mk r c' =>
    rw [hc] at hbegin
    cases r with
    | inl r => exact hbegin
    | inr mapped =>
      simp only [finishCancel]
      split_ifs
      · exact (hbegin.withJournal (IdempotencyJournal.tidy_ack _ _ _ _ hbegin.table _)).erase k
      · exact hbegin.withJournal (IdempotencyJournal.tidy_fail _ _ _ _ hbegin.table)

theorem Tidy.replaceOrder (h : c.Tidy) (k : ℕ) (replacement : Order) (answers : ℕ → VenueAnswer)
    (opened opened' : Bool) : (c.replaceOrder k replacement answers opened opened').2.Tidy := by
  have hbegin : (c.beginReplace k replacement opened).2.Tidy := by
    have hj := h.withJournal
      (IdempotencyJournal.tidy_begin .replace k replacement.clientOrderId opened h.table)
    unfold beginReplace
    simp only
    by_cases hcancel : (c.journal.lookup .cancel k).state = .inFlight ∨
        (c.journal.lookup .cancel k).state = .acked
    · rw [if_pos hcancel]
      exact h
    · rw [if_neg hcancel]
      cases c.venueOrderMap.get k with
      | none => exact h
      | some mapped =>
        simp only
        split_ifs
        · exact (hj.erase k).mapOrder ..
        · exact hj
        · exact hj
        · exact hj
  rw [replaceOrder_eq]
  cases hc : c.beginReplace k replacement opened with
  | mk r c' =>
    rw [hc] at hbegin
    cases r with
    | some r => exact hbegin
    | none =>
      simp only [finishReplace]
      split_ifs
      · exact hbegin.withJournal (IdempotencyJournal.tidy_fail _ _ _ _ hbegin.table)
      · exact ((hbegin.withJournal (IdempotencyJournal.tidy_ack _ _ _ _ hbegin.table _)).erase
          k).mapOrder ..

/-- **Every call keeps the stores tidy.** -/
theorem Tidy.call (h : c.Tidy) (x : ConnectorCall) : (c.call x).Tidy := by
  cases x with
  | request r answers opened opened' =>
    cases r with
    | submit order => exact h.submitOrder ..
    | cancel k => exact h.cancelOrder ..
    | replace k replacement => exact h.replaceOrder ..
  | reconcile => exact ⟨VenueOrderMap.unique_empty, JournalTable.tidy_recover _⟩

/-- **So does every run.** -/
theorem Tidy.run (h : c.Tidy) (calls : List ConnectorCall) : (c.run calls).Tidy := by
  have hstep : ∀ (c : LiveConnectorBase) (x : ConnectorCall), c.Tidy → True →
      (LiveConnectorBase.call c x).Tidy := fun _ x h _ => h.call x
  exact foldl_induction hstep h fun _ _ => trivial

/-- A venue that accepts every request. -/
def accepted : ℕ → VenueAnswer := fun _ => { result := .ok, venueOrderId := some "V1".toList }

/-- The same bid under different client order ids. -/
def bid (clientOrderId : ℕ) : Order :=
  { clientOrderId := clientOrderId, symbol := copySymbol "BTCUSDT".toList, price := 100,
    quantity := 1 }

end LiveConnectorBase

end TradingInfrastructure
