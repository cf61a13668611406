import TradingInfrastructure.Connectors.ConnectorRuns

/-!
# Retries

A request that has returned OK is repeated. A submission and a cancel find the acked entry that the
first one has left, and return OK again without the venue. A replacement looks for the old order in
the venue order map first, and the first one has erased it there: repeated, it is refused, unless
the new order has the client order id of the old one, or the first one was answered from an entry
without a venue order id (`retrySafe_iff`).
-/

namespace TradingInfrastructure

open JournalTable (entryOf)

/-- Cutting an id to the size of a longer field, and again, does not change what a shorter one
holds. -/
theorem strncpyBuf_decision (e : JournalEntry) (v : CString)
    (h : e.venueOrderId = strncpyBuf 64 v) :
    strncpyBuf 48 e.decision.venueOrderId = strncpyBuf 48 v := by
  rw [JournalEntry.decision, h, strncpyBuf_strncpyBuf (by decide),
    strncpyBuf_strncpyBuf (by decide)]

namespace LiveConnectorBase

variable {c : LiveConnectorBase} {order replacement : Order} {k : ℕ} {answers : ℕ → VenueAnswer}
  {opened opened' : Bool}

/-- The request, in this state, returns OK, does not ask the venue and leaves the venue order
map. -/
def RetrySafe (c : LiveConnectorBase) (r : OrderRequest) : Prop :=
  ∀ answers opened opened',
    (c.serve r answers opened opened').1 = .ok ∧ c.asks r opened opened' = false ∧
      (c.serve r answers opened opened').2.venueOrderMap = c.venueOrderMap

/-- The request is not a replacement that erases the old order. -/
def Repeatable (c : LiveConnectorBase) : OrderRequest → Prop
  | .submit _ | .cancel _ => True
  | .replace k replacement =>
    replacement.clientOrderId = k ∨
      ∃ e, entryOf c.journal.entries .replace k = some e ∧ e.state = .acked ∧
        hasVenueOrderId e.decision = false

/-! ## Submissions -/

/-- The submission is acked, and mapping its order to the id of the entry changes nothing. -/
def Submitted (c : LiveConnectorBase) (order : Order) : Prop :=
  ∃ e, entryOf c.journal.entries .submit order.clientOrderId = some e ∧ e.state = .acked ∧
    (hasVenueOrderId e.decision = true →
      c.venueOrderMap.upsert order.clientOrderId e.decision.venueOrderId c.exchange
        order.symbol.chars = some c.venueOrderMap)

theorem Submitted.retrySafe (h : c.Submitted order) : c.RetrySafe (.submit order) := by
  obtain ⟨e, he, hacked, hmapped⟩ := h
  intro answers opened opened'
  obtain ⟨hdecision, -⟩ := IdempotencyJournal.begin_of_acked he hacked 0 opened
  have halready : e.decision.alreadyAcked = true := by
    simp [JournalDecision.alreadyAcked, JournalEntry.decision, hacked]
  simp only [serve, asks, submitOrder, beginSubmit, hdecision, halready, if_true]
  by_cases hhas : hasVenueOrderId e.decision = true
  · simp [hhas, mapOrder, hmapped hhas]
  · simp [hhas]

/-- **A submission that returns OK** is acked, and its order mapped. -/
theorem Tidy.submitted (h : c.Tidy)
    (hok : (c.submitOrder order answers opened opened').1 = .ok) :
    (c.submitOrder order answers opened opened').2.Submitted order := by
  obtain ⟨d, j, hbegin⟩ : ∃ d j,
    c.journal.begin .submit order.clientOrderId 0 opened = (d, j) := ⟨_, _, rfl⟩
  simp only [LiveConnectorBase.submitOrder, beginSubmit, hbegin] at hok ⊢
  cases IdempotencyJournal.begin_outcome h.table.idle hbegin with
  | acked e halready he hstate hd hentries =>
    -- the journal has answered
    subst hd
    by_cases hhas : hasVenueOrderId e.decision = true
    · simp only [halready, hhas, if_true] at hok ⊢
      obtain ⟨m, hup, hmapped⟩ := mapOrder_ok hok
      rw [hmapped]
      exact ⟨e, by rw [← he, ← hentries], hstate, fun _ => VenueOrderMap.upsert_upsert hup rfl⟩
    · simp only [halready, hhas, if_true]
      exact ⟨e, by rw [← he, ← hentries]; rfl, hstate, fun hc => absurd hc hhas⟩
  | sent e halready hsend hnot he hother =>
    -- the venue has answered
    simp only [halready, hsend, Bool.not_true, Bool.false_eq_true, if_false, finishSubmit] at hok ⊢
    split_ifs at hok ⊢ with hresult
    · have hputs := IdempotencyJournal.ack_puts he
        (attempt { c with journal := j } answers).2 0 opened'
      obtain ⟨m, hup, hmapped⟩ := mapOrder_ok hok
      rw [hmapped]
      refine ⟨_, hputs.writes.self, rfl, fun _ => ?_⟩
      exact VenueOrderMap.upsert_upsert hup (strncpyBuf_decision _ _ rfl)
    · exact absurd hok hresult
  | refused halready hsend hsame =>
    simp only [halready, hsend, Bool.not_false, Bool.false_eq_true, if_false, if_true] at hok
    cases hok

/-! ## Cancels -/

/-- The cancel is acked, and the order is not replaced. -/
def Cancelled (c : LiveConnectorBase) (k : ℕ) : Prop :=
  ¬ ((c.journal.lookup .replace k).state = .inFlight ∨
    (c.journal.lookup .replace k).state = .acked) ∧
    ∃ e, entryOf c.journal.entries .cancel k = some e ∧ e.state = .acked

theorem Cancelled.retrySafe (h : c.Cancelled k) : c.RetrySafe (.cancel k) := by
  obtain ⟨hreplace, e, he, hacked⟩ := h
  intro answers opened opened'
  obtain ⟨hdecision, -⟩ := IdempotencyJournal.begin_of_acked he hacked 0 opened
  have halready : e.decision.alreadyAcked = true := by
    simp [JournalDecision.alreadyAcked, JournalEntry.decision, hacked]
  simp [serve, asks, cancelOrder, beginCancel, hreplace, hdecision, halready]

/-- **A cancel that returns OK** is acked. -/
theorem Tidy.cancelled (h : c.Tidy) (hok : (c.cancelOrder k answers opened opened').1 = .ok) :
    (c.cancelOrder k answers opened opened').2.Cancelled k := by
  obtain ⟨d, j, hbegin⟩ : ∃ d j, c.journal.begin .cancel k 0 opened = (d, j) := ⟨_, _, rfl⟩
  simp only [LiveConnectorBase.cancelOrder, beginCancel, hbegin] at hok ⊢
  by_cases hreplace : (c.journal.lookup .replace k).state = .inFlight ∨
      (c.journal.lookup .replace k).state = .acked
  · rw [if_pos hreplace] at hok
    cases hok
  rw [if_neg hreplace] at hok ⊢
  cases IdempotencyJournal.begin_outcome h.table.idle hbegin with
  | acked e halready he hstate hd hentries =>
    -- the journal has answered
    have hsame : j.lookup .replace k = c.journal.lookup .replace k :=
      IdempotencyJournal.lookup_congr (by rw [hentries])
    simp only [halready, if_true]
    exact ⟨by rw [hsame]; exact hreplace, e, by rw [← he, ← hentries], hstate⟩
  | sent e halready hsend hnot he hother =>
    simp only [halready, hsend, Bool.not_true, Bool.false_eq_true, if_false] at hok ⊢
    cases hget : c.venueOrderMap.get k with
    | none =>
      simp only [hget] at hok
      cases hok
    | some mapped =>
      -- the venue has answered
      simp only [hget, finishCancel] at hok ⊢
      split_ifs at hok ⊢ with hresult
      · have hputs := IdempotencyJournal.ack_puts he mapped.venueOrderId 0 opened'
        have hne : (JournalOperation.replace, k) ≠ (.cancel, k) := fun hc => by cases hc
        have hsame : (j.ack .cancel k mapped.venueOrderId 0 opened').lookup .replace k =
            c.journal.lookup .replace k :=
          IdempotencyJournal.lookup_congr
            ((hputs.writes.other .replace k hne).trans (hother .replace k hne))
        exact ⟨by rw [hsame]; exact hreplace, _, hputs.writes.self, rfl⟩
      · exact absurd hok hresult
  | refused halready hsend hsame =>
    simp only [halready, hsend, Bool.not_false, Bool.false_eq_true, if_false, if_true] at hok
    cases hok

/-! ## Replacements -/

/-- The replacement is acked, the cancel of the order is not, and the order is still mapped. Erasing
it, and mapping the new order to the id of the entry, changes nothing. -/
structure Replaced (c : LiveConnectorBase) (k : ℕ) (replacement : Order) (e : JournalEntry) :
    Prop where
  entry : entryOf c.journal.entries .replace k = some e
  acked : e.state = .acked
  cancel : ¬ ((c.journal.lookup .cancel k).state = .inFlight ∨
    (c.journal.lookup .cancel k).state = .acked)
  mapped : c.venueOrderMap.get k ≠ none
  upsert : hasVenueOrderId e.decision = true →
    (c.venueOrderMap.erase k).upsert replacement.clientOrderId e.decision.venueOrderId c.exchange
      replacement.symbol.chars = some c.venueOrderMap

theorem Replaced.retrySafe {e : JournalEntry} (h : c.Replaced k replacement e) :
    c.RetrySafe (.replace k replacement) := by
  intro answers opened opened'
  obtain ⟨mapped, hget⟩ := Option.ne_none_iff_exists'.mp h.mapped
  obtain ⟨hdecision, -⟩ :=
    IdempotencyJournal.begin_of_acked h.entry h.acked replacement.clientOrderId opened
  have halready : e.decision.alreadyAcked = true := by
    simp [JournalDecision.alreadyAcked, JournalEntry.decision, h.acked]
  simp only [serve, asks, replaceOrder_eq, beginReplace, h.cancel, if_false, hget, hdecision,
    halready, if_true]
  by_cases hhas : hasVenueOrderId e.decision = true
  · simp [hhas, mapOrder, h.upsert hhas]
  · simp [hhas]

/-- An order that is not mapped is not replaced. -/
theorem not_retrySafe_of_get_eq_none (h : c.venueOrderMap.get k = none) :
    ¬ c.RetrySafe (.replace k replacement) := by
  intro hsafe
  obtain ⟨hok, -, -⟩ := hsafe (fun _ => ⟨.ok, none⟩) true true
  simp only [serve, replaceOrder, h] at hok
  split_ifs at hok

/-- **A replacement that returns OK** was answered from an entry without a venue order id, and
leaves the map, or has erased the old order and mapped the new one. -/
theorem Tidy.replaced (h : c.Tidy)
    (hok : (c.replaceOrder k replacement answers opened opened').1 = .ok) :
    ∃ c' e, (c.replaceOrder k replacement answers opened opened').2 = c' ∧
      entryOf c'.journal.entries .replace k = some e ∧ e.state = .acked ∧
      ¬ ((c'.journal.lookup .cancel k).state = .inFlight ∨
        (c'.journal.lookup .cancel k).state = .acked) ∧ c'.exchange = c.exchange ∧
      ((entryOf c.journal.entries .replace k = some e ∧ hasVenueOrderId e.decision = false ∧
          c'.venueOrderMap = c.venueOrderMap ∧ c.venueOrderMap.get k ≠ none) ∨
        ((∀ e, entryOf c.journal.entries .replace k = some e → e.state = .acked →
            hasVenueOrderId e.decision = true) ∧
          ∃ v, strncpyBuf 48 e.decision.venueOrderId = strncpyBuf 48 v ∧
            (c.venueOrderMap.erase k).upsert replacement.clientOrderId v c.exchange
              replacement.symbol.chars = some c'.venueOrderMap)) := by
  obtain ⟨d, j, hbegin⟩ : ∃ d j,
    c.journal.begin .replace k replacement.clientOrderId opened = (d, j) := ⟨_, _, rfl⟩
  rw [replaceOrder_eq] at hok ⊢
  simp only [beginReplace, hbegin] at hok ⊢
  by_cases hcancel : (c.journal.lookup .cancel k).state = .inFlight ∨
      (c.journal.lookup .cancel k).state = .acked
  · simp only [hcancel, if_true] at hok
    cases hok
  simp only [hcancel, if_false] at hok ⊢
  cases hget : c.venueOrderMap.get k with
  | none =>
    simp only [hget] at hok
    cases hok
  | some mapped =>
    simp only [hget] at hok ⊢
    cases IdempotencyJournal.begin_outcome h.table.idle hbegin with
    | acked e halready he hstate hd hentries =>
      -- the journal has answered
      subst hd
      have hsame : j.lookup .cancel k = c.journal.lookup .cancel k :=
        IdempotencyJournal.lookup_congr (by rw [hentries])
      by_cases hhas : hasVenueOrderId e.decision = true
      · simp only [halready, hhas, if_true] at hok ⊢
        obtain ⟨m, hup, hmapped⟩ := mapOrder_ok hok
        rw [hmapped]
        refine ⟨_, e, rfl, by rw [← he, ← hentries], hstate, ?_, rfl, Or.inr ⟨fun a ha _ => ?_,
          e.decision.venueOrderId, rfl, hup⟩⟩
        · rw [hsame]
          exact hcancel
        · rw [Option.some.inj (ha.symm.trans he)]
          exact hhas
      · simp only [halready, hhas, if_true, Bool.false_eq_true, if_false]
        refine ⟨_, e, rfl, by rw [← he, ← hentries], hstate, ?_, rfl, Or.inl ⟨he, ?_, rfl, ?_⟩⟩
        · rw [hsame]
          exact hcancel
        · rwa [Bool.not_eq_true] at hhas
        · exact fun hc => by cases hc
    | sent e halready hsend hnot he hother =>
      -- the venue has answered
      simp only [halready, hsend, Bool.not_true, Bool.false_eq_true, if_false,
        finishReplace] at hok ⊢
      split_ifs at hok ⊢ with hresult
      · exact absurd hok hresult
      · have hputs := IdempotencyJournal.ack_puts he
          (attempt { c with journal := j } answers).2 replacement.clientOrderId opened'
        have hne : (JournalOperation.cancel, k) ≠ (.replace, k) := fun hc => by cases hc
        have hsame : (j.ack .replace k (attempt { c with journal := j } answers).2
            replacement.clientOrderId opened').lookup .cancel k = c.journal.lookup .cancel k :=
          IdempotencyJournal.lookup_congr
            ((hputs.writes.other .cancel k hne).trans (hother .cancel k hne))
        obtain ⟨m, hup, hmapped⟩ := mapOrder_ok hok
        rw [hmapped]
        refine ⟨_, _, rfl, hputs.writes.self, rfl, ?_, rfl, Or.inr ⟨fun a ha hc => ?_, _,
          strncpyBuf_decision _ _ rfl, hup⟩⟩
        · rw [hsame]
          exact hcancel
        · exact absurd hc (hnot a ha)
    | refused halready hsend hsame =>
      simp only [halready, hsend, Bool.not_false, Bool.false_eq_true, if_false, if_true] at hok
      cases hok

theorem Tidy.retrySafe_replace_iff (h : c.Tidy)
    (hok : (c.replaceOrder k replacement answers opened opened').1 = .ok) :
    (c.replaceOrder k replacement answers opened opened').2.RetrySafe (.replace k replacement) ↔
      c.Repeatable (.replace k replacement) := by
  obtain ⟨c', e, hc', he, hacked, hcancel, hexchange, hcases⟩ := h.replaced hok
  rw [hc', Repeatable]
  rcases hcases with ⟨hentry, hhas, hmap, hget⟩ | ⟨hhas, v, hv, hup⟩
  · -- the map is as it was
    have hreplaced : c'.Replaced k replacement e :=
      { entry := he, acked := hacked, cancel := hcancel, mapped := hmap ▸ hget,
        upsert := fun hc => absurd hc (by rw [hhas]; decide) }
    exact ⟨fun _ => Or.inr ⟨e, hentry, hacked, hhas⟩, fun _ => hreplaced.retrySafe⟩
  · by_cases hk : replacement.clientOrderId = k
    · -- the new order stands in the place of the old one
      subst hk
      have hfind : (c.venueOrderMap.erase replacement.clientOrderId).find
          replacement.clientOrderId = none :=
        VenueOrderMap.get_eq_none.mp h.unique.get_erase_self
      have hreplaced : c'.Replaced replacement.clientOrderId replacement e :=
        { entry := he
          acked := hacked
          cancel := hcancel
          mapped := by
            rw [VenueOrderMap.get_upsert_self hup]
            exact fun hc => by cases hc
          upsert := fun _ => hexchange ▸ VenueOrderMap.upsert_erase hfind hup hv }
      exact ⟨fun _ => Or.inl rfl, fun _ => hreplaced.retrySafe⟩
    · -- the old order is not mapped any more
      have hget : c'.venueOrderMap.get k = none := by
        rw [VenueOrderMap.get_upsert_of_ne hup (Ne.symm hk), h.unique.get_erase_self]
      refine ⟨fun hsafe => absurd hsafe (not_retrySafe_of_get_eq_none hget), ?_⟩
      rintro (hc | ⟨a, ha, hstate, hnot⟩)
      · exact absurd hc hk
      · rw [hhas a ha hstate] at hnot
        cases hnot

/-! ## All requests -/

/-- **A request that has returned OK can be repeated** exactly when it is not a replacement that has
erased the old order. -/
theorem retrySafe_iff {exchange : Exchange} {retryPolicy : RetryPolicy} {file : CString}
    {calls : List ConnectorCall} {r : OrderRequest}
    (hok : (((new exchange retryPolicy file).run calls).serve r answers opened opened').1 = .ok) :
    (((new exchange retryPolicy file).run calls).serve r answers opened opened').2.RetrySafe r ↔
      ((new exchange retryPolicy file).run calls).Repeatable r := by
  have h := (tidy_new exchange retryPolicy file).run calls
  cases r with
  | submit order => exact iff_of_true (h.submitted hok).retrySafe trivial
  | cancel k => exact iff_of_true (h.cancelled hok).retrySafe trivial
  | replace k replacement => exact h.retrySafe_replace_iff hok

def submittedBid : List ConnectorCall := [.request (.submit (bid 11)) accepted true true]

/-- An order that is replaced under its own client order id can be replaced again. -/
theorem retrySafe_sameId :
    (((new .binance ⟨3⟩ []).run submittedBid).serve (.replace 11 (bid 11)) accepted true
      true).2.RetrySafe (.replace 11 (bid 11)) :=
  (retrySafe_iff (by decide +kernel)).mpr (Or.inl rfl)

/-- **An order that is replaced under another id** is not found when the request is repeated. -/
theorem replacedBid_not_retrySafe :
    (((new .binance ⟨3⟩ []).run submittedBid).serve (.replace 11 (bid 12)) accepted true true).1 =
      .ok ∧
    ¬ (((new .binance ⟨3⟩ []).run submittedBid).serve (.replace 11 (bid 12)) accepted true
      true).2.RetrySafe (.replace 11 (bid 12)) :=
  ⟨by decide +kernel, not_retrySafe_of_get_eq_none (by decide +kernel)⟩

end LiveConnectorBase

end TradingInfrastructure
