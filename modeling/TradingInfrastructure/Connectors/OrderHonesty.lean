import TradingInfrastructure.Connectors.OrderRuns

/-!
# Cancels, and what an OK says

The cancels keep the invariant of the runs too. So over all runs of the engine an OK is only
returned for what the venue has accepted (`honest_run`), as long as no answer of the journal is
about another order. An engine that numbers its orders from one again asks for such an answer
(`renumbered_dishonest`).
-/

namespace TradingInfrastructure

open Fields (NoBlank)

namespace EngineRuns

variable {t : EngineRuns}

/-! ## Cancels -/

/-- The entry of the map that the venue is asked to cancel, when its cancel is in the journal. -/
structure Cancelling (t : EngineRuns) (clientOrderId : ℕ) (mapped : VenueOrderEntry) : Prop where
  consistent : t.Consistent
  entry : ∃ e, t.connector.journal.entries.entryOf .cancel clientOrderId = some e
  mem : mapped ∈ t.connector.venueOrderMap
  active : mapped.active = true
  clientOrderId : mapped.clientOrderId = clientOrderId

/-- A journal whose entry of a cancel has changed. -/
theorem Consistent.putsCancel (h : t.Consistent) {j : IdempotencyJournal} {k : ℕ} {opened : Bool}
    {e : JournalEntry} (hputs : IdempotencyJournal.Puts t.connector.journal j .cancel k opened e)
    (hwf : e.WellFormed) (hused : e.used = true) (hbacked : Backed t.accepted t.cancelled e) :
    Consistent { t with connector := { t.connector with journal := j } } :=
  h.withJournal (h.journal.puts hputs hwf hused hbacked) fun _ _ _ =>
    hputs.writes.other _ _ fun hc => by cases (Prod.mk.inj hc).1

/-- The cancel of an order fails. -/
theorem Consistent.failCancel (h : t.Consistent) {k : ℕ} {e : JournalEntry}
    (he : t.connector.journal.entries.entryOf .cancel k = some e) (opened : Bool) :
    Consistent { t with connector := { t.connector with
      journal := t.connector.journal.fail .cancel k 0 opened } } := by
  obtain ⟨hmem, hused, -, -⟩ := JournalTable.entryOf_eq_some he
  have hwf := (h.journal.entries e hmem).1
  have hfailed : JournalEntry.WellFormed { e with state := .failed, relatedClientOrderId := 0 } :=
    hwf.withState ⟨rfl, show 3 < 256 by decide⟩ (by norm_num)
  exact h.putsCancel (IdempotencyJournal.fail_puts he 0 opened) hfailed hused
    (.of_ne not_acked_failed)

/-- What the start of a cancel leaves: an answer, with an OK only when the venue has cancelled the
order, or what the venue is asked to cancel. -/
def CancelBegun (t : EngineRuns) (clientOrderId : ℕ) :
    (ConnectorResult ⊕ VenueOrderEntry) × LiveConnectorBase → Prop
  | (.inl result, c) => Consistent { t with connector := c } ∧
      (result = .ok → ∃ o, t.current clientOrderId = some o ∧ t.Withdrawn o clientOrderId)
  | (.inr mapped, c) => Cancelling { t with connector := c } clientOrderId mapped

/-- **The start of a cancel**: it is answered without the venue, or the venue is asked to cancel
what the map has for the order. -/
theorem Consistent.beginCancel_begun (h : t.Consistent) {k : ℕ} (hown : t.OwnCancel k)
    (hk : k < 2 ^ 64) (opened opened' : Bool) :
    t.CancelBegun k (t.connector.beginCancel k opened opened') := by
  obtain ⟨d, j', hbegin⟩ : ∃ d j', t.connector.journal.begin .cancel k 0 opened = (d, j') :=
    ⟨_, _, rfl⟩
  have hcases := IdempotencyJournal.begin_cases h.journal.idle .cancel k 0 opened
  rw [hbegin] at hcases
  simp only [LiveConnectorBase.beginCancel, hbegin]
  split
  · exact ⟨h, fun hc => by cases hc⟩
  -- what follows when the cancel is sent to the venue
  have hsend : ∀ e : JournalEntry, j'.entries.entryOf .cancel k = some e →
      Consistent { t with connector := { t.connector with journal := j' } } →
      (t.connector.venueOrderMap.get k = none → t.CancelBegun k
        (.inl .errorInvalidOrder, { t.connector with journal := j'.fail .cancel k 0 opened' })) ∧
      ∀ mapped, t.connector.venueOrderMap.get k = some mapped →
        t.CancelBegun k (.inr mapped, { t.connector with journal := j' }) := by
    intro e he hafter
    refine ⟨fun _ => ⟨hafter.failCancel he opened', fun hc => by cases hc⟩, fun mapped hget => ?_⟩
    obtain ⟨hmem, hactive, hid⟩ := VenueOrderMap.get_eq_some hget
    exact ⟨hafter, ⟨e, he⟩, hmem, hactive, hid⟩
  have hne : (JournalState.inFlight == JournalState.acked) = false := rfl
  rcases hcases with ⟨-, heq⟩ | ⟨e, he, hheld, rfl, hentries, hfile⟩ |
    ⟨-, e, hmem, hused, hop, hid, rfl, hputs⟩
  · -- the table is full
    obtain ⟨rfl, rfl⟩ := Prod.mk.inj heq
    exact ⟨h, fun hc => by cases hc⟩
  · -- the entry is held as it is
    simp only at hentries hfile
    have hsame : Consistent { t with connector := { t.connector with journal := j' } } :=
      h.withJournal (h.journal.of_eq hentries hfile) fun _ _ _ => by rw [hentries]
    have hstate : e.decision.state = e.state := rfl
    rcases hheld with hacked | hinFlight
    · obtain ⟨hmem, -, hop, hid⟩ := JournalTable.entryOf_eq_some he
      obtain ⟨m, hm, hmid, hcarries⟩ := ((h.journal.entries e hmem).2 hacked).2 hop
      obtain ⟨s, hs, hsid, hsv⟩ := h.cancelled m hm
      have hsk : s.order.clientOrderId = k := hsid.trans (hmid.trans hid)
      obtain ⟨o, ho, hso⟩ := hown e he hacked s hs hsk (hsv ▸ hcarries)
      simp only [JournalDecision.alreadyAcked, hstate, hacked, beq_self_eq_true, if_true]
      exact ⟨hsame, fun _ => ⟨o, ho, s, hs, hsk, hso, m, hm, hmid.trans hid, hsv⟩⟩
    · -- an entry that is in flight is sent again as it is
      simp only [JournalDecision.alreadyAcked, JournalDecision.shouldSendToVenue, hstate, hinFlight,
        hne, beq_self_eq_true, Bool.not_true, Bool.false_eq_true, if_false]
      have hsent := hsend e (by rw [hentries]; exact he) hsame
      split
      · next hget => exact hsent.1 hget
      · next mapped hget => exact hsent.2 mapped hget
  · -- the entry is sent
    have hwf := h.journal.wellFormed_sent hmem ⟨rfl, show 1 < 256 by decide⟩ hk
    have hsent := hsend _ hputs.writes.self (h.putsCancel hputs hwf hused (.of_ne not_acked_sent))
    simp only [JournalDecision.alreadyAcked, JournalDecision.shouldSendToVenue,
      JournalEntry.decision,
      IdempotencyJournal.sent, hne, beq_self_eq_true, Bool.not_true, Bool.false_eq_true, if_false]
    split
    · next hget => exact hsent.1 hget
    · next mapped hget => exact hsent.2 mapped hget

/-- The venue has cancelled the order. -/
theorem Cancelling.finishCancel_ok {k : ℕ} {mapped : VenueOrderEntry} (h : t.Cancelling k mapped)
    (opened : Bool) :
    Consistent { t with
      connector := (t.connector.finishCancel k mapped .ok opened).2
      cancelled := t.cancelled ++ [mapped] } := by
  obtain ⟨e, he⟩ := h.entry
  obtain ⟨hmem, hused, hop, hid⟩ := JournalTable.entryOf_eq_some he
  have hwf := (h.consistent.journal.entries e hmem).1
  obtain ⟨s, hs, hsid, hsv, -⟩ := h.consistent.mapped mapped h.mem h.active
  have hnew : mapped ∈ t.cancelled ++ [mapped] := by simp
  have hword : NoBlank mapped.venueOrderId := fun c hc =>
    h.consistent.noBlank s hs c (List.mem_of_mem_take (hsv ▸ hc))
  have haccept : Consistent { t with cancelled := t.cancelled ++ [mapped] } :=
    { h.consistent with
      journal := h.consistent.journal.mono (fun _ hs => hs) fun _ hm => List.mem_append_left _ hm
      cancelled := fun m hm => by
        rcases List.mem_append.mp hm with hm | hm
        · exact h.consistent.cancelled m hm
        · rw [List.mem_singleton.mp hm]
          exact ⟨s, hs, hsid, hsv⟩ }
  have hputs := IdempotencyJournal.ack_puts he mapped.venueOrderId 0 opened
  have hacked : JournalEntry.WellFormed { e with
      state := .acked, relatedClientOrderId := 0,
      venueOrderId := strncpyBuf 64 mapped.venueOrderId } :=
    hwf.acked (by norm_num) hword
  have hjournal := haccept.putsCancel hputs hacked hused fun _ =>
    ⟨fun hsubmit => absurd (hop.symm.trans hsubmit) (by decide),
      fun _ => ⟨mapped, hnew, h.clientOrderId.trans hid.symm, Or.inl rfl⟩⟩
  refine { hjournal with mapped := fun m hm hactive => ?_ }
  rcases VenueOrderMap.mem_erase hm with hm | hinactive
  · exact hjournal.mapped m hm hactive
  · rw [hinactive] at hactive
    cases hactive

/-- **A cancel** keeps the invariant, and an OK says that the venue has cancelled the order. -/
theorem Consistent.cancel (h : t.Consistent) {k : ℕ} (hown : t.OwnCancel k) (hk : k < 2 ^ 64)
    (answers : ℕ → VenueAnswer) (opened opened' : Bool) :
    Consistent (t.step (.cancel k answers opened opened')) ∧
      t.Honest (.cancel k answers opened opened') := by
  have hbegun := h.beginCancel_begun hown hk opened opened'
  match hbegin : t.connector.beginCancel k opened opened' with
  | (.inl r, c) =>
    rw [hbegin] at hbegun
    obtain ⟨hafter, hok⟩ := hbegun
    have hstep : t.step (.cancel k answers opened opened') = { t with connector := c } := by
      simp only [step, LiveConnectorBase.cancelOrder, cancelledAfter, hbegin]
    refine ⟨hstep ▸ hafter, fun hresult => ?_⟩
    rw [result, LiveConnectorBase.cancelOrder, hbegin] at hresult
    rw [hstep]
    exact hok (Option.some.inj hresult)
  | (.inr mapped, c) =>
    rw [hbegin] at hbegun
    replace hbegun : Cancelling { t with connector := c } k mapped := hbegun
    obtain ⟨r, v, hattempt⟩ : ∃ r v, c.attempt answers = (r, v) := ⟨_, _, rfl⟩
    by_cases hr : r = .ok
    · subst hr
      have hstep : t.step (.cancel k answers opened opened') =
          { t with
            connector := (c.finishCancel k mapped .ok opened').2
            cancelled := t.cancelled ++ [mapped] } := by
        simp only [step, LiveConnectorBase.cancelOrder, cancelledAfter, hbegin, hattempt]
      refine ⟨hstep ▸ hbegun.finishCancel_ok opened', fun _ => ?_⟩
      obtain ⟨s, hs, hsid, hsv, ⟨o, ho, hso⟩, -⟩ :=
        hbegun.consistent.mapped mapped hbegun.mem hbegun.active
      rw [hbegun.clientOrderId] at hsid ho
      rw [hstep]
      exact ⟨o, ho, s, hs, hsid, hso, mapped, by simp, hbegun.clientOrderId, hsv⟩
    · have hstep : t.step (.cancel k answers opened opened') =
          { t with connector := (c.finishCancel k mapped r opened').2 } := by
        simp only [step, LiveConnectorBase.cancelOrder, cancelledAfter, hbegin, hattempt]
        split
        · next heq => exact absurd (Prod.mk.inj heq).1 hr
        · rfl
      obtain ⟨e, he⟩ := hbegun.entry
      have hfail := hbegun.consistent.failCancel he opened'
      refine ⟨?_, fun hresult => ?_⟩
      · rw [hstep]
        simp only [LiveConnectorBase.finishCancel, hr, if_false]
        exact hfail
      · rw [result, LiveConnectorBase.cancelOrder, hbegin] at hresult
        simp only [hattempt, LiveConnectorBase.finishCancel, hr, if_false,
          Option.some.injEq] at hresult

theorem CancelBegun.consistent {k : ℕ} {x : (ConnectorResult ⊕ VenueOrderEntry) × LiveConnectorBase}
    (h : t.CancelBegun k x) : Consistent { t with connector := x.2 } :=
  match x, h with
  | (.inl _, _), h => h.1
  | (.inr _, _), h => Cancelling.consistent h

theorem cancelled_subset_cancelledAfter {k : ℕ} {answers : ℕ → VenueAnswer} {opened opened' : Bool}
    {m : VenueOrderEntry} (hm : m ∈ t.cancelled) :
    m ∈ t.cancelledAfter k answers opened opened' := by
  unfold cancelledAfter
  split
  · exact hm
  · split
    · exact List.mem_append_left _ hm
    · exact hm

/-- What the venue has cancelled, it has accepted before. -/
theorem CancelBegun.cancelledAfter {k : ℕ} {opened opened' : Bool}
    (h : t.CancelBegun k (t.connector.beginCancel k opened opened')) {answers : ℕ → VenueAnswer}
    {m : VenueOrderEntry} (hm : m ∈ t.cancelledAfter k answers opened opened') :
    ∃ s ∈ t.accepted, s.order.clientOrderId = m.clientOrderId ∧
      m.venueOrderId = strncpyBuf 48 s.venueOrderId := by
  have hbefore := h.consistent.cancelled
  unfold EngineRuns.cancelledAfter at hm
  split at hm
  · exact hbefore m hm
  · next mapped c hbegin =>
    rw [hbegin] at h
    split at hm
    · rcases List.mem_append.mp hm with hm | hm
      · exact hbefore m hm
      · rw [List.mem_singleton.mp hm]
        obtain ⟨s, hs, hid, hv, -⟩ := h.consistent.mapped mapped h.mem h.active
        exact ⟨s, hs, hid, hv⟩
    · exact hbefore m hm

/-- **A cancel that is cut short** keeps the invariant. -/
theorem Consistent.cancelCut (h : t.Consistent) {k : ℕ} (hown : t.OwnCancel k) (hk : k < 2 ^ 64)
    (answers : ℕ → VenueAnswer) (opened opened' asked : Bool) :
    Consistent (t.step (.cancelCut k answers opened opened' asked)) := by
  have hbegun := h.beginCancel_begun hown hk opened opened'
  have hreload := hbegun.consistent.reload t.current
  cases asked with
  | false => exact hreload
  | true =>
    exact { hreload with
      journal := hreload.journal.mono (fun _ hs => hs) fun _ hm =>
        cancelled_subset_cancelledAfter hm
      cancelled := fun _ hm => hbegun.cancelledAfter hm }

/-! ## Runs -/

/-- **One call**: the invariant is kept, and an OK is the truth. -/
theorem Consistent.call (h : t.Consistent) {c : LiveCall} (htyped : c.Typed) (hclean : t.Clean c) :
    Consistent (t.step c) ∧ t.Honest c := by
  cases c with
  | submit order answers opened opened' => exact h.submit hclean.1 hclean.2 htyped opened opened'
  | cancel k answers opened opened' => exact h.cancel hclean htyped answers opened opened'
  | submitCut order answers opened asked =>
    exact ⟨h.submitCut hclean.1 hclean.2 htyped opened asked, fun hc => by cases hc⟩
  | cancelCut k answers opened opened' asked =>
    exact ⟨h.cancelCut hclean htyped answers opened opened' asked, fun hc => by cases hc⟩
  | restart => exact ⟨h.reload t.current, fun hc => by cases hc⟩

/-- **An OK is only returned for what the venue has accepted**, in all runs of the engine in which
no answer of the journal is about another order. -/
theorem honest_run (exchange : Exchange) (retryPolicy : RetryPolicy) {calls : List LiveCall}
    (htyped : ∀ c ∈ calls, c.Typed)
    (hclean : AllSteps step Clean (start exchange retryPolicy) calls) :
    AllSteps step Honest (start exchange retryPolicy) calls :=
  hclean.imp_of_invariant (fun _ _ h htyped hclean => h.call htyped hclean)
    (consistent_start exchange retryPolicy) htyped

/-! ## An order that another one stands for -/

/-- One bitcoin is bought. -/
def boughtBitcoin : Order :=
  { clientOrderId := 1, symbol := copySymbol "BTCUSDT".toList, side := .bid, price := 100,
    quantity := 1 }

/-- Two ether are sold, under the same client order id. -/
def soldEther : Order :=
  { clientOrderId := 1, symbol := copySymbol "ETHUSDT".toList, side := .ask, price := 50,
    quantity := 2 }

/-- The venue accepts every order. -/
def accepts : ℕ → VenueAnswer := fun _ => { result := .ok, venueOrderId := some "V1".toList }

/-- An order is submitted and withdrawn, and its submission is answered from the journal after a new
start of the engine. -/
theorem honest_run_sameOrder :
    AllSteps step Honest (start .binance ⟨3⟩)
      [.submit boughtBitcoin accepts true true, .cancel 1 accepts true true, .restart,
        .submit boughtBitcoin accepts true true] := by
  have hwords : ∀ n v, (accepts n).venueOrderId = some v → NoBlank v := by
    intro n v hv
    cases hv
    decide
  refine honest_run .binance ⟨3⟩ ?_ ?_
  · simp [LiveCall.Typed, boughtBitcoin]
  · exact ⟨⟨hwords, by decide +kernel⟩, show OwnCancel _ 1 by decide +kernel, trivial,
      ⟨hwords, by decide +kernel⟩, trivial⟩

/-- The second run of the engine numbers its first order like the first run did. -/
def renumberedCalls : List LiveCall :=
  [.submit boughtBitcoin accepts true true, .restart, .submit soldEther accepts true true]

/-- **The order is answered with OK** by the entry of the other one. Nothing is sent to the
venue. -/
theorem renumbered_dishonest :
    (∀ c ∈ renumberedCalls, c.Typed) ∧ ¬ AllSteps step Honest
    (start .binance ⟨3⟩) renumberedCalls := by
  refine ⟨by simp [renumberedCalls, LiveCall.Typed, boughtBitcoin, soldEther], fun h => ?_⟩
  have hsubmitted : Submitted _ soldEther := h.2.2.1 (by decide +kernel)
  exact absurd hsubmitted (by decide +kernel)

end EngineRuns

end TradingInfrastructure
