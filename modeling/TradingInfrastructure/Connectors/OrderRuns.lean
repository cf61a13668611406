import TradingInfrastructure.Connectors.OrderIdentity

/-!
# The invariant of the runs, and submissions

The invariant of the runs of the engine (`Consistent`): every entry of the venue order map was
written for the order last submitted under its client order id, and the journal says so. A
submission keeps it, whether it is answered from the journal, asks the venue or is cut short.
-/

namespace TradingInfrastructure

open Fields (NoBlank)

namespace VenueOrderMap

variable {m m' : VenueOrderMap} {k : ℕ} {e : VenueOrderEntry}

theorem get_eq_some (h : m.get k = some e) : e ∈ m ∧ e.active = true ∧ e.clientOrderId = k := by
  obtain ⟨i, hi, rfl⟩ := Option.map_eq_some_iff.mp h
  obtain ⟨a, ha, hfound, hmem⟩ := SlotPool.getElem?_of_findIdx? hi
  rw [List.getD_eq_getElem?_getD, ha, Option.getD_some]
  exact ⟨hmem, by simpa using hfound⟩

theorem mem_upsert {v : CString} {exchange : Exchange} {symbol : CString}
    (h : m.upsert k v exchange symbol = some m') (he : e ∈ m') :
    e ∈ m ∨ (e.clientOrderId = k ∧ e.venueOrderId = strncpyBuf 48 v) := by
  obtain ⟨i, -, rfl⟩ := Option.map_eq_some_iff.mp h
  rcases SlotPool.mem_modify he with he | ⟨-, -, rfl⟩
  · exact Or.inl he
  · exact Or.inr ⟨rfl, rfl⟩

theorem mem_erase (he : e ∈ m.erase k) : e ∈ m ∨ e.active = false := by
  unfold erase at he
  split at he
  · rcases SlotPool.mem_modify he with he | ⟨-, -, rfl⟩
    · exact Or.inl he
    · exact Or.inr rfl
  · exact Or.inl he

theorem active_of_mem_empty (he : e ∈ empty) : e.active = false := by
  rw [List.eq_of_mem_replicate he]

end VenueOrderMap

/-- The attempts leave a venue order id without blanks when each of them does. -/
theorem noBlank_withRetries {answers : ℕ → VenueAnswer}
    (h : ∀ n v, (answers n).venueOrderId = some v → NoBlank v) :
    ∀ (left attempt : ℕ) (v : CString), NoBlank v →
      NoBlank (withRetries answers left attempt v).2 := by
  intro left
  induction left with
  | zero => exact fun _ _ hv => hv
  | succ left ih =>
    intro attempt v hv
    have hnext : NoBlank ((answers attempt).venueOrderId.getD v) := by
      cases hans : (answers attempt).venueOrderId with
      | none => exact hv
      | some w => exact h attempt w hans
    unfold withRetries
    simp only
    split_ifs
    · exact hnext
    · exact hnext
    · exact ih _ _ hnext

namespace EngineRuns

/-- The entry of the map was written for the order last submitted under its client order id, and
the journal says so. -/
def Traced (accepted : List Submission) (current : ℕ → Option Order) (j : IdempotencyJournal)
    (m : VenueOrderEntry) : Prop :=
  ∃ s ∈ accepted, s.order.clientOrderId = m.clientOrderId ∧
    m.venueOrderId = strncpyBuf 48 s.venueOrderId ∧
    (∃ o, current m.clientOrderId = some o ∧ s.order.SameAs o) ∧
    ∃ e, j.entries.entryOf .submit m.clientOrderId = some e ∧ e.state = .acked ∧
      e.Carries s.venueOrderId

/-- **The invariant of the runs.** -/
structure Consistent (t : EngineRuns) : Prop where
  journal : Sound t.accepted t.cancelled t.connector.journal
  noBlank : ∀ s ∈ t.accepted, NoBlank s.venueOrderId
  cancelled : ∀ m ∈ t.cancelled, ∃ s ∈ t.accepted, s.order.clientOrderId = m.clientOrderId ∧
    m.venueOrderId = strncpyBuf 48 s.venueOrderId
  mapped : ∀ m ∈ t.connector.venueOrderMap, m.active = true →
    Traced t.accepted t.current t.connector.journal m

variable {t : EngineRuns}

/-- Before the first run there is no file, and nothing has been submitted. -/
theorem consistent_start (exchange : Exchange) (retryPolicy : RetryPolicy) :
    (start exchange retryPolicy).Consistent where
  journal := by
    have hempty : Sound [] [] ⟨[], 0, []⟩ :=
      ⟨fun _ he => absurd he List.not_mem_nil, fun _ he => absurd he List.not_mem_nil, [], rfl,
        fun _ he => absurd he List.not_mem_nil⟩
    exact hempty.load
  noBlank _ hs := absurd hs List.not_mem_nil
  cancelled _ hm := absurd hm List.not_mem_nil
  mapped m hm hactive := by
    rw [VenueOrderMap.active_of_mem_empty hm] at hactive
    cases hactive

/-- **A new process keeps the invariant**: it finds in the file what is sound, and has an empty
map. -/
theorem Consistent.reload (h : t.Consistent) (current : ℕ → Option Order) :
    Consistent { t with connector := reload t.connector, current := current } where
  journal := h.journal.load
  noBlank := h.noBlank
  cancelled := h.cancelled
  mapped m hm hactive := by
    rw [VenueOrderMap.active_of_mem_empty hm] at hactive
    cases hactive

/-- More accepted submissions. -/
theorem Consistent.accept (h : t.Consistent) {accepted : List Submission}
    (hsub : ∀ s ∈ t.accepted, s ∈ accepted) (hnew : ∀ s ∈ accepted, NoBlank s.venueOrderId) :
    Consistent { t with accepted := accepted } where
  journal := h.journal.mono hsub fun _ hm => hm
  noBlank := hnew
  cancelled m hm := by
    obtain ⟨s, hs, hrest⟩ := h.cancelled m hm
    exact ⟨s, hsub s hs, hrest⟩
  mapped m hm hactive := by
    obtain ⟨s, hs, hrest⟩ := h.mapped m hm hactive
    exact ⟨s, hsub s hs, hrest⟩

/-- An entry that `begin` sends is well formed. -/
theorem Sound.wellFormed_sent {A : List Submission} {C : List VenueOrderEntry}
    {j : IdempotencyJournal} (h : Sound A C j) {op : JournalOperation} {k : ℕ} {e : JournalEntry}
    (he : e ∈ j.entries ∨ e = { used := true, op := op, clientOrderId := k })
    (hop : JournalOperation.ofCode op.code = op ∧ op.code < 256) (hk : k < 2 ^ 64) :
    (IdempotencyJournal.sent e 0).WellFormed := by
  have hwf : e.WellFormed := by
    rcases he with he | rfl
    · exact (h.entries e he).1
    · exact { JournalEntry.wellFormed_default with op := hop, clientOrderId := hk }
  exact hwf.sent (by norm_num)

theorem not_acked_sent {e : JournalEntry} {related : ℕ} :
    (IdempotencyJournal.sent e related).state ≠ .acked := by
  simp [IdempotencyJournal.sent]

theorem not_acked_failed {e : JournalEntry} {related : ℕ} :
    ({ e with state := .failed, relatedClientOrderId := related } : JournalEntry).state ≠
      .acked := by
  simp

/-- The map stays as it is, and so do the journal entries of the mapped orders. -/
theorem Consistent.withJournal (h : t.Consistent) {j : IdempotencyJournal}
    (hsound : Sound t.accepted t.cancelled j)
    (hentries : ∀ m ∈ t.connector.venueOrderMap, m.active = true →
      j.entries.entryOf .submit m.clientOrderId =
        t.connector.journal.entries.entryOf .submit m.clientOrderId) :
    Consistent { t with connector := { t.connector with journal := j } } where
  journal := hsound
  noBlank := h.noBlank
  cancelled := h.cancelled
  mapped m hm hactive := by
    obtain ⟨s, hs, hid, hv, hcurrent, e, he, hrest⟩ := h.mapped m hm hactive
    exact ⟨s, hs, hid, hv, hcurrent, e, (hentries m hm hactive).trans he, hrest⟩

/-- An order is mapped to the id of an accepted submission of the order that its journal entry
carries. -/
theorem Consistent.mapOrder (h : t.Consistent) {s : Submission} (hs : s ∈ t.accepted) {k : ℕ}
    (hid : s.order.clientOrderId = k) {o : Order} (ho : t.current k = some o)
    (hso : s.order.SameAs o) {e : JournalEntry}
    (he : t.connector.journal.entries.entryOf .submit k = some e) (hacked : e.state = .acked)
    (hcarries : e.Carries s.venueOrderId) {v : CString}
    (hv : strncpyBuf 48 v = strncpyBuf 48 s.venueOrderId) (symbol : Symbol) :
    Consistent { t with connector := (t.connector.mapOrder k v symbol).2 } := by
  unfold LiveConnectorBase.mapOrder
  cases hup : t.connector.venueOrderMap.upsert k v t.connector.exchange symbol.chars with
  | none => exact h
  | some m' =>
    refine ⟨h.journal, h.noBlank, h.cancelled, fun m hm hactive => ?_⟩
    rcases VenueOrderMap.mem_upsert hup hm with hm | ⟨rfl, hmv⟩
    · exact h.mapped m hm hactive
    · exact ⟨s, hs, hid, hmv.trans hv, ⟨o, ho, hso⟩, e, he, hacked, hcarries⟩

/-! ## Submissions -/

theorem Consistent.note (h : t.Consistent) {order : Order} (hown : t.OwnEntry order) :
    Consistent { t with current := t.noteOrder order } where
  journal := h.journal
  noBlank := h.noBlank
  cancelled := h.cancelled
  mapped m hm hactive := by
    obtain ⟨s, hs, hid, hv, ⟨o, ho, hso⟩, e, he, hacked, hcarries⟩ := h.mapped m hm hactive
    refine ⟨s, hs, hid, hv, ?_, e, he, hacked, hcarries⟩
    by_cases hk : m.clientOrderId = order.clientOrderId
    · rw [hk] at he
      exact ⟨order, by rw [hk]; exact Function.update_self .., hown e he hacked s hs (hid.trans hk)
        hcarries⟩
    · exact ⟨o, (Function.update_of_ne hk ..).trans ho, hso⟩

/-- What is known when the venue is asked for an order: its entry is in the journal, and the map has
none for it. -/
structure Asking (t : EngineRuns) (order : Order) : Prop where
  consistent : t.Consistent
  current : t.current order.clientOrderId = some order
  entry : ∃ e, t.connector.journal.entries.entryOf .submit order.clientOrderId = some e
  unmapped : ∀ m ∈ t.connector.venueOrderMap, m.active = true →
    m.clientOrderId ≠ order.clientOrderId

/-- **The start of a submission**: it is answered from the journal, with an OK only for an order
that the venue has accepted, or the venue is asked. -/
theorem Consistent.beginSubmit_cases (h : t.Consistent) {order : Order} (hown : t.OwnEntry order)
    (hk : order.clientOrderId < 2 ^ 64) (opened : Bool) :
    (∃ r c, t.connector.beginSubmit order opened = (some r, c) ∧
      Consistent { t with connector := c, current := t.noteOrder order } ∧
      (r = .ok → t.Submitted order)) ∨
    ∃ c, t.connector.beginSubmit order opened = (none, c) ∧
      Asking { t with connector := c, current := t.noteOrder order } order := by
  obtain ⟨d, j', hbegin⟩ : ∃ d j',
    t.connector.journal.begin .submit order.clientOrderId 0 opened = (d, j') := ⟨_, _, rfl⟩
  have hcases := IdempotencyJournal.begin_cases h.journal.idle .submit order.clientOrderId 0 opened
  rw [hbegin] at hcases
  have hnote := h.note hown
  have hcurrent : t.noteOrder order order.clientOrderId = some order := Function.update_self ..
  -- the entries of mapped orders are acked
  have hunmapped : (∀ e, t.connector.journal.entries.entryOf .submit order.clientOrderId = some e →
      e.state ≠ .acked) → ∀ m ∈ t.connector.venueOrderMap, m.active = true →
        m.clientOrderId ≠ order.clientOrderId := by
    intro hnot m hm hactive hmk
    obtain ⟨-, -, -, -, -, e, he, hacked, -⟩ := h.mapped m hm hactive
    exact hnot e (hmk ▸ he) hacked
  simp only [LiveConnectorBase.beginSubmit, hbegin]
  rcases hcases with ⟨-, heq⟩ | ⟨e, he, hheld, rfl, hentries, hfile⟩ |
    ⟨hnot, e, hmem, hused, hop, hid, rfl, hputs⟩
  · -- the table is full
    obtain ⟨rfl, rfl⟩ := Prod.mk.inj heq
    exact Or.inl ⟨.errorUnknown, t.connector, rfl, hnote, fun hc => by cases hc⟩
  · -- the entry is held as it is
    simp only at hentries hfile
    have hsame : Consistent { t with
        connector := { t.connector with journal := j' }, current := t.noteOrder order } :=
      hnote.withJournal (h.journal.of_eq hentries hfile) fun _ _ _ => by rw [hentries]
    have hstate : e.decision.state = e.state := rfl
    rcases hheld with hacked | hinFlight
    · obtain ⟨hmem, -, hop, hid⟩ := JournalTable.entryOf_eq_some he
      obtain ⟨hwf, hbacked⟩ := h.journal.entries e hmem
      obtain ⟨s, hs, hsid, hcarries⟩ := (hbacked hacked).1 hop
      have hso := hown e he hacked s hs (hsid.trans hid) hcarries
      have hsubmitted : t.Submitted order := ⟨s, hs, hsid.trans hid, hso⟩
      simp only [JournalDecision.alreadyAcked, hstate, hacked, beq_self_eq_true, if_true]
      split
      · next hhas =>
        have hv : strncpyBuf 48 e.decision.venueOrderId = strncpyBuf 48 s.venueOrderId := by
          rw [JournalEntry.decision, strncpyBuf_of_length_lt hwf.length_lt]
          rcases hcarries with hc | ⟨-, hc⟩
          · rw [hc, strncpyBuf_strncpyBuf (by decide)]
          · simp [JournalEntry.decision, hc, LiveConnectorBase.hasVenueOrderId, strncpyBuf] at hhas
        refine Or.inl ⟨_, _, rfl, ?_, fun _ => hsubmitted⟩
        exact hsame.mapOrder hs (hsid.trans hid) hcurrent hso (hentries ▸ he) hacked hcarries hv _
      · exact Or.inl ⟨.ok, _, rfl, hsame, fun _ => hsubmitted⟩
    · -- an entry that is in flight is sent again as it is
      have hne : (JournalState.inFlight == JournalState.acked) = false := rfl
      simp only [JournalDecision.alreadyAcked, JournalDecision.shouldSendToVenue, hstate, hinFlight,
        hne, beq_self_eq_true, Bool.not_true, Bool.false_eq_true, if_false]
      refine Or.inr ⟨_, rfl, hsame, hcurrent, ⟨e, by rw [← he, ← hentries]⟩,
        hunmapped fun e' he' => ?_⟩
      rw [← Option.some.inj (he.symm.trans he'), hinFlight]
      decide
  · -- the entry is sent
    have hwf := h.journal.wellFormed_sent hmem ⟨rfl, show 0 < 256 by decide⟩ hk
    have hunmapped := hunmapped hnot
    refine Or.inr ⟨_, rfl, ?_, hcurrent, ⟨_, hputs.writes.self⟩, hunmapped⟩
    refine hnote.withJournal (h.journal.puts hputs hwf hused (.of_ne not_acked_sent))
      fun m hm hactive => ?_
    refine hputs.writes.other _ _ fun hc => hunmapped m hm hactive (Prod.mk.inj hc).2

/-- The venue has accepted the order. -/
theorem Asking.finishSubmit_ok {order : Order} (h : t.Asking order) {v : CString} (hv : NoBlank v)
    (key : CString) (opened : Bool) :
    Consistent { t with
      accepted := t.accepted ++ [⟨order, key, v⟩]
      connector := (t.connector.finishSubmit order .ok v opened).2 } := by
  obtain ⟨e, he⟩ := h.entry
  obtain ⟨hmem, hused, hop, hid⟩ := JournalTable.entryOf_eq_some he
  have hwf := (h.consistent.journal.entries e hmem).1
  have hnew : (⟨order, key, v⟩ : Submission) ∈ t.accepted ++ [⟨order, key, v⟩] := by simp
  have haccept : Consistent { t with accepted := t.accepted ++ [⟨order, key, v⟩] } := by
    refine h.consistent.accept (fun s hs => List.mem_append_left _ hs) fun s hs => ?_
    rcases List.mem_append.mp hs with hs | hs
    · exact h.consistent.noBlank s hs
    · rw [List.mem_singleton.mp hs]
      exact hv
  have hputs := IdempotencyJournal.ack_puts he v 0 opened
  have hacked : JournalEntry.WellFormed { e with
      state := .acked, relatedClientOrderId := 0, venueOrderId := strncpyBuf 64 v } :=
    hwf.acked (by norm_num) hv
  have hjournal := haccept.withJournal
    (haccept.journal.puts hputs hacked hused fun _ => ⟨fun _ => ⟨_, hnew, hid.symm, Or.inl rfl⟩,
      fun hcancel => absurd (hop.symm.trans hcancel) (by decide)⟩)
    fun m hm hactive => hputs.writes.other _ _ fun hc => h.unmapped m hm hactive (Prod.mk.inj hc).2
  exact hjournal.mapOrder hnew rfl h.current (.refl order) hputs.writes.self rfl (Or.inl rfl) rfl _

/-- The venue has not accepted the order. -/
theorem Asking.finishSubmit_failed {order : Order} (h : t.Asking order) {r : ConnectorResult}
    (hr : r ≠ .ok) (v : CString) (opened : Bool) :
    Consistent { t with connector := (t.connector.finishSubmit order r v opened).2 } := by
  obtain ⟨e, he⟩ := h.entry
  obtain ⟨hmem, hused, -, -⟩ := JournalTable.entryOf_eq_some he
  have hwf := (h.consistent.journal.entries e hmem).1
  have hputs := IdempotencyJournal.fail_puts he 0 opened
  have hfailed : JournalEntry.WellFormed { e with state := .failed, relatedClientOrderId := 0 } :=
    hwf.withState ⟨rfl, show 3 < 256 by decide⟩ (by norm_num)
  simp only [LiveConnectorBase.finishSubmit, hr, if_false]
  exact h.consistent.withJournal
    (h.consistent.journal.puts hputs hfailed hused (.of_ne not_acked_failed))
    fun m hm hactive => hputs.writes.other _ _ fun hc => h.unmapped m hm hactive (Prod.mk.inj hc).2

/-- **A submission** keeps the invariant, and an OK says that the venue has accepted the order. -/
theorem Consistent.submit (h : t.Consistent) {order : Order} {answers : ℕ → VenueAnswer}
    (hwords : ∀ n v, (answers n).venueOrderId = some v → NoBlank v) (hown : t.OwnEntry order)
    (hk : order.clientOrderId < 2 ^ 64) (opened opened' : Bool) :
    Consistent (t.step (.submit order answers opened opened')) ∧
      t.Honest (.submit order answers opened opened') := by
  rcases h.beginSubmit_cases hown hk opened with ⟨r, c, hbegin, hafter, hok⟩ | ⟨c, hbegin, hasking⟩
  · have hstep : t.step (.submit order answers opened opened') =
        { t with connector := c, current := t.noteOrder order } := by
      simp only [step, LiveConnectorBase.submitOrder, acceptedAfter, hbegin]
    refine ⟨hstep ▸ hafter, fun hresult => ?_⟩
    rw [result, LiveConnectorBase.submitOrder, hbegin] at hresult
    rw [hstep]
    exact hok (Option.some.inj hresult)
  · obtain ⟨r, v, hattempt⟩ : ∃ r v, c.attempt answers = (r, v) := ⟨_, _, rfl⟩
    have hv : NoBlank v := by
      have hnil : NoBlank (c.attempt answers).2 := noBlank_withRetries hwords _ 1 [] (by decide)
      rwa [hattempt] at hnil
    by_cases hr : r = .ok
    · subst hr
      have hstep : t.step (.submit order answers opened opened') =
          { connector := (c.finishSubmit order .ok v opened').2
            accepted := t.accepted ++ [⟨order, c.makeIdempotencyKey order.clientOrderId, v⟩]
            cancelled := t.cancelled
            current := t.noteOrder order } := by
        simp only [step, LiveConnectorBase.submitOrder, acceptedAfter, hbegin, hattempt]
      refine ⟨hstep ▸ hasking.finishSubmit_ok hv _ opened', fun _ => ?_⟩
      rw [hstep]
      exact ⟨_, List.mem_append_right _ (List.mem_singleton_self _), rfl, .refl order⟩
    · have hstep : t.step (.submit order answers opened opened') =
          { t with
            connector := (c.finishSubmit order r v opened').2
            current := t.noteOrder order } := by
        simp only [step, LiveConnectorBase.submitOrder, acceptedAfter, hbegin, hattempt]
        split
        · next heq => exact absurd (Prod.mk.inj heq).1 hr
        · rfl
      refine ⟨hstep ▸ hasking.finishSubmit_failed hr v opened', fun hresult => ?_⟩
      rw [result, LiveConnectorBase.submitOrder, hbegin] at hresult
      simp only [hattempt, LiveConnectorBase.finishSubmit, hr, if_false,
        Option.some.injEq] at hresult

theorem accepted_subset_acceptedAfter {order : Order} {answers : ℕ → VenueAnswer} {opened : Bool}
    {s : Submission} (hs : s ∈ t.accepted) : s ∈ t.acceptedAfter order answers opened := by
  unfold acceptedAfter
  split
  · exact hs
  · split
    · exact List.mem_append_left _ hs
    · exact hs

theorem noBlank_acceptedAfter (h : t.Consistent) {order : Order} {answers : ℕ → VenueAnswer}
    (hwords : ∀ n v, (answers n).venueOrderId = some v → NoBlank v) {opened : Bool} {s : Submission}
    (hs : s ∈ t.acceptedAfter order answers opened) : NoBlank s.venueOrderId := by
  unfold acceptedAfter at hs
  split at hs
  · exact h.noBlank s hs
  · next c _ =>
    split at hs
    · next v hattempt =>
      rcases List.mem_append.mp hs with hs | hs
      · exact h.noBlank s hs
      · have hv : NoBlank (c.attempt answers).2 := noBlank_withRetries hwords _ 1 [] (by decide)
        rw [hattempt] at hv
        rw [List.mem_singleton.mp hs]
        exact hv
    · exact h.noBlank s hs

/-- **A submission that is cut short** keeps the invariant. -/
theorem Consistent.submitCut (h : t.Consistent) {order : Order} {answers : ℕ → VenueAnswer}
    (hwords : ∀ n v, (answers n).venueOrderId = some v → NoBlank v) (hown : t.OwnEntry order)
    (hk : order.clientOrderId < 2 ^ 64) (opened asked : Bool) :
    Consistent (t.step (.submitCut order answers opened asked)) := by
  have hbegin : Consistent { t with
      connector := (t.connector.beginSubmit order opened).2, current := t.noteOrder order } := by
    rcases h.beginSubmit_cases hown hk opened with ⟨r, c, hbegin, hafter, -⟩ | ⟨c, hbegin, hasking⟩
    · rw [hbegin]
      exact hafter
    · rw [hbegin]
      exact hasking.consistent
  have hreload := hbegin.reload (t.noteOrder order)
  cases asked with
  | false => exact hreload
  | true =>
    exact hreload.accept (fun s hs => accepted_subset_acceptedAfter hs) fun s hs =>
      noBlank_acceptedAfter h hwords hs

end EngineRuns

end TradingInfrastructure
