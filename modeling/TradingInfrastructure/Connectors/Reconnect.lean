import TradingInfrastructure.Connectors.JournalCapacity

/-!
# Orders that stay cancellable

The journal and the venue order map are two stores of what is at the venue. A cancel needs both: an
entry of the journal, or room for one, and the venue order id of the order in the map
(`Session.Ready`). The requests keep them together, but for a full table, a full map, a long venue
order id, and a replacement under the client order id of another order. `reconcile` reads one store
again and empties the other, so no order can be cancelled after it (`cancellable_run`).
-/

namespace TradingInfrastructure

open JournalTable (entryOf)

/-- The connector, and the orders that the venue has accepted, and has neither cancelled nor
replaced since. -/
structure Session where
  connector : LiveConnectorBase
  live : Finset ℕ

/-- The venue accepts the request, and the file can be opened. -/
def ConnectorCall.Accepted : ConnectorCall → Prop
  | request _ answers opened opened' =>
    (∀ n, (answers n).result = .ok) ∧ opened = true ∧ opened' = true
  | reconcile => True

namespace Session

/-- A new connector over an empty file. -/
def start (exchange : Exchange) (retryPolicy : RetryPolicy) : Session where
  connector := .new exchange retryPolicy []
  live := ∅

/-- A request that asks the venue is accepted. -/
def liveAfter (t : Session) : ConnectorCall → Finset ℕ
  | .request r _ opened opened' =>
    if t.connector.asks r opened opened' then
      match r with
      | .submit order => insert order.clientOrderId t.live
      | .cancel k | .replace k _ => t.live.erase k
    else t.live
  | .reconcile => t.live

def step (t : Session) (x : ConnectorCall) : Session where
  connector := t.connector.call x
  live := t.liveAfter x

/-- An order that was neither cancelled nor replaced, with an acked submission and a venue order
id. -/
def Open (t : Session) (k : ℕ) : Prop :=
  k ∈ t.live ∧ (t.connector.journal.lookup .submit k).state = .acked ∧
    (t.connector.journal.lookup .submit k).venueOrderId ≠ []

/-- A cancel of the order asks the venue to cancel its venue order id, and returns OK. -/
def Cancellable (t : Session) (k : ℕ) : Prop :=
  ∃ mapped, mapped.clientOrderId = k ∧
    mapped.venueOrderId = (t.connector.journal.lookup .submit k).venueOrderId ∧
    (t.connector.beginCancel k true true).1 = .inr mapped ∧
    ∀ answers : ℕ → VenueAnswer, (∀ n, (answers n).result = .ok) →
      (t.connector.cancelOrder k answers true true).1 = .ok

/-- When the operation on the order has its entry, another one is free, or the orders that need it
have entries for their cancels. -/
def Spare (t : Session) (op : JournalOperation) (k : ℕ) (needed : ℕ → Prop) : Prop :=
  t.connector.journal.entries.inUse +
      (if (entryOf t.connector.journal.entries op k).isNone then 1 else 0) <
        JournalTable.maxRecords ∨
    ∀ i, needed i → entryOf t.connector.journal.entries .cancel i ≠ none

/-- The operation on the order is taken up by the journal: as sent, or as acked with an id. -/
def Effective (d : JournalDecision) : Prop :=
  d.shouldSendToVenue = true ∨
    (d.alreadyAcked = true ∧ LiveConnectorBase.hasVenueOrderId d = true)

/-- The call leaves the orders cancellable. -/
def Keeps (t : Session) : ConnectorCall → Prop
  | .request (.submit order) answers opened opened' =>
    t.connector.asks (.submit order) opened opened' = true →
      t.Spare .submit order.clientOrderId (fun i => t.Open i ∨
        (i = order.clientOrderId ∧ (t.connector.attempt answers).2 ≠ [])) ∧
      ((t.connector.attempt answers).2 ≠ [] →
        (t.connector.attempt answers).2.length < 48 ∧
        (t.connector.venueOrderMap.get order.clientOrderId ≠ none ∨
          t.connector.venueOrderMap.findFreeSlot ≠ none) ∧
        (t.connector.journal.lookup .cancel order.clientOrderId).state ≠ .acked ∧
        ¬ ((t.connector.journal.lookup .replace order.clientOrderId).state = .inFlight ∨
          (t.connector.journal.lookup .replace order.clientOrderId).state = .acked))
  | .request (.cancel k) _ opened _ =>
    ¬ ((t.connector.journal.lookup .replace k).state = .inFlight ∨
        (t.connector.journal.lookup .replace k).state = .acked) →
      (t.connector.journal.begin .cancel k 0 opened).1.shouldSendToVenue = true →
        t.Spare .cancel k fun i => i ≠ k ∧ t.Open i
  | .request (.replace k replacement) _ opened _ =>
    ¬ ((t.connector.journal.lookup .cancel k).state = .inFlight ∨
        (t.connector.journal.lookup .cancel k).state = .acked) →
      t.connector.venueOrderMap.get k ≠ none →
      ((t.connector.journal.begin .replace k replacement.clientOrderId
          opened).1.shouldSendToVenue = true → t.Spare .replace k fun i => i ≠ k ∧ t.Open i) ∧
      (Effective (t.connector.journal.begin .replace k replacement.clientOrderId opened).1 →
        replacement.clientOrderId = k ∨ ¬ t.Open replacement.clientOrderId)
  | .reconcile => t.live = ∅

/-! ## The invariant -/

/-- What a cancel of the order needs. -/
structure ReadyFor (c : LiveConnectorBase) (k : ℕ) : Prop where
  mapped : ∃ m, c.venueOrderMap.get k = some m ∧
    m.venueOrderId = (c.journal.lookup .submit k).venueOrderId
  fits : (c.journal.lookup .submit k).venueOrderId.length < 48
  cancel : (c.journal.lookup .cancel k).state ≠ .acked
  replace : ¬ ((c.journal.lookup .replace k).state = .inFlight ∨
    (c.journal.lookup .replace k).state = .acked)

/-- **The invariant**: every order can be cancelled, and has an entry for it or room for one. -/
structure Ready (t : Session) : Prop where
  attempts : 0 < t.connector.retryPolicy.maxAttempts
  tidy : t.connector.Tidy
  order : ∀ k, t.Open k → ReadyFor t.connector k
  room : t.connector.HasRoom ∨ ∀ k, t.Open k → entryOf t.connector.journal.entries .cancel k ≠ none

variable {t t' : Session} {k : ℕ}

/-- A venue that accepts every request accepts the first attempt. -/
theorem attempt_accepted {c : LiveConnectorBase} (hpolicy : 0 < c.retryPolicy.maxAttempts)
    {answers : ℕ → VenueAnswer} (hok : ∀ n, (answers n).result = .ok) :
    (c.attempt answers).1 = .ok := by
  obtain ⟨n, hn⟩ := Nat.exists_eq_succ_of_ne_zero hpolicy.ne'
  simp only [LiveConnectorBase.attempt, hn, withRetries, hok, if_true]

/-- The journal sends the cancel of an order. -/
theorem Ready.begin_cancel (h : t.Ready) (hk : t.Open k) :
    (t.connector.journal.begin .cancel k 0 true).1.alreadyAcked = false ∧
      (t.connector.journal.begin .cancel k 0 true).1.shouldSendToVenue = true := by
  cases he : entryOf t.connector.journal.entries .cancel k with
  | none =>
    obtain ⟨hacked, hsend⟩ := h.tidy.begin_fresh he 0 true
    refine ⟨hacked, hsend.mpr (h.room.resolve_right fun hentries => ?_)⟩
    exact hentries k hk he
  | some e =>
    refine IdempotencyJournal.begin_of_not_acked h.tidy.table.idle he ?_ 0 true
    rw [← IdempotencyJournal.state_lookup he]
    exact (h.order k hk).cancel

/-- **An order for which everything is there** can be cancelled. -/
theorem Ready.cancellable (h : t.Ready) (hk : t.Open k) : t.Cancellable k := by
  obtain ⟨⟨m, hget, hv⟩, -, -, hreplace⟩ := h.order k hk
  obtain ⟨hacked, hsend⟩ := h.begin_cancel hk
  have hbegin : t.connector.beginCancel k true true = (.inr m, { t.connector with
      journal := (t.connector.journal.begin .cancel k 0 true).2 }) := by
    simp only [LiveConnectorBase.beginCancel, hreplace, hacked, hsend, hget, Bool.not_true,
      Bool.false_eq_true, if_false]
  refine ⟨m, (VenueOrderMap.get_eq_some hget).2.2, hv, by rw [hbegin], fun answers hok => ?_⟩
  have hattempt : (LiveConnectorBase.attempt { t.connector with
      journal := (t.connector.journal.begin .cancel k 0 true).2 } answers).1 = .ok :=
    attempt_accepted h.attempts hok
  simp only [LiveConnectorBase.cancelOrder, hbegin, LiveConnectorBase.finishCancel,
    hattempt, if_true]

/-- Only the mapping and what the journal says of the order matter. -/
theorem ReadyFor.of_lookup {c c' : LiveConnectorBase} (h : ReadyFor c k)
    (hlookup : ∀ op, c'.journal.lookup op k = c.journal.lookup op k)
    (hmapped : ∃ m, c'.venueOrderMap.get k = some m ∧
      m.venueOrderId = (c.journal.lookup .submit k).venueOrderId) : ReadyFor c' k where
  mapped := by
    rw [hlookup]
    exact hmapped
  fits := by
    rw [hlookup]
    exact h.fits
  cancel := by
    rw [hlookup]
    exact h.cancel
  replace := by
    rw [hlookup]
    exact h.replace

/-- **What a call on an order has to leave**: the other orders as they were, this one ready if it is
still open, and room. -/
theorem Ready.frame (h : t.Ready) (k : ℕ)
    (hpolicy : t'.connector.retryPolicy = t.connector.retryPolicy) (htidy : t'.connector.Tidy)
    (hlive : ∀ i, i ≠ k → i ∈ t'.live → i ∈ t.live)
    (hentry : ∀ op i, i ≠ k → entryOf t'.connector.journal.entries op i =
      entryOf t.connector.journal.entries op i)
    (hmap : ∀ i, i ≠ k → t.Open i →
      t'.connector.venueOrderMap.get i = t.connector.venueOrderMap.get i)
    (hself : t'.Open k → ReadyFor t'.connector k)
    (hroom : t'.connector.HasRoom ∨
      ∀ i, t'.Open i → entryOf t'.connector.journal.entries .cancel i ≠ none) : t'.Ready where
  attempts := hpolicy ▸ h.attempts
  tidy := htidy
  order i hi := by
    by_cases hik : i = k
    · subst hik
      exact hself hi
    · have hlookup : ∀ op, t'.connector.journal.lookup op i = t.connector.journal.lookup op i :=
        fun op => IdempotencyJournal.lookup_congr (hentry op i hik)
      have hopen : t.Open i := by
        obtain ⟨hmem, hacked, hv⟩ := hi
        rw [hlookup] at hacked hv
        exact ⟨hlive i hik hmem, hacked, hv⟩
      have hready := h.order i hopen
      refine hready.of_lookup hlookup ?_
      rw [hmap i hik hopen]
      exact hready.mapped
  room := hroom

/-- An order that is open after a call on another one was open before it. -/
theorem Open.of_ne (h : t'.Open k) (hlive : k ∈ t'.live → k ∈ t.live)
    (hentry : entryOf t'.connector.journal.entries .submit k =
      entryOf t.connector.journal.entries .submit k) : t.Open k := by
  obtain ⟨hmem, hacked, hv⟩ := h
  rw [IdempotencyJournal.lookup_congr hentry] at hacked hv
  exact ⟨hlive hmem, hacked, hv⟩

/-- The table stays as it is. -/
theorem Ready.room_of_eq (h : t.Ready)
    (hentries : t'.connector.journal.entries = t.connector.journal.entries)
    (hlive : ∀ i, i ∈ t'.live → i ∈ t.live) :
    t'.connector.HasRoom ∨
      ∀ i, t'.Open i → entryOf t'.connector.journal.entries .cancel i ≠ none := by
  rcases h.room with hroom | hall
  · refine Or.inl ?_
    rw [LiveConnectorBase.HasRoom, hentries]
    exact hroom
  · refine Or.inr fun i hi => ?_
    rw [hentries]
    exact hall i (hi.of_ne (hlive i) (by rw [hentries]))

/-- An operation takes its entry. -/
theorem room_of_spare {op : JournalOperation} {needed : ℕ → Prop} (h : t.Spare op k needed)
    (hinUse : t'.connector.journal.entries.inUse = t.connector.journal.entries.inUse +
      if (entryOf t.connector.journal.entries op k).isNone then 1 else 0)
    (hcancel : ∀ i, t'.Open i → needed i ∧ (entryOf t.connector.journal.entries .cancel i ≠ none →
      entryOf t'.connector.journal.entries .cancel i ≠ none)) :
    t'.connector.HasRoom ∨
      ∀ i, t'.Open i → entryOf t'.connector.journal.entries .cancel i ≠ none := by
  rcases h with hspare | hall
  · refine Or.inl ?_
    rw [LiveConnectorBase.HasRoom, hinUse]
    exact hspare
  · exact Or.inr fun i hi => (hcancel i hi).2 (hall i (hcancel i hi).1)

/-- An operation after which its order is not open. -/
theorem Ready.close (h : t.Ready) {op : JournalOperation}
    (hpolicy : t'.connector.retryPolicy = t.connector.retryPolicy) (htidy : t'.connector.Tidy)
    (hclosed : ¬ t'.Open k) (hlive : ∀ i, i ∈ t'.live → i ∈ t.live)
    (hother : ∀ op' i, (op', i) ≠ (op, k) →
      entryOf t'.connector.journal.entries op' i = entryOf t.connector.journal.entries op' i)
    (hmap : ∀ i, i ≠ k → t.Open i →
      t'.connector.venueOrderMap.get i = t.connector.venueOrderMap.get i)
    (hspare : t.Spare op k fun i => i ≠ k ∧ t.Open i)
    (hinUse : t'.connector.journal.entries.inUse = t.connector.journal.entries.inUse +
      if (entryOf t.connector.journal.entries op k).isNone then 1 else 0) : t'.Ready := by
  have hentry : ∀ op' i, i ≠ k → entryOf t'.connector.journal.entries op' i =
      entryOf t.connector.journal.entries op' i := fun op' i hi =>
    hother op' i fun hc => hi (Prod.mk.inj hc).2
  have hopen : ∀ i, t'.Open i → i ≠ k ∧ t.Open i := by
    intro i hi
    have hik : i ≠ k := fun hik => hclosed (hik ▸ hi)
    exact ⟨hik, hi.of_ne (hlive i) (hentry .submit i hik)⟩
  refine h.frame k hpolicy htidy (fun i _ => hlive i) hentry hmap (fun hk => absurd hk hclosed)
    (room_of_spare hspare hinUse fun i hi => ⟨hopen i hi, ?_⟩)
  rw [hentry .cancel i (hopen i hi).1]
  exact fun hne => hne

/-! ## Submissions -/

section Submit

variable {c : LiveConnectorBase} {order : Order} {answers : ℕ → VenueAnswer}

/-- **What an accepted submission does**: the journal answers or refuses it, or the venue accepts
it. -/
theorem submit_cases (h : c.Tidy) (hpolicy : 0 < c.retryPolicy.maxAttempts)
    (hok : ∀ n, (answers n).result = .ok) :
    ∃ c', (c.submitOrder order answers true true).2 = c' ∧ c'.retryPolicy = c.retryPolicy ∧
      ((c.asks (.submit order) true true = false ∧ c'.journal.entries = c.journal.entries ∧
          (c'.venueOrderMap = c.venueOrderMap ∨
            c.venueOrderMap.upsert order.clientOrderId
              (c.journal.lookup .submit order.clientOrderId).venueOrderId c.exchange
              order.symbol.chars = some c'.venueOrderMap)) ∨
        (c.asks (.submit order) true true = true ∧
          (∃ e, entryOf c'.journal.entries .submit order.clientOrderId = some e ∧
            e.state = .acked ∧ e.venueOrderId = strncpyBuf 64 (c.attempt answers).2) ∧
          (∀ op i, (op, i) ≠ (.submit, order.clientOrderId) →
            entryOf c'.journal.entries op i = entryOf c.journal.entries op i) ∧
          c'.journal.entries.inUse = c.journal.entries.inUse +
            (if (entryOf c.journal.entries .submit order.clientOrderId).isNone then 1 else 0) ∧
          c'.venueOrderMap = (c.venueOrderMap.upsert order.clientOrderId (c.attempt answers).2
            c.exchange order.symbol.chars).getD c.venueOrderMap)) := by
  obtain ⟨d, j, hbegin⟩ : ∃ d j,
    c.journal.begin .submit order.clientOrderId 0 true = (d, j) := ⟨_, _, rfl⟩
  have hinUse := @IdempotencyJournal.inUse_begin c.journal .submit order.clientOrderId 0 true
    h.table.idle
  rw [hbegin] at hinUse
  simp only [LiveConnectorBase.asks, LiveConnectorBase.submitOrder, LiveConnectorBase.beginSubmit,
    hbegin]
  cases IdempotencyJournal.begin_outcome h.table.idle hbegin with
  | acked e halready he hstate hd hentries =>
    subst hd
    have hlookup : c.journal.lookup .submit order.clientOrderId = e.decision := by
      rw [IdempotencyJournal.lookup_eq, he]
      rfl
    by_cases hhas : LiveConnectorBase.hasVenueOrderId e.decision = true
    · simp only [halready, hhas, if_true, LiveConnectorBase.mapOrder_snd, hlookup]
      cases hup : c.venueOrderMap.upsert order.clientOrderId e.decision.venueOrderId c.exchange
          order.symbol.chars with
      | none => exact ⟨_, rfl, rfl, Or.inl ⟨rfl, hentries, Or.inl rfl⟩⟩
      | some m => exact ⟨_, rfl, rfl, Or.inl ⟨rfl, hentries, Or.inr rfl⟩⟩
    · simp only [halready, hhas, if_true]
      exact ⟨_, rfl, rfl, Or.inl ⟨rfl, hentries, Or.inl rfl⟩⟩
  | sent e halready hsend hnot he hother =>
    have hattempt : (LiveConnectorBase.attempt { c with journal := j } answers).1 = .ok :=
      attempt_accepted hpolicy hok
    have hputs := IdempotencyJournal.ack_puts he (c.attempt answers).2 0 true
    have hcount := (IdempotencyJournal.inUse_ack he (c.attempt answers).2 0 true).trans
      (hinUse hsend)
    have hrest : ∀ op i, (op, i) ≠ (.submit, order.clientOrderId) →
        entryOf (j.ack .submit order.clientOrderId (c.attempt answers).2 0 true).entries op i =
          entryOf c.journal.entries op i := fun op i hne =>
      (hputs.writes.other op i hne).trans (hother op i hne)
    simp only [halready, hsend, Bool.not_true, Bool.false_eq_true, if_false,
      LiveConnectorBase.finishSubmit, hattempt, if_true, LiveConnectorBase.mapOrder_snd]
    exact ⟨_, rfl, rfl, Or.inr ⟨rfl, ⟨_, hputs.writes.self, rfl, rfl⟩, hrest, hcount, rfl⟩⟩
  | refused halready hsend hsame =>
    simp only [halready, hsend, Bool.not_false, Bool.false_eq_true, if_false, if_true, hsame]
    exact ⟨_, rfl, rfl, Or.inl ⟨rfl, rfl, Or.inl rfl⟩⟩

/-- A submission that the journal answers or refuses maps its order at most to what the journal
says of it. -/
theorem Ready.submit_answered (h : t.Ready) (htidy : t'.connector.Tidy)
    (hpolicy : t'.connector.retryPolicy = t.connector.retryPolicy)
    (hentries : t'.connector.journal.entries = t.connector.journal.entries)
    (hmap : t'.connector.venueOrderMap = t.connector.venueOrderMap ∨
      t.connector.venueOrderMap.upsert order.clientOrderId
        (t.connector.journal.lookup .submit order.clientOrderId).venueOrderId t.connector.exchange
        order.symbol.chars = some t'.connector.venueOrderMap)
    (hlive : t'.live = t.live) : t'.Ready := by
  have hmem : ∀ i, i ∈ t'.live → i ∈ t.live := fun i hi => hlive ▸ hi
  have hlookup : ∀ op i, t'.connector.journal.lookup op i = t.connector.journal.lookup op i :=
    fun op i => IdempotencyJournal.lookup_congr (by rw [hentries])
  refine h.frame order.clientOrderId hpolicy htidy (fun i _ => hmem i)
    (fun _ _ _ => by rw [hentries]) (fun i hi _ => ?_) (fun hopen => ?_)
    (h.room_of_eq hentries hmem)
  · rcases hmap with hsame | hup
    · rw [hsame]
    · exact VenueOrderMap.get_upsert_of_ne hup hi
  · have hready := h.order order.clientOrderId (hopen.of_ne (hmem _) (by rw [hentries]))
    refine hready.of_lookup (fun op => hlookup op _) ?_
    rcases hmap with hsame | hup
    · rw [hsame]
      exact hready.mapped
    · exact ⟨_, VenueOrderMap.get_upsert_self hup, strncpyBuf_of_length_lt hready.fits⟩

/-- A submission that the venue accepts maps its order to the venue order id, if there is room. -/
theorem Ready.submit_sent (h : t.Ready) (htidy : t'.connector.Tidy)
    (hpolicy : t'.connector.retryPolicy = t.connector.retryPolicy) {v : CString}
    {e : JournalEntry} (he : entryOf t'.connector.journal.entries .submit order.clientOrderId =
      some e) (hv : e.venueOrderId = strncpyBuf 64 v)
    (hother : ∀ op i, (op, i) ≠ (.submit, order.clientOrderId) →
      entryOf t'.connector.journal.entries op i = entryOf t.connector.journal.entries op i)
    (hcount : t'.connector.journal.entries.inUse = t.connector.journal.entries.inUse +
      if (entryOf t.connector.journal.entries .submit order.clientOrderId).isNone then 1 else 0)
    (hmap : t'.connector.venueOrderMap = (t.connector.venueOrderMap.upsert order.clientOrderId v
      t.connector.exchange order.symbol.chars).getD t.connector.venueOrderMap)
    (hlive : t'.live = insert order.clientOrderId t.live)
    (hspare : t.Spare .submit order.clientOrderId fun i =>
      t.Open i ∨ (i = order.clientOrderId ∧ v ≠ []))
    (hnew : v ≠ [] → v.length < 48 ∧
      (t.connector.venueOrderMap.get order.clientOrderId ≠ none ∨
        t.connector.venueOrderMap.findFreeSlot ≠ none) ∧
      (t.connector.journal.lookup .cancel order.clientOrderId).state ≠ .acked ∧
      ¬ ((t.connector.journal.lookup .replace order.clientOrderId).state = .inFlight ∨
        (t.connector.journal.lookup .replace order.clientOrderId).state = .acked)) :
    t'.Ready := by
  -- what the journal says of the new order
  have hsubmit : (t'.connector.journal.lookup .submit order.clientOrderId).venueOrderId =
      strncpyBuf 64 v := by
    rw [IdempotencyJournal.lookup_eq, he]
    simp only [Option.map_some, Option.getD_some, JournalEntry.decision, hv]
    exact strncpyBuf_strncpyBuf le_rfl _
  have hword :
      (t'.connector.journal.lookup .submit order.clientOrderId).venueOrderId ≠ [] → v ≠ [] := by
    rw [hsubmit]
    rintro hne rfl
    exact hne rfl
  have hcancelEntry : ∀ i, entryOf t'.connector.journal.entries .cancel i =
      entryOf t.connector.journal.entries .cancel i := fun i =>
    hother .cancel i fun hc => by cases hc
  have hentry : ∀ op i, i ≠ order.clientOrderId → entryOf t'.connector.journal.entries op i =
      entryOf t.connector.journal.entries op i := fun op i hi =>
    hother op i fun hc => hi (Prod.mk.inj hc).2
  have hmem : ∀ i, i ≠ order.clientOrderId → i ∈ t'.live → i ∈ t.live := fun i hi hmem =>
    (Finset.mem_insert.mp (hlive ▸ hmem)).resolve_left hi
  refine h.frame order.clientOrderId hpolicy htidy hmem hentry (fun i hi _ => ?_) (fun hopen => ?_)
    (room_of_spare hspare hcount fun i hi => ⟨?_, fun hne => by rwa [hcancelEntry]⟩)
  · rw [hmap]
    cases hup : t.connector.venueOrderMap.upsert order.clientOrderId v t.connector.exchange
        order.symbol.chars with
    | none => rfl
    | some m => exact VenueOrderMap.get_upsert_of_ne hup hi
  · obtain ⟨hfits, hslot, hcancel, hreplace⟩ := hnew (hword hopen.2.2)
    have hexact : strncpyBuf 64 v = v := strncpyBuf_of_length_lt (by omega)
    obtain ⟨m, hup⟩ := VenueOrderMap.exists_upsert hslot v t.connector.exchange order.symbol.chars
    refine ⟨?_, by rwa [hsubmit, hexact], ?_, ?_⟩
    · rw [hmap, hup, Option.getD_some, VenueOrderMap.get_upsert_self hup]
      exact ⟨_, rfl, by rw [hsubmit, hexact]; exact strncpyBuf_of_length_lt hfits⟩
    · rw [IdempotencyJournal.lookup_congr (hcancelEntry _)]
      exact hcancel
    · rw [IdempotencyJournal.lookup_congr (hother .replace _ fun hc => by cases hc)]
      exact hreplace
  · by_cases hik : i = order.clientOrderId
    · exact Or.inr ⟨hik, hword (hik ▸ hi.2.2)⟩
    · exact Or.inl (hi.of_ne (hmem i hik) (hentry .submit i hik))

/-- **A submission** leaves the orders cancellable. -/
theorem Ready.submit (h : t.Ready) (hok : ∀ n, (answers n).result = .ok)
    (hkeeps : t.Keeps (.request (.submit order) answers true true)) :
    (t.step (.request (.submit order) answers true true)).Ready := by
  have htidy := h.tidy.call (.request (.submit order) answers true true)
  obtain ⟨c', hc', hpolicy, hcases⟩ := @submit_cases t.connector order answers h.tidy h.attempts hok
  have hcall : t.connector.call (.request (.submit order) answers true true) = c' := hc'
  rw [hcall] at htidy
  rcases hcases with ⟨hasks, hentries, hmap⟩ | ⟨hasks, ⟨e, he, -, hv⟩, hother, hcount, hmap⟩
  · have hstep : t.step (.request (.submit order) answers true true) = ⟨c', t.live⟩ := by
      simp only [step, liveAfter, hcall, hasks, Bool.false_eq_true, if_false]
    rw [hstep]
    exact h.submit_answered htidy hpolicy hentries hmap rfl
  · obtain ⟨hspare, hnew⟩ := hkeeps hasks
    have hstep : t.step (.request (.submit order) answers true true) =
        ⟨c', insert order.clientOrderId t.live⟩ := by
      simp only [step, liveAfter, hcall, hasks, if_true]
    rw [hstep]
    exact h.submit_sent htidy hpolicy he hv hother hcount hmap rfl hspare hnew

end Submit

/-! ## Cancels -/

section Cancel

variable {c : LiveConnectorBase} {answers : ℕ → VenueAnswer}

/-- **What an accepted cancel does**: it is answered or refused, or sent, and then the order is
erased if it was mapped. -/
theorem cancel_cases (h : c.Tidy) (hpolicy : 0 < c.retryPolicy.maxAttempts)
    (hok : ∀ n, (answers n).result = .ok) (k : ℕ) :
    ∃ c', (c.cancelOrder k answers true true).2 = c' ∧ c'.retryPolicy = c.retryPolicy ∧
      ((c.asks (.cancel k) true true = false ∧ c'.journal.entries = c.journal.entries ∧
          c'.venueOrderMap = c.venueOrderMap) ∨
        (¬ ((c.journal.lookup .replace k).state = .inFlight ∨
            (c.journal.lookup .replace k).state = .acked) ∧
          (c.journal.begin .cancel k 0 true).1.shouldSendToVenue = true ∧
          (∀ op i, (op, i) ≠ (.cancel, k) →
            entryOf c'.journal.entries op i = entryOf c.journal.entries op i) ∧
          c'.journal.entries.inUse = c.journal.entries.inUse +
            (if (entryOf c.journal.entries .cancel k).isNone then 1 else 0) ∧
          ((c.asks (.cancel k) true true = false ∧ c.venueOrderMap.get k = none ∧
              c'.venueOrderMap = c.venueOrderMap) ∨
            (c.asks (.cancel k) true true = true ∧
              c'.venueOrderMap = c.venueOrderMap.erase k)))) := by
  obtain ⟨d, j, hbegin⟩ : ∃ d j, c.journal.begin .cancel k 0 true = (d, j) := ⟨_, _, rfl⟩
  have hinUse := @IdempotencyJournal.inUse_begin c.journal .cancel k 0 true h.table.idle
  rw [hbegin] at hinUse
  simp only [LiveConnectorBase.asks, LiveConnectorBase.cancelOrder, LiveConnectorBase.beginCancel,
    hbegin]
  by_cases hreplace : (c.journal.lookup .replace k).state = .inFlight ∨
      (c.journal.lookup .replace k).state = .acked
  · simp only [hreplace, if_true]
    exact ⟨_, rfl, rfl, Or.inl ⟨rfl, rfl, rfl⟩⟩
  simp only [hreplace, if_false]
  cases IdempotencyJournal.begin_outcome h.table.idle hbegin with
  | acked e halready he hstate hd hentries =>
    simp only [halready, if_true]
    exact ⟨_, rfl, rfl, Or.inl ⟨rfl, hentries, rfl⟩⟩
  | sent e halready hsend hnot he hother =>
    simp only [halready, hsend, Bool.not_true, Bool.false_eq_true, if_false]
    cases hget : c.venueOrderMap.get k with
    | none =>
      have hputs := IdempotencyJournal.fail_puts he 0 true
      refine ⟨_, rfl, rfl,
        Or.inr ⟨not_false, trivial, fun op i hne => ?_, ?_, Or.inl ⟨rfl, rfl, rfl⟩⟩⟩
      · exact (hputs.writes.other op i hne).trans (hother op i hne)
      · exact (IdempotencyJournal.inUse_fail he 0 true).trans (hinUse hsend)
    | some mapped =>
      have hattempt : (LiveConnectorBase.attempt { c with journal := j } answers).1 = .ok :=
        attempt_accepted hpolicy hok
      have hputs := IdempotencyJournal.ack_puts he mapped.venueOrderId 0 true
      simp only [LiveConnectorBase.finishCancel, hattempt, if_true]
      refine ⟨_, rfl, rfl, Or.inr ⟨not_false, trivial, fun op i hne => ?_, ?_, Or.inr ⟨rfl, rfl⟩⟩⟩
      · exact (hputs.writes.other op i hne).trans (hother op i hne)
      · exact (IdempotencyJournal.inUse_ack he mapped.venueOrderId 0 true).trans (hinUse hsend)
  | refused halready hsend hsame =>
    simp only [halready, hsend, Bool.not_false, Bool.false_eq_true, if_false, if_true, hsame]
    exact ⟨_, rfl, rfl, Or.inl ⟨rfl, rfl, rfl⟩⟩

/-- A call that leaves the table, the map and the orders. -/
theorem Ready.of_eq (h : t.Ready) (hpolicy : t'.connector.retryPolicy = t.connector.retryPolicy)
    (htidy : t'.connector.Tidy)
    (hentries : t'.connector.journal.entries = t.connector.journal.entries)
    (hmap : t'.connector.venueOrderMap = t.connector.venueOrderMap) (hlive : t'.live = t.live) :
    t'.Ready := by
  have hmem : ∀ i, i ∈ t'.live → i ∈ t.live := fun i hi => hlive ▸ hi
  have hlookup : ∀ op i, t'.connector.journal.lookup op i = t.connector.journal.lookup op i :=
    fun op i => IdempotencyJournal.lookup_congr (by rw [hentries])
  refine h.frame 0 hpolicy htidy (fun i _ => hmem i) (fun _ _ _ => by rw [hentries])
    (fun _ _ _ => by rw [hmap]) (fun hopen => ?_) (h.room_of_eq hentries hmem)
  have hready := h.order 0 (hopen.of_ne (hmem 0) (by rw [hentries]))
  refine hready.of_lookup (fun op => hlookup op 0) ?_
  rw [hmap]
  exact hready.mapped

/-- **A cancel** leaves the other orders cancellable. -/
theorem Ready.cancel (h : t.Ready) (hok : ∀ n, (answers n).result = .ok)
    (hkeeps : t.Keeps (.request (.cancel k) answers true true)) :
    (t.step (.request (.cancel k) answers true true)).Ready := by
  have htidy := h.tidy.call (.request (.cancel k) answers true true)
  obtain ⟨c', hc', hpolicy, hcases⟩ := cancel_cases h.tidy h.attempts hok k
  have hcall : t.connector.call (.request (.cancel k) answers true true) = c' := hc'
  rw [hcall] at htidy
  rcases hcases with ⟨hasks, hentries, hmap⟩ | ⟨hreplace, hsend, hother, hcount, hcases⟩
  · have hstep : t.step (.request (.cancel k) answers true true) = ⟨c', t.live⟩ := by
      simp only [step, liveAfter, hcall, hasks, Bool.false_eq_true, if_false]
    rw [hstep]
    exact h.of_eq hpolicy htidy hentries hmap rfl
  · have hspare := hkeeps hreplace hsend
    rcases hcases with ⟨hasks, hget, hmap⟩ | ⟨hasks, hmap⟩
    · have hstep : t.step (.request (.cancel k) answers true true) = ⟨c', t.live⟩ := by
        simp only [step, liveAfter, hcall, hasks, Bool.false_eq_true, if_false]
      -- an order that is not mapped is not open
      have hclosed : ¬ Open ⟨c', t.live⟩ k := by
        intro hk
        have hopen : t.Open k :=
          hk.of_ne (fun hmem => hmem) (hother .submit k fun hc => by cases hc)
        obtain ⟨m, hm, -⟩ := (h.order k hopen).mapped
        rw [hget] at hm
        cases hm
      rw [hstep]
      exact h.close hpolicy htidy hclosed (fun _ hmem => hmem) hother
        (fun _ _ _ => by rw [hmap]) hspare hcount
    · have hstep : t.step (.request (.cancel k) answers true true) = ⟨c', t.live.erase k⟩ := by
        simp only [step, liveAfter, hcall, hasks, if_true]
      rw [hstep]
      exact h.close hpolicy htidy (fun hk => Finset.notMem_erase k t.live hk.1)
        (fun _ hmem => (Finset.mem_erase.mp hmem).2) hother
        (fun i hi _ => by rw [hmap, VenueOrderMap.get_erase_of_ne hi]) hspare hcount

end Cancel

/-! ## Replacements -/

section Replace

variable {c : LiveConnectorBase} {replacement : Order} {answers : ℕ → VenueAnswer}

/-- The map once the old order is erased and the new one mapped, if there is room for it. -/
def remapped (c : LiveConnectorBase) (k : ℕ) (replacement : Order) (v : CString) : VenueOrderMap :=
  ((c.venueOrderMap.erase k).upsert replacement.clientOrderId v c.exchange
    replacement.symbol.chars).getD (c.venueOrderMap.erase k)

/-- Orders other than the old one and the new one stay mapped. -/
theorem get_remapped {v : CString} {i : ℕ} (hk : i ≠ k) (hr : i ≠ replacement.clientOrderId) :
    (remapped c k replacement v).get i = c.venueOrderMap.get i := by
  unfold remapped
  cases hup : (c.venueOrderMap.erase k).upsert replacement.clientOrderId v c.exchange
      replacement.symbol.chars with
  | none => exact VenueOrderMap.get_erase_of_ne hk
  | some m => exact (VenueOrderMap.get_upsert_of_ne hup hr).trans (VenueOrderMap.get_erase_of_ne hk)

/-- **What an accepted replacement does**: it is refused, or answered by its acked entry, or sent,
and in these two cases the new order is mapped in the place of the old one. -/
theorem replace_cases (h : c.Tidy) (hpolicy : 0 < c.retryPolicy.maxAttempts)
    (hok : ∀ n, (answers n).result = .ok) (k : ℕ) :
    ∃ c', (c.replaceOrder k replacement answers true true).2 = c' ∧
      c'.retryPolicy = c.retryPolicy ∧
      ((c.asks (.replace k replacement) true true = false ∧
          c'.journal.entries = c.journal.entries ∧ c'.venueOrderMap = c.venueOrderMap) ∨
        (¬ ((c.journal.lookup .cancel k).state = .inFlight ∨
            (c.journal.lookup .cancel k).state = .acked) ∧
          c.venueOrderMap.get k ≠ none ∧
          (∃ v, c'.venueOrderMap = remapped c k replacement v) ∧
          ((c.asks (.replace k replacement) true true = false ∧
              Effective (c.journal.begin .replace k replacement.clientOrderId true).1 ∧
              (c.journal.lookup .replace k).state = .acked ∧
              c'.journal.entries = c.journal.entries) ∨
            (c.asks (.replace k replacement) true true = true ∧
              (c.journal.begin .replace k replacement.clientOrderId true).1.shouldSendToVenue =
                true ∧
              (∀ op i, (op, i) ≠ (.replace, k) →
                entryOf c'.journal.entries op i = entryOf c.journal.entries op i) ∧
              c'.journal.entries.inUse = c.journal.entries.inUse +
                (if (entryOf c.journal.entries .replace k).isNone then 1 else 0))))) := by
  obtain ⟨d, j, hbegin⟩ : ∃ d j,
    c.journal.begin .replace k replacement.clientOrderId true = (d, j) := ⟨_, _, rfl⟩
  have hinUse := @IdempotencyJournal.inUse_begin c.journal .replace k replacement.clientOrderId true
    h.table.idle
  rw [hbegin] at hinUse
  simp only [LiveConnectorBase.asks, LiveConnectorBase.replaceOrder_eq,
    LiveConnectorBase.beginReplace, hbegin]
  by_cases hcancel : (c.journal.lookup .cancel k).state = .inFlight ∨
      (c.journal.lookup .cancel k).state = .acked
  · simp only [hcancel, if_true]
    exact ⟨_, rfl, rfl, Or.inl ⟨rfl, rfl, rfl⟩⟩
  simp only [hcancel, if_false]
  cases hget : c.venueOrderMap.get k with
  | none => exact ⟨_, rfl, rfl, Or.inl ⟨rfl, rfl, rfl⟩⟩
  | some mapped =>
    simp only
    have hmapped : some mapped ≠ none := fun hc => by cases hc
    cases IdempotencyJournal.begin_outcome h.table.idle hbegin with
    | acked e halready he hstate hd hentries =>
      subst hd
      by_cases hhas : LiveConnectorBase.hasVenueOrderId e.decision = true
      · simp only [halready, hhas, if_true, LiveConnectorBase.mapOrder_snd]
        refine ⟨_, rfl, rfl, Or.inr ⟨not_false, hmapped, ⟨_, rfl⟩, Or.inl ⟨rfl,
          Or.inr ⟨halready, hhas⟩, ?_, hentries⟩⟩⟩
        rw [IdempotencyJournal.state_lookup he, hstate]
      · simp only [halready, hhas, if_true]
        exact ⟨_, rfl, rfl, Or.inl ⟨rfl, hentries, rfl⟩⟩
    | sent e halready hsend hnot he hother =>
      have hattempt : (LiveConnectorBase.attempt { c with journal := j } answers).1 = .ok :=
        attempt_accepted hpolicy hok
      have hputs := IdempotencyJournal.ack_puts he (c.attempt answers).2
        replacement.clientOrderId true
      simp only [halready, hsend, Bool.not_true, Bool.false_eq_true, if_false,
        LiveConnectorBase.finishReplace, hattempt, ne_eq, not_true_eq_false,
        LiveConnectorBase.mapOrder_snd]
      refine ⟨_, rfl, rfl, Or.inr ⟨not_false, hmapped, ⟨_, rfl⟩, Or.inr ⟨rfl, trivial,
        fun op i hne => ?_, ?_⟩⟩⟩
      · exact (hputs.writes.other op i hne).trans (hother op i hne)
      · exact (IdempotencyJournal.inUse_ack he _ _ true).trans (hinUse hsend)
    | refused halready hsend hsame =>
      simp only [halready, hsend, Bool.not_false, Bool.false_eq_true, if_false, if_true, hsame]
      exact ⟨_, rfl, rfl, Or.inl ⟨rfl, rfl, rfl⟩⟩

/-- **A replacement** leaves the other orders cancellable, if the new order is none of them. -/
theorem Ready.replace (h : t.Ready) (hok : ∀ n, (answers n).result = .ok)
    (hkeeps : t.Keeps (.request (.replace k replacement) answers true true)) :
    (t.step (.request (.replace k replacement) answers true true)).Ready := by
  have htidy := h.tidy.call (.request (.replace k replacement) answers true true)
  obtain ⟨c', hc', hpolicy, hcases⟩ :=
    @replace_cases t.connector replacement answers h.tidy h.attempts hok k
  have hcall : t.connector.call (.request (.replace k replacement) answers true true) = c' := hc'
  rw [hcall] at htidy
  rcases hcases with ⟨hasks, hentries, hmap⟩ | ⟨hcancel, hmapped, ⟨v, hmap⟩, hcases⟩
  · have hstep : t.step (.request (.replace k replacement) answers true true) = ⟨c', t.live⟩ := by
      simp only [step, liveAfter, hcall, hasks, Bool.false_eq_true, if_false]
    rw [hstep]
    exact h.of_eq hpolicy htidy hentries hmap rfl
  · obtain ⟨hspare, hreplacement⟩ := hkeeps hcancel hmapped
    -- the new order is the old one, or not open
    have hgets : replacement.clientOrderId = k ∨ ¬ t.Open replacement.clientOrderId →
        ∀ i, i ≠ k → t.Open i → c'.venueOrderMap.get i = t.connector.venueOrderMap.get i := by
      intro hr i hik hopen
      rw [hmap]
      refine get_remapped hik ?_
      rintro rfl
      rcases hr with hr | hr
      · exact hik hr
      · exact hr hopen
    rcases hcases with ⟨hasks, heffective, hacked, hentries⟩ | ⟨hasks, hsend, hother, hcount⟩
    · -- an order that was replaced before is not open
      have hstep : t.step (.request (.replace k replacement) answers true true) = ⟨c', t.live⟩ := by
        simp only [step, liveAfter, hcall, hasks, Bool.false_eq_true, if_false]
      rw [hstep]
      refine h.frame k hpolicy htidy (fun _ _ hmem => hmem) (fun _ _ _ => by rw [hentries])
        (hgets (hreplacement heffective)) (fun hopen => ?_)
        (h.room_of_eq hentries fun _ hmem => hmem)
      have hopen : t.Open k := hopen.of_ne (fun hmem => hmem) (by rw [hentries])
      exact absurd (Or.inr hacked) (h.order k hopen).replace
    · have hstep : t.step (.request (.replace k replacement) answers true true) =
          ⟨c', t.live.erase k⟩ := by
        simp only [step, liveAfter, hcall, hasks, if_true]
      rw [hstep]
      exact h.close hpolicy htidy (fun hk => Finset.notMem_erase k t.live hk.1)
        (fun _ hmem => (Finset.mem_erase.mp hmem).2) hother
        (hgets (hreplacement (Or.inl hsend))) (hspare hsend) hcount

end Replace

/-! ## Runs -/

theorem ready_start (exchange : Exchange) {retryPolicy : RetryPolicy}
    (hpolicy : 0 < retryPolicy.maxAttempts) : (start exchange retryPolicy).Ready where
  attempts := hpolicy
  tidy := LiveConnectorBase.tidy_new exchange retryPolicy []
  order _ hk := absurd hk.1 (Finset.notMem_empty _)
  room := Or.inr fun _ hk => absurd hk.1 (Finset.notMem_empty _)

/-- **A call that meets the condition** leaves the orders cancellable. -/
theorem Ready.step (h : t.Ready) {x : ConnectorCall} (hx : x.Accepted) (hkeeps : t.Keeps x) :
    (t.step x).Ready := by
  cases x with
  | request r answers opened opened' =>
    obtain ⟨hok, rfl, rfl⟩ := hx
    cases r with
    | submit order => exact h.submit hok hkeeps
    | cancel k => exact h.cancel hok hkeeps
    | replace k replacement => exact h.replace hok hkeeps
  | reconcile =>
    have hlive : t.live = ∅ := hkeeps
    have hclosed : ∀ i, ¬ (t.step .reconcile).Open i := fun i hi => by
      have hmem : i ∈ t.live := hi.1
      rw [hlive] at hmem
      exact absurd hmem (Finset.notMem_empty i)
    exact ⟨h.attempts, h.tidy.call .reconcile, fun i hi => absurd hi (hclosed i),
      Or.inr fun i hi => absurd hi (hclosed i)⟩

/-- **Every order stays cancellable** in a run whose calls all meet the condition. -/
theorem cancellable_run (exchange : Exchange) {retryPolicy : RetryPolicy}
    (hpolicy : 0 < retryPolicy.maxAttempts) {calls : List ConnectorCall}
    (hcalls : ∀ x ∈ calls, x.Accepted)
    (hkeeps : AllSteps Session.step Keeps (start exchange retryPolicy) calls) :
    ∀ k, (calls.foldl Session.step (start exchange retryPolicy)).Open k →
      (calls.foldl Session.step (start exchange retryPolicy)).Cancellable k := by
  have hstep : ∀ (t : Session) (x : ConnectorCall), t.Ready → x.Accepted → t.Keeps x →
      (Session.step t x).Ready := fun _ _ h hx hk => h.step hx hk
  have hready := hkeeps.foldl_of_legal hstep (ready_start exchange hpolicy) hcalls
  exact fun k hk => hready.cancellable hk

/-- An order can be cancelled after another one has been cancelled. -/
def cancelledBid : List ConnectorCall :=
  [.request (.submit (LiveConnectorBase.bid 1)) LiveConnectorBase.accepted true true,
    .request (.submit (LiveConnectorBase.bid 2)) LiveConnectorBase.accepted true true,
    .request (.cancel 1) LiveConnectorBase.accepted true true]

theorem cancelledBid_cancellable :
    (cancelledBid.foldl Session.step (start .binance ⟨3⟩)).Cancellable 2 := by
  have hroom : ∀ t : Session, t.connector.journal.entries.inUse + 1 < JournalTable.maxRecords →
      ∀ op k needed, t.Spare op k needed := by
    intro t hlt op k needed
    refine Or.inl ?_
    split <;> omega
  refine cancellable_run .binance (show 0 < 3 by decide) ?_ ?_ 2 ?_
  · intro x hx
    rcases List.mem_cons.mp hx with rfl | hx
    · exact ⟨fun _ => rfl, rfl, rfl⟩
    rcases List.mem_cons.mp hx with rfl | hx
    · exact ⟨fun _ => rfl, rfl, rfl⟩
    obtain rfl := List.mem_singleton.mp hx
    exact ⟨fun _ => rfl, rfl, rfl⟩
  · refine ⟨fun _ => ⟨hroom _ (by decide +kernel) _ _ _, fun _ => ?_⟩,
      fun _ => ⟨hroom _ (by decide +kernel) _ _ _, fun _ => ?_⟩,
      fun _ _ => hroom _ (by decide +kernel) _ _ _, trivial⟩
    · exact ⟨by decide +kernel, Or.inr (by decide +kernel), by decide +kernel, by decide +kernel⟩
    · exact ⟨by decide +kernel, Or.inr (by decide +kernel), by decide +kernel, by decide +kernel⟩
  · exact ⟨by decide +kernel, by decide +kernel, by decide +kernel⟩

/-- **After `reconcile`** an order is at the venue, its submission is acked, and it cannot be
cancelled. -/
theorem reconciledBid_not_cancellable :
    ∃ t, [.request (.submit (LiveConnectorBase.bid 1)) LiveConnectorBase.accepted true true,
        .reconcile].foldl Session.step (start .binance ⟨3⟩) = t ∧ t.Open 1 ∧ ¬ t.Cancellable 1 := by
  refine ⟨_, rfl, ⟨by decide +kernel, by decide +kernel, by decide +kernel⟩, fun h => ?_⟩
  obtain ⟨mapped, -, -, hbegin, -⟩ := h
  have hrefused : ((List.foldl Session.step (start .binance ⟨3⟩)
      [.request (.submit (LiveConnectorBase.bid 1)) LiveConnectorBase.accepted true true,
        .reconcile]).connector.beginCancel 1 true true).1 = .inl .errorInvalidOrder := by
    decide +kernel
  rw [hrefused] at hbegin
  cases hbegin

end Session

end TradingInfrastructure
