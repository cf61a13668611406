import TradingInfrastructure.Connectors.JournalCapacity
import TradingInfrastructure.Connectors.VenueConnectors

/-!
# Orphan orders

A connector submits orders to a venue that has at most one order for an idempotency key. The venue
may execute a request whose answer is lost or cannot be read, and the connector then asks again with
the same key. What it enters into its journal is what the last answer says. So an order of the venue
is in the venue order map, or in flight or acked in the journal, exactly when in every call that
brings an order about one of the answers is read as an acceptance, or throws (`noOrphans_iff`).
-/

namespace TradingInfrastructure

open JournalTable (entryOf)

/-- One submission: the replies to the requests of its attempts, and whether the venue executes a
request that it gets. -/
structure OrderTurn where
  order : Order
  replies : ℕ → FuturesReplies
  executes : ℕ → Bool
  opened : Bool := true
  opened' : Bool := true

/-- A connector, and the keys of the orders that its venue has. -/
structure VenueWorld where
  connector : VenueConnector
  orders : List CString

namespace VenueWorld

variable (lib : VenueLibrary) (w : VenueWorld) (turn : OrderTurn)

def keyOf (clientOrderId : ℕ) : CString := w.connector.base.makeIdempotencyKey clientOrderId

/-- What the connector makes of an attempt. -/
def reading (x : ℕ × RequestState) : Except ReplyFault ConnectorResult :=
  w.connector.reading lib (.submit turn.order) turn.replies x

/-- The attempts that the submission makes. -/
def made : List (ℕ × RequestState) :=
  w.connector.made lib (.submit turn.order) turn.replies turn.opened turn.opened'

/-- The request of the attempt goes out. -/
def sent (x : ℕ × RequestState) : Bool :=
  w.connector.venue.sends lib (.submit turn.order) (turn.replies x.1) x.2

/-- The venue gets the request, and executes it. -/
def executed (x : ℕ × RequestState) : Bool := w.sent lib turn x && turn.executes x.1

def step (w : VenueWorld) (turn : OrderTurn) : VenueWorld where
  connector :=
    (w.connector.submitOrder lib turn.order turn.replies turn.opened turn.opened').2
  orders :=
    if (w.made lib turn).any (w.executed lib turn) then
      w.orders.insert (w.keyOf turn.order.clientOrderId)
    else w.orders

/-- One submission after another. -/
def run (turns : List OrderTurn) : VenueWorld := turns.foldl (step lib) w

/-- The order is in the venue order map, or in flight or acked in the journal. -/
def Covered (k : ℕ) : Prop :=
  w.connector.base.venueOrderMap.get k ≠ none ∨
    ∃ e, entryOf w.connector.base.journal.entries .submit k = some e ∧
      (e.state = .inFlight ∨ e.state = .acked)

/-- Every order of the venue is covered. -/
def NoOrphans : Prop := ∀ k, w.keyOf k ∈ w.orders → w.Covered k

/-- When the venue executes a request of the submission, one of the answers is read as an
acceptance, or throws. -/
def Heard : Prop :=
  (∃ x ∈ w.made lib turn, w.executed lib turn x = true) → ∃ x ∈ w.made lib turn,
    w.reading lib turn x = .ok .ok ∨ ∃ fault, w.reading lib turn x = .error fault

/-- The answer says neither that there is an order nor that there is none. -/
def Unclear (x : ℕ × RequestState) : Prop :=
  retriesAfter (w.reading lib turn x) = true ∨ ∃ fault, w.reading lib turn x = .error fault

/-- The venue has the key after these attempts. -/
def Known (before : List (ℕ × RequestState)) : Prop :=
  w.keyOf turn.order.clientOrderId ∈ w.orders ∨ ∃ x ∈ before, w.executed lib turn x = true

/-- A key that the venue has is refused with status 400, and the request that it executes is
accepted, unless the answer is lost or cannot be read. -/
def Truthful : Prop :=
  ∀ before x after, w.made lib turn = before ++ x :: after → w.sent lib turn x = true →
    (w.Known lib turn before →
      (turn.replies x.1).order.status = 400 ∨ w.Unclear lib turn x) ∧
    (¬ w.Known lib turn before → turn.executes x.1 = true →
      w.reading lib turn x = .ok .ok ∨ w.Unclear lib turn x)

/-- Nothing is known of the order. -/
structure Fresh (k : ℕ) : Prop where
  venue : w.keyOf k ∉ w.orders
  map : w.connector.base.venueOrderMap.get k = none
  journal : entryOf w.connector.base.journal.entries .submit k = none

end VenueWorld

namespace LiveConnectorBase

variable {c c' : LiveConnectorBase} {order : Order} {k : ℕ} {opened : Bool}

theorem makeIdempotencyKey_injective (c : LiveConnectorBase) :
    Function.Injective c.makeIdempotencyKey := by
  intro m n h
  have hdigits : Nat.toDigits 10 m = Nat.toDigits 10 n := by
    simpa [makeIdempotencyKey, List.append_assoc] using h
  rw [← @Nat.ofDigitChars_ten_toDigits m, hdigits, Nat.ofDigitChars_ten_toDigits]

/-- Nothing but what is kept of one order has changed. -/
structure Frame (c c' : LiveConnectorBase) (k : ℕ) : Prop where
  exchange : c'.exchange = c.exchange
  retryPolicy : c'.retryPolicy = c.retryPolicy
  entry : ∀ k', k' ≠ k →
    entryOf c'.journal.entries .submit k' = entryOf c.journal.entries .submit k'
  mapped : ∀ k', k' ≠ k → c'.venueOrderMap.get k' = c.venueOrderMap.get k'

theorem Frame.trans {c'' : LiveConnectorBase} (h : c.Frame c' k) (h' : c'.Frame c'' k) :
    c.Frame c'' k where
  exchange := h'.exchange.trans h.exchange
  retryPolicy := h'.retryPolicy.trans h.retryPolicy
  entry k' hne := (h'.entry k' hne).trans (h.entry k' hne)
  mapped k' hne := (h'.mapped k' hne).trans (h.mapped k' hne)

theorem frame_mapOrder (c : LiveConnectorBase) (k : ℕ) (v : CString) (symbol : Symbol) :
    c.Frame (c.mapOrder k v symbol).2 k := by
  unfold mapOrder
  cases hup : c.venueOrderMap.upsert k v c.exchange symbol.chars with
  | none => exact ⟨rfl, rfl, fun _ _ => rfl, fun _ _ => rfl⟩
  | some m =>
    exact ⟨rfl, rfl, fun _ _ => rfl, fun _ hne => VenueOrderMap.get_upsert_of_ne hup hne⟩

/-- A journal that differs in the entry of one submission. -/
theorem frame_journal {j : IdempotencyJournal}
    (h : ∀ k', k' ≠ k → entryOf j.entries .submit k' = entryOf c.journal.entries .submit k') :
    c.Frame { c with journal := j } k :=
  ⟨rfl, rfl, h, fun _ _ => rfl⟩

theorem frame_finishSubmit {e : JournalEntry}
    (he : entryOf c.journal.entries .submit order.clientOrderId = some e)
    (result : ConnectorResult) (v : CString) (opened : Bool) :
    c.Frame (c.finishSubmit order result v opened).2 order.clientOrderId := by
  have hne : ∀ k', k' ≠ order.clientOrderId →
      (JournalOperation.submit, k') ≠ (.submit, order.clientOrderId) :=
    fun k' hne hc => hne (Prod.mk.inj hc).2
  unfold finishSubmit
  split_ifs
  · refine (frame_journal fun k' hk => ?_).trans (frame_mapOrder ..)
    exact (IdempotencyJournal.ack_puts he v 0 opened).writes.other _ _ (hne k' hk)
  · exact frame_journal fun k' hk =>
      (IdempotencyJournal.fail_puts he 0 opened).writes.other _ _ (hne k' hk)

/-- The submission of an order has been entered into the journal, and is in flight. -/
structure InFlight (c base : LiveConnectorBase) (k : ℕ) : Prop where
  tidy : base.Tidy
  frame : c.Frame base k
  map : base.venueOrderMap = c.venueOrderMap
  entry : ∃ e, entryOf base.journal.entries .submit k = some e ∧ e.state = .inFlight

/-- **The submission of a new order** is refused, and leaves everything, or it is in flight. -/
theorem Tidy.beginSubmit_fresh (h : c.Tidy)
    (hnone : entryOf c.journal.entries .submit order.clientOrderId = none) (opened : Bool) :
    (∃ result, c.beginSubmit order opened = (some result, c)) ∨
      ∃ base, c.beginSubmit order opened = (none, base) ∧
        c.InFlight base order.clientOrderId := by
  obtain ⟨d, j, hbegin⟩ : ∃ d j,
    c.journal.begin .submit order.clientOrderId 0 opened = (d, j) := ⟨_, _, rfl⟩
  have hcases := IdempotencyJournal.begin_cases h.table.idle .submit order.clientOrderId 0 opened
  have htidy := IdempotencyJournal.tidy_begin .submit order.clientOrderId 0 opened h.table
  rw [hbegin] at hcases htidy
  simp only [beginSubmit, hbegin]
  rcases hcases with ⟨-, heq⟩ | ⟨e, he, -⟩ | ⟨-, e, -, -, -, -, rfl, hputs⟩
  · obtain ⟨rfl, rfl⟩ := Prod.mk.inj heq
    exact Or.inl ⟨.errorUnknown, rfl⟩
  · rw [hnone] at he
    cases he
  · exact Or.inr ⟨_, rfl,
      { tidy := h.withJournal htidy
        frame := frame_journal fun k' hne =>
          hputs.writes.other .submit k' fun hc => hne (Prod.mk.inj hc).2
        map := rfl
        entry := ⟨_, hputs.writes.self, rfl⟩ }⟩

/-- An order that is accepted is acked, and one that is not fails and is not mapped. -/
theorem InFlight.after_finishSubmit {base : LiveConnectorBase}
    (h : c.InFlight base order.clientOrderId)
    (hmap : c.venueOrderMap.get order.clientOrderId = none) (result : ConnectorResult)
    (v : CString) (opened : Bool) :
    ∃ e, entryOf (base.finishSubmit order result v opened).2.journal.entries .submit
        order.clientOrderId = some e ∧
      if result = .ok then e.state = .acked
      else e.state = .failed ∧
        (base.finishSubmit order result v opened).2.venueOrderMap.get order.clientOrderId =
          none := by
  obtain ⟨e, he, -⟩ := h.entry
  have hack := (IdempotencyJournal.ack_puts he v 0 opened).writes.self
  have hfail := (IdempotencyJournal.fail_puts he 0 opened).writes.self
  unfold finishSubmit
  split_ifs
  · rw [mapOrder_snd]
    exact ⟨_, hack, rfl⟩
  · exact ⟨_, hfail, rfl, h.map ▸ hmap⟩

end LiveConnectorBase

namespace VenueWorld

variable {lib : VenueLibrary} {w : VenueWorld} {turn : OrderTurn}

/-! ## One submission -/

theorem keyOf_injective (w : VenueWorld) : Function.Injective w.keyOf :=
  w.connector.base.makeIdempotencyKey_injective

/-- A submission of a new order that is refused leaves everything. -/
theorem step_of_refused {result : ConnectorResult}
    (h : w.connector.base.beginSubmit turn.order turn.opened = (some result, w.connector.base)) :
    w.made lib turn = [] ∧ w.step lib turn = w := by
  have hmade : w.made lib turn = [] := by
    simp only [made, VenueConnector.made, VenueConnector.asks, h]
  refine ⟨hmade, ?_⟩
  rw [step, hmade, VenueConnector.submitOrder, h]
  rfl

/-- What a submission in flight comes to: what the last attempt does, if there is one. -/
theorem step_of_none {base : LiveConnectorBase}
    (h : w.connector.base.beginSubmit turn.order turn.opened = (none, base)) :
    (w.made lib turn = [] ∧ (w.step lib turn).connector.base =
        (base.finishSubmit turn.order .errorUnknown [] turn.opened').2) ∨
      ∃ x ∈ w.made lib turn,
        (∀ y ∈ w.made lib turn, retriesAfter (w.reading lib turn y) = true ∨ y = x) ∧
        match w.reading lib turn x with
        | .ok result => ∃ v, (w.step lib turn).connector.base =
            (base.finishSubmit turn.order result v turn.opened').2
        | .error _ => (w.step lib turn).connector.base = base := by
  have hasks : w.connector.asks (.submit turn.order) turn.opened turn.opened' =
      some (.submit turn.order, base) := by simp only [VenueConnector.asks, h]
  rcases @VenueConnector.serve_of_made lib w.connector _ turn.replies _ _ _ _ hasks with
    ⟨hmade, hcomes⟩ | ⟨x, hx, hothers, hcomes⟩
  · exact Or.inl ⟨hmade, hcomes.base⟩
  · have hbase := hcomes.base
    refine Or.inr ⟨x, List.mem_of_getLast? hx, hothers, ?_⟩
    unfold reading VenueConnector.reading
    cases hlast : (w.connector.venue.attemptAt lib (.submit turn.order) turn.replies x.1 x.2).1 with
    | ok result =>
      rw [hlast] at hbase
      exact ⟨_, hbase⟩
    | error fault =>
      rw [hlast] at hbase
      exact hbase

/-- The stores after a submission that is in flight. -/
theorem step_base_cases {base : LiveConnectorBase}
    (h : w.connector.base.beginSubmit turn.order turn.opened = (none, base)) :
    (w.step lib turn).connector.base = base ∨ ∃ result v, (w.step lib turn).connector.base =
      (base.finishSubmit turn.order result v turn.opened').2 := by
  rcases @step_of_none lib w turn base h with ⟨-, hbase⟩ | ⟨x, -, -, hlast⟩
  · exact Or.inr ⟨_, _, hbase⟩
  · cases hreading : w.reading lib turn x with
    | ok result =>
      rw [hreading] at hlast
      obtain ⟨v, hv⟩ := hlast
      exact Or.inr ⟨result, v, hv⟩
    | error fault =>
      rw [hreading] at hlast
      exact Or.inl hlast

/-- **The submission of a new order** keeps the stores tidy, and leaves all other orders. -/
theorem frame_step (h : w.connector.base.Tidy) (hf : w.Fresh turn.order.clientOrderId) :
    (w.step lib turn).connector.base.Tidy ∧
      w.connector.base.Frame (w.step lib turn).connector.base turn.order.clientOrderId := by
  rcases h.beginSubmit_fresh hf.journal turn.opened with ⟨result, hbegin⟩ | ⟨base, hbegin, hflight⟩
  · rw [(step_of_refused hbegin).2]
    exact ⟨h, rfl, rfl, fun _ _ => rfl, fun _ _ => rfl⟩
  · rcases @step_base_cases lib w turn base hbegin with hbase | ⟨result, v, hbase⟩
    · rw [hbase]
      exact ⟨hflight.tidy, hflight.frame⟩
    · obtain ⟨e, he, -⟩ := hflight.entry
      rw [hbase]
      exact ⟨hflight.tidy.after_finishSubmit .., hflight.frame.trans
        (LiveConnectorBase.frame_finishSubmit he result v turn.opened')⟩

/-- A key of another order. -/
theorem mem_orders_step {key : CString} (hne : key ≠ w.keyOf turn.order.clientOrderId) :
    key ∈ (w.step lib turn).orders ↔ key ∈ w.orders := by
  rw [step]
  simp only
  split_ifs
  · rw [List.mem_insert_iff, or_iff_right hne]
  · rfl

theorem keyOf_step (h : w.connector.base.Tidy) (hf : w.Fresh turn.order.clientOrderId) (k : ℕ) :
    (w.step lib turn).keyOf k = w.keyOf k := by
  rw [keyOf, keyOf, LiveConnectorBase.makeIdempotencyKey, (frame_step h hf).2.exchange]
  rfl

/-- What is known of another order. -/
theorem covered_step (h : w.connector.base.Tidy) (hf : w.Fresh turn.order.clientOrderId) {k : ℕ}
    (hne : k ≠ turn.order.clientOrderId) : (w.step lib turn).Covered k ↔ w.Covered k := by
  have hframe := (@frame_step lib w turn h hf).2
  rw [Covered, Covered, hframe.mapped k hne, hframe.entry k hne]

/-- A new order stays new while others are submitted. -/
theorem Fresh.step (h : w.connector.base.Tidy) (hf : w.Fresh turn.order.clientOrderId) {k : ℕ}
    (hne : k ≠ turn.order.clientOrderId) (hk : w.Fresh k) : (w.step lib turn).Fresh k where
  venue := by
    rw [keyOf_step h hf, mem_orders_step (w.keyOf_injective.ne hne)]
    exact hk.venue
  map := ((frame_step h hf).2.mapped k hne).trans hk.map
  journal := ((frame_step h hf).2.entry k hne).trans hk.journal

/-- **The order that is submitted** is covered, if there is one, exactly when the venue was
heard. -/
theorem covered_self_iff (h : w.connector.base.Tidy) (hf : w.Fresh turn.order.clientOrderId) :
    (w.keyOf turn.order.clientOrderId ∈ (w.step lib turn).orders →
      (w.step lib turn).Covered turn.order.clientOrderId) ↔ w.Heard lib turn := by
  have horders : w.keyOf turn.order.clientOrderId ∈ (w.step lib turn).orders ↔
      ∃ x ∈ w.made lib turn, w.executed lib turn x = true := by
    rw [VenueWorld.step, ← List.any_eq_true]
    simp only
    split_ifs with hany
    · exact iff_of_true (List.mem_insert_self ..) hany
    · exact iff_of_false hf.venue hany
  rw [horders, Heard]
  rcases h.beginSubmit_fresh hf.journal turn.opened with ⟨result, hbegin⟩ | ⟨base, hbegin, hflight⟩
  · rw [(step_of_refused hbegin).1]
    simp
  rcases @step_of_none lib w turn base hbegin with ⟨hmade, -⟩ | ⟨x, hx, hothers, hlast⟩
  · rw [hmade]
    simp
  refine imp_congr_right fun _ => ?_
  cases hreading : w.reading lib turn x with
  | error fault =>
    -- the entry stays in flight
    rw [hreading] at hlast
    obtain ⟨e, he, hstate⟩ := hflight.entry
    exact iff_of_true (Or.inr ⟨e, by rw [hlast, he], Or.inl hstate⟩) ⟨x, hx, Or.inr ⟨_, hreading⟩⟩
  | ok result =>
    rw [hreading] at hlast
    obtain ⟨v, hbase⟩ := hlast
    obtain ⟨e, he, hstate⟩ := hflight.after_finishSubmit hf.map result v turn.opened'
    by_cases hok : result = .ok
    · rw [if_pos hok] at hstate
      exact iff_of_true (Or.inr ⟨e, by rw [hbase, he], Or.inr hstate⟩)
        ⟨x, hx, Or.inl (by rw [hreading, hok])⟩
    · rw [if_neg hok] at hstate
      refine iff_of_false ?_ ?_
      · rw [Covered, hbase, he, hstate.2]
        rintro (hmap | ⟨e', he', hstate'⟩)
        · exact hmap rfl
        · rw [← Option.some.inj he', hstate.1] at hstate'
          exact absurd hstate' (by decide)
      · rintro ⟨y, hy, hanswer⟩
        rcases hothers y hy with hagain | rfl
        · rcases hanswer with hanswer | ⟨fault, hanswer⟩ <;> rw [hanswer] at hagain <;> cases hagain
        · rw [hreading] at hanswer
          rcases hanswer with hanswer | ⟨fault, hanswer⟩
          · exact hok (Except.ok.inj hanswer)
          · cases hanswer

/-- **One submission** leaves no orphan exactly when there was none before, and the venue was
heard. -/
theorem noOrphans_step_iff (h : w.connector.base.Tidy) (hf : w.Fresh turn.order.clientOrderId) :
    (w.step lib turn).NoOrphans ↔ w.NoOrphans ∧ w.Heard lib turn := by
  simp only [NoOrphans, keyOf_step h hf]
  rw [← covered_self_iff h hf]
  constructor
  · refine fun hall => ⟨fun k hk => ?_, hall _⟩
    by_cases hne : k = turn.order.clientOrderId
    · exact absurd (hne ▸ hk) hf.venue
    · exact (covered_step h hf hne).mp
        (hall k ((mem_orders_step (w.keyOf_injective.ne hne)).mpr hk))
  · rintro ⟨hall, hself⟩ k hk
    by_cases hne : k = turn.order.clientOrderId
    · subst hne
      exact hself hk
    · exact (covered_step h hf hne).mpr
        (hall k ((mem_orders_step (w.keyOf_injective.ne hne)).mp hk))

/-! ## Runs -/

/-- **There are no orphan orders** after any submissions of new orders exactly when the venue was
heard in each of them. -/
theorem noOrphans_iff {turns : List OrderTurn} (h : w.connector.base.Tidy) (hstart : w.NoOrphans)
    (hdistinct : (turns.map fun turn => turn.order.clientOrderId).Nodup)
    (hfresh : ∀ turn ∈ turns, w.Fresh turn.order.clientOrderId) :
    (w.run lib turns).NoOrphans ↔ AllSteps (step lib) (Heard lib) w turns := by
  have hrun : (w.run lib turns).NoOrphans ↔
      w.NoOrphans ∧ AllSteps (step lib) (Heard lib) w turns := by
    clear hstart
    induction turns generalizing w with
    | nil => exact (and_iff_left trivial).symm
    | cons turn turns ih =>
      obtain ⟨hnew, hdistinct⟩ := List.nodup_cons.mp hdistinct
      have hf := hfresh turn (List.mem_cons_self ..)
      have hnext := ih (w := w.step lib turn) (frame_step h hf).1 hdistinct fun turn' hmem =>
        Fresh.step h hf (fun hc => hnew (List.mem_map.mpr ⟨turn', hmem, hc⟩))
          (hfresh turn' (List.mem_cons_of_mem _ hmem))
      rw [run, List.foldl_cons, ← run, hnext, noOrphans_step_iff h hf, and_assoc]
      rfl
  exact hrun.trans (and_iff_right hstart)

/-- A library that reads one text, as an order id. -/
def idLibrary : VenueLibrary where
  parse text :=
    if text = "id".toList then some (.object [("orderId".toList, .string "V1".toList)]) else none
  strtod _ := none
  formatDecimal _ := []

/-- A new connector of Binance, whose venue has no orders. -/
def quiet : VenueWorld where
  connector := { venue := .binance, base := .new .binance ⟨3⟩ [] }
  orders := []

/-- The venue executes the first request, and accepts it. -/
def acceptedTurn : OrderTurn where
  order := LiveConnectorBase.bid 1
  replies _ := { exchangeInfo := ⟨0, []⟩, order := ⟨200, "id".toList⟩ }
  executes _ := true

/-- The venue executes the first request, the answer is lost, and the next request is refused as a
repeated one. -/
def lostTurn : OrderTurn where
  order := LiveConnectorBase.bid 1
  replies n := { exchangeInfo := ⟨0, []⟩, order := if n = 1 then ⟨0, []⟩ else ⟨400, []⟩ }
  executes _ := true

theorem quiet_start : quiet.connector.base.Tidy ∧ quiet.NoOrphans ∧ quiet.Fresh 1 :=
  ⟨LiveConnectorBase.tidy_new .binance ⟨3⟩ [], fun _ hk => absurd hk List.not_mem_nil,
    List.not_mem_nil, by decide +kernel, by decide +kernel⟩

/-- An order that is accepted at once is no orphan. -/
theorem noOrphans_accepted : (quiet.run idLibrary [acceptedTurn]).NoOrphans := by
  have hmade : quiet.made idLibrary acceptedTurn = [(1, {})] := by decide +kernel
  have hdistinct : ([acceptedTurn].map fun turn => turn.order.clientOrderId).Nodup := by decide
  refine (noOrphans_iff quiet_start.1 quiet_start.2.1 hdistinct fun turn hmem => ?_).mpr
    ⟨fun _ => ⟨(1, {}), by rw [hmade]; exact List.mem_singleton_self _, Or.inl ?_⟩, trivial⟩
  · rw [List.mem_singleton.mp hmem]
    exact quiet_start.2.2
  · decide +kernel

/-- **An order whose acknowledgement is lost** is refused when it is asked for again: the call
reports an invalid order and journals a failure, and the order is live. -/
theorem lost_acknowledgement_orphan :
    quiet.connector.base.Tidy ∧ quiet.NoOrphans ∧ quiet.Fresh 1 ∧
      quiet.Truthful idLibrary lostTurn ∧
      (quiet.run idLibrary [lostTurn]).keyOf 1 ∈ (quiet.run idLibrary [lostTurn]).orders ∧
      (quiet.connector.submitOrder idLibrary lostTurn.order lostTurn.replies true true).1 =
        .ok .errorInvalidOrder ∧
      (entryOf (quiet.run idLibrary [lostTurn]).connector.base.journal.entries .submit 1).map
        JournalEntry.state = some .failed ∧
      ¬ (quiet.run idLibrary [lostTurn]).NoOrphans := by
  have hmade : quiet.made idLibrary lostTurn = [(1, {}), (2, {})] := by decide +kernel
  have hlive : (quiet.run idLibrary [lostTurn]).keyOf 1 ∈
      (quiet.run idLibrary [lostTurn]).orders := by decide +kernel
  have hfailed : (entryOf (quiet.run idLibrary [lostTurn]).connector.base.journal.entries .submit
      1).map JournalEntry.state = some .failed := by decide +kernel
  refine ⟨quiet_start.1, quiet_start.2.1, quiet_start.2.2, fun before x after hsplit _ => ?_, hlive,
    by decide +kernel, hfailed, fun hall => ?_⟩
  · rw [hmade] at hsplit
    rcases before with _ | ⟨y, _ | ⟨z, before⟩⟩
    · -- the venue does not have the key yet
      obtain ⟨rfl, -⟩ := List.cons.inj hsplit
      refine ⟨fun hknown => ?_, fun _ _ => Or.inr (Or.inl (by decide +kernel))⟩
      rcases hknown with hmem | ⟨y, hy, -⟩
      · exact absurd hmem List.not_mem_nil
      · exact absurd hy List.not_mem_nil
    · obtain ⟨rfl, hrest⟩ := List.cons.inj hsplit
      obtain ⟨rfl, -⟩ := List.cons.inj hrest
      refine ⟨fun _ => Or.inl rfl, fun hnot _ => absurd (Or.inr ?_) hnot⟩
      exact ⟨_, List.mem_singleton_self _, by decide +kernel⟩
    · have hlength := congrArg List.length hsplit
      simp at hlength
  · have hunmapped : (quiet.run idLibrary [lostTurn]).connector.base.venueOrderMap.get
      1 = none := by
      decide +kernel
    rcases hall 1 hlive with hmap | ⟨e, he, hstate⟩
    · exact hmap hunmapped
    · rw [he, Option.map_some, Option.some.injEq] at hfailed
      rw [hfailed] at hstate
      exact absurd hstate (by decide)

end VenueWorld

end TradingInfrastructure
