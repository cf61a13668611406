import TradingInfrastructure.Connectors.LiveConnectorBase
import TradingInfrastructure.Connectors.JournalContents

/-!
# Orders across runs of the engine

The runs of the engine share the journal file of a connector, and each of them numbers its orders
from one again. `EngineRuns` follows the connector through its calls and through the ends of the
processes, between two calls or in the middle of one, beside what the venue has accepted.

An entry of the journal that is acked carries the venue order id of an accepted submission, or of
an accepted cancel, under its client order id (`Backed`), in the table and in the file, in whatever
run it was written. So a submission or a cancel that is answered from the journal tells the truth
when the order that left the entry is the order that is meant (`Clean`). When another order has
left it, the call returns OK without asking the venue.
-/

namespace TradingInfrastructure

open Fields (NoBlank)

/-- The two orders have the same symbol, side, quantity and price. -/
def Order.SameAs (o o' : Order) : Prop :=
  o.symbol = o'.symbol ∧ o.side = o'.side ∧ o.quantity = o'.quantity ∧ o.price = o'.price

instance (o o' : Order) : Decidable (o.SameAs o') := inferInstanceAs (Decidable (_ ∧ _ ∧ _ ∧ _))

theorem Order.SameAs.refl (o : Order) : o.SameAs o := ⟨rfl, rfl, rfl, rfl⟩

/-- The entry carries this venue order id. The file has a sign for an empty one. -/
def JournalEntry.Carries (e : JournalEntry) (v : CString) : Prop :=
  e.venueOrderId = strncpyBuf 64 v ∨ (strncpyBuf 64 v = [] ∧ e.venueOrderId = ['-'])

instance (e : JournalEntry) (v : CString) : Decidable (e.Carries v) :=
  inferInstanceAs (Decidable (_ ∨ _))

/-- A submission that the venue has accepted, with the id that it has given to the order. -/
structure Submission where
  order : Order
  idempotencyKey : CString
  venueOrderId : CString
  deriving DecidableEq

/-- The connector over all runs of the engine, the submissions and the cancels that the venue has
accepted, and the order that was last submitted under each client order id. -/
structure EngineRuns where
  connector : LiveConnectorBase
  accepted : List Submission
  cancelled : List VenueOrderEntry
  current : ℕ → Option Order

/-- The calls of the connector, with the answers of the venue and whether each append opens the
file. A call may be cut short by the end of the process, before the venue was asked or after. -/
inductive LiveCall
  | submit (order : Order) (answers : ℕ → VenueAnswer) (opened opened' : Bool)
  | cancel (clientOrderId : ℕ) (answers : ℕ → VenueAnswer) (opened opened' : Bool)
  | submitCut (order : Order) (answers : ℕ → VenueAnswer) (opened asked : Bool)
  | cancelCut (clientOrderId : ℕ) (answers : ℕ → VenueAnswer) (opened opened' asked : Bool)
  | restart

/-- The client order id of the call is a 64-bit one. -/
def LiveCall.Typed : LiveCall → Prop
  | submit order .. | submitCut order .. => order.clientOrderId < 2 ^ 64
  | cancel clientOrderId .. | cancelCut clientOrderId .. => clientOrderId < 2 ^ 64
  | restart => True

namespace EngineRuns

/-- The first run starts without a journal file. -/
def start (exchange : Exchange) (retryPolicy : RetryPolicy) : EngineRuns where
  connector := .new exchange retryPolicy []
  accepted := []
  cancelled := []
  current := fun _ => none

/-- The accepted submissions once the venue has been asked for an order. -/
def acceptedAfter (t : EngineRuns) (order : Order) (answers : ℕ → VenueAnswer) (opened : Bool) :
    List Submission :=
  match t.connector.beginSubmit order opened with
  | (some _, _) => t.accepted
  | (none, c) =>
    match c.attempt answers with
    | (.ok, venueOrderId) =>
      t.accepted ++ [⟨order, c.makeIdempotencyKey order.clientOrderId, venueOrderId⟩]
    | _ => t.accepted

/-- The accepted cancels once the venue has been asked to cancel an order. -/
def cancelledAfter (t : EngineRuns) (clientOrderId : ℕ) (answers : ℕ → VenueAnswer)
    (opened opened' : Bool) : List VenueOrderEntry :=
  match t.connector.beginCancel clientOrderId opened opened' with
  | (.inl _, _) => t.cancelled
  | (.inr mapped, c) =>
    match c.attempt answers with
    | (.ok, _) => t.cancelled ++ [mapped]
    | _ => t.cancelled

/-- A new process reads the file that the old one has left. -/
def reload (c : LiveConnectorBase) : LiveConnectorBase :=
  .new c.exchange c.retryPolicy c.journal.file

/-- The order is the last one submitted under its client order id. -/
def noteOrder (t : EngineRuns) (order : Order) : ℕ → Option Order :=
  Function.update t.current order.clientOrderId (some order)

/-- What a call returns, if it does. -/
def result (t : EngineRuns) : LiveCall → Option ConnectorResult
  | .submit order answers opened opened' =>
    some (t.connector.submitOrder order answers opened opened').1
  | .cancel clientOrderId answers opened opened' =>
    some (t.connector.cancelOrder clientOrderId answers opened opened').1
  | .submitCut .. | .cancelCut .. | .restart => none

def step (t : EngineRuns) : LiveCall → EngineRuns
  | .submit order answers opened opened' =>
    { connector := (t.connector.submitOrder order answers opened opened').2
      accepted := t.acceptedAfter order answers opened
      cancelled := t.cancelled
      current := t.noteOrder order }
  | .cancel clientOrderId answers opened opened' =>
    { t with
      connector := (t.connector.cancelOrder clientOrderId answers opened opened').2
      cancelled := t.cancelledAfter clientOrderId answers opened opened' }
  | .submitCut order answers opened asked =>
    { connector := reload (t.connector.beginSubmit order opened).2
      accepted := if asked then t.acceptedAfter order answers opened else t.accepted
      cancelled := t.cancelled
      current := t.noteOrder order }
  | .cancelCut clientOrderId answers opened opened' asked =>
    { t with
      connector := reload (t.connector.beginCancel clientOrderId opened opened').2
      cancelled :=
        if asked then t.cancelledAfter clientOrderId answers opened opened' else t.cancelled }
  | .restart => { t with connector := reload t.connector }

/-! ## What an OK says -/

/-- The venue has accepted a submission of this very order. -/
def Submitted (t : EngineRuns) (o : Order) : Prop :=
  ∃ s ∈ t.accepted, s.order.clientOrderId = o.clientOrderId ∧ s.order.SameAs o

/-- The venue has accepted a submission of this very order, and a cancel of what it accepted. -/
def Withdrawn (t : EngineRuns) (o : Order) (clientOrderId : ℕ) : Prop :=
  ∃ s ∈ t.accepted, s.order.clientOrderId = clientOrderId ∧ s.order.SameAs o ∧
    ∃ e ∈ t.cancelled, e.clientOrderId = clientOrderId ∧
      e.venueOrderId = strncpyBuf 48 s.venueOrderId

/-- An OK is only returned for what the venue has accepted. -/
def Honest (t : EngineRuns) (c : LiveCall) : Prop :=
  t.result c = some .ok →
    match c with
    | .submit order .. => (t.step c).Submitted order
    | .cancel clientOrderId .. =>
      ∃ o, t.current clientOrderId = some o ∧ (t.step c).Withdrawn o clientOrderId
    | _ => True

/-- An acked entry of this submission was left by this very order. -/
def OwnEntry (t : EngineRuns) (order : Order) : Prop :=
  ∀ e ∈ t.connector.journal.entries.entryOf .submit order.clientOrderId, e.state = .acked →
    ∀ s ∈ t.accepted, s.order.clientOrderId = order.clientOrderId → e.Carries s.venueOrderId →
      s.order.SameAs order

/-- An acked entry of this cancel was left by a cancel of the order last submitted under the id. -/
def OwnCancel (t : EngineRuns) (clientOrderId : ℕ) : Prop :=
  ∀ e ∈ t.connector.journal.entries.entryOf .cancel clientOrderId, e.state = .acked →
    ∀ s ∈ t.accepted, s.order.clientOrderId = clientOrderId →
      e.Carries (strncpyBuf 48 s.venueOrderId) →
        ∃ o ∈ t.current clientOrderId, s.order.SameAs o

/-- No other order stands behind the journal's answer to the call, and the venue order ids are
single words. -/
def Clean (t : EngineRuns) : LiveCall → Prop
  | .submit order answers .. | .submitCut order answers .. =>
    (∀ n v, (answers n).venueOrderId = some v → NoBlank v) ∧ t.OwnEntry order
  | .cancel clientOrderId .. | .cancelCut clientOrderId .. => t.OwnCancel clientOrderId
  | .restart => True

instance (t : EngineRuns) (o : Order) : Decidable (t.Submitted o) :=
  inferInstanceAs (Decidable (∃ s ∈ t.accepted, _))

instance (t : EngineRuns) (o : Order) : Decidable (t.OwnEntry o) :=
  inferInstanceAs (Decidable (∀ e ∈ JournalTable.entryOf .., _))

instance (t : EngineRuns) (k : ℕ) : Decidable (t.OwnCancel k) :=
  inferInstanceAs (Decidable (∀ e ∈ JournalTable.entryOf .., _))

/-! ## What the journal says -/

/-- An entry that is acked was left by a submission, or a cancel, that the venue has accepted. -/
def Backed (accepted : List Submission) (cancelled : List VenueOrderEntry) (e : JournalEntry) :
    Prop :=
  e.state = .acked →
    (e.op = .submit → ∃ s ∈ accepted, s.order.clientOrderId = e.clientOrderId ∧
      e.Carries s.venueOrderId) ∧
    (e.op = .cancel → ∃ m ∈ cancelled, m.clientOrderId = e.clientOrderId ∧
      e.Carries m.venueOrderId)

/-- Every entry of the journal, and every line of its file, is well formed and backed. -/
structure Sound (accepted : List Submission) (cancelled : List VenueOrderEntry)
    (j : IdempotencyJournal) : Prop where
  entries : ∀ e ∈ j.entries, e.WellFormed ∧ Backed accepted cancelled e
  idle : ∀ e ∈ j.entries, e.used = false → e = {}
  file : ∃ es : List JournalEntry, j.file = es.flatMap JournalEntry.line ∧
    ∀ e ∈ es, e.WellFormed ∧ Backed accepted cancelled e

/-- Only an entry that is acked needs anything behind it. -/
theorem Backed.of_ne {A : List Submission} {C : List VenueOrderEntry} {e : JournalEntry}
    (h : e.state ≠ .acked) : Backed A C e :=
  fun hacked => absurd hacked h

section Sound

variable {A A' : List Submission} {C C' : List VenueOrderEntry} {j j' : IdempotencyJournal}
  {op : JournalOperation} {k : ℕ} {e : JournalEntry}

theorem Backed.mono (h : Backed A C e) (hA : ∀ s ∈ A, s ∈ A') (hC : ∀ m ∈ C, m ∈ C') :
    Backed A' C' e := by
  intro hacked
  obtain ⟨hsubmit, hcancel⟩ := h hacked
  refine ⟨fun hop => ?_, fun hop => ?_⟩
  · obtain ⟨s, hs, hid, hcarries⟩ := hsubmit hop
    exact ⟨s, hA s hs, hid, hcarries⟩
  · obtain ⟨m, hm, hid, hcarries⟩ := hcancel hop
    exact ⟨m, hC m hm, hid, hcarries⟩

theorem Sound.mono (h : Sound A C j) (hA : ∀ s ∈ A, s ∈ A') (hC : ∀ m ∈ C, m ∈ C') :
    Sound A' C' j := by
  obtain ⟨es, hfile, hes⟩ := h.file
  exact ⟨fun e he => ⟨(h.entries e he).1, (h.entries e he).2.mono hA hC⟩, h.idle, es, hfile,
    fun e he => ⟨(hes e he).1, (hes e he).2.mono hA hC⟩⟩

/-- An entry that is not in use needs nothing behind it. -/
theorem sound_iff_holds : Sound A C j ↔ j.Holds (Backed A C) := by
  constructor
  · intro h
    exact ⟨fun e he => ⟨(h.entries e he).1, fun _ => (h.entries e he).2⟩, h.idle, h.file⟩
  · intro h
    refine ⟨fun e he => ⟨(h.entries e he).1, ?_⟩, h.idle, h.file⟩
    by_cases hused : e.used = true
    · exact (h.entries e he).2 hused
    · rw [h.idle e he (Bool.not_eq_true _ ▸ hused)]
      exact .of_ne (by decide)

/-- **An entry that is put into the journal** keeps it sound when the entry is. -/
theorem Sound.puts (h : Sound A C j) {opened : Bool}
    (hputs : IdempotencyJournal.Puts j j' op k opened e)
    (hwf : e.WellFormed) (hused : e.used = true) (hbacked : Backed A C e) : Sound A C j' :=
  sound_iff_holds.mpr ((sound_iff_holds.mp h).puts hputs hwf hused hbacked)

/-- The table stays as it is. -/
theorem Sound.of_eq (h : Sound A C j) (hentries : j'.entries = j.entries)
    (hfile : j'.file = j.file) :
    Sound A C j' :=
  sound_iff_holds.mpr ((sound_iff_holds.mp h).of_eq hentries hfile)

/-- The entry that a line is read as carries what the line was written for. -/
theorem Backed.read (h : Backed A C e) :
    Backed A C { e with used := true, venueOrderId := e.venueText } := by
  have hcarries : ∀ v, e.Carries v →
      JournalEntry.Carries { e with used := true, venueOrderId := e.venueText } v := by
    intro v hv
    simp only [JournalEntry.Carries, JournalEntry.venueText] at hv ⊢
    split
    · exact hv
    · next hempty =>
      rcases hv with he | ⟨-, he⟩
      · exact Or.inr ⟨he ▸ not_not.mp hempty, rfl⟩
      · rw [he] at hempty
        exact absurd (List.cons_ne_nil _ _) hempty
  intro hacked
  obtain ⟨hsubmit, hcancel⟩ := h hacked
  refine ⟨fun hop => ?_, fun hop => ?_⟩
  · obtain ⟨s, hs, hid, hv⟩ := hsubmit hop
    exact ⟨s, hs, hid, hcarries _ hv⟩
  · obtain ⟨m, hm, hid, hv⟩ := hcancel hop
    exact ⟨m, hm, hid, hcarries _ hv⟩

/-- **The journal that is read from the file is sound.** -/
theorem Sound.load (h : Sound A C j) : Sound A C (.load j.file) :=
  sound_iff_holds.mpr ((sound_iff_holds.mp h).load fun _ hbacked => hbacked.read)

end Sound

end EngineRuns

end TradingInfrastructure
