import TradingInfrastructure.Feeds.BinanceFeedHandler
import TradingInfrastructure.Foundations.Runs
import TradingInfrastructure.OrderBook.Acceptance

/-!
# The book behind the calls of a handler

A handler streams once it has accepted a snapshot, and the book is initialized once it has taken
one. The callback between them has no answer, so that the handler does not learn what the book made
of its snapshot.

What a handler publishes in a step is either deltas, when it was ready for them, or a snapshot and
then deltas (`Publishes`). From this alone it follows that the book comes from the last snapshot and
refuses no delta, as long as the book can use every snapshot that a step offers (`Feeding.step`).
-/

namespace TradingInfrastructure

/-! ## What the book makes of the calls -/

/-- The book takes the snapshot, and its grid reaches enough of it. -/
def Usable (bytesOf : ℚ → List UInt8) (b : OrderBook) (s : Snapshot) : Prop :=
  b.Takes bytesOf s ∧ b.Reaches s

instance (bytesOf : ℚ → List UInt8) (b : OrderBook) (s : Snapshot) :
    Decidable (Usable bytesOf b s) :=
  inferInstanceAs (Decidable (_ ∧ _))

/-- The book was initialized from the last snapshot of the calls, and still is. -/
def FromLatest (bytesOf : ℚ → List UInt8) (b₀ : OrderBook) (calls : List Publication) : Prop :=
  ∃ before s after, calls = before ++ .snapshot s :: after ∧
    (∀ s', Publication.snapshot s' ∉ after) ∧
    ((bookAfter bytesOf b₀ before).applySnapshot bytesOf s).1 = .success ∧
    (bookAfter bytesOf b₀ calls).initialized = true

/-- The book does not drop a delta for want of a snapshot. -/
def NotRefused (bytesOf : ℚ → List UInt8) (b₀ : OrderBook) (before : List Publication)
    (call : Publication) : Prop :=
  ∀ d, call = .delta d →
    ((bookAfter bytesOf b₀ before).applyDelta d).1 ≠ .errorBookCorrupted

/-- The book can use the snapshot that a step offers. -/
def OfferUsable (bytesOf : ℚ → List UInt8) (b₀ : OrderBook) (calls : List Publication)
    (offer : Option Snapshot) : Prop :=
  ∀ s ∈ offer, Usable bytesOf (bookAfter bytesOf b₀ calls) s

instance (bytesOf : ℚ → List UInt8) (b₀ : OrderBook) (calls : List Publication) :
    ∀ offer, Decidable (OfferUsable bytesOf b₀ calls offer)
  | none => isTrue fun _ hs => by cases hs
  | some s => decidable_of_iff (Usable bytesOf (bookAfter bytesOf b₀ calls) s)
      ⟨fun h _ hs => Option.some.inj hs ▸ h, fun h => h s rfl⟩

/-- While a handler streams, the book comes from its latest snapshot; and the book has refused no
delta. -/
structure HasUsableBook (bytesOf : ℚ → List UInt8) (b₀ : OrderBook) (state : FeedState)
    (calls : List Publication) : Prop where
  latest : state = .streaming → FromLatest bytesOf b₀ calls
  applied : AtEach (NotRefused bytesOf b₀) calls

/-- A call behind others: the book can use a snapshot, and a delta has one before it. -/
structure Supplied (bytesOf : ℚ → List UInt8) (b₀ : OrderBook) (before : List Publication)
    (call : Publication) : Prop where
  snapshot : ∀ s, call = .snapshot s → Usable bytesOf (bookAfter bytesOf b₀ before) s
  delta : ∀ d, call = .delta d → ∃ s, Publication.snapshot s ∈ before

variable {bytesOf : ℚ → List UInt8} {b₀ : OrderBook} {calls calls' more : List Publication}

/-- A call that is no snapshot leaves the book initialized or not. -/
theorem bookAfter_initialized (hmore : ∀ s, Publication.snapshot s ∉ more) :
    (bookAfter bytesOf b₀ (calls ++ more)).initialized =
      (bookAfter bytesOf b₀ calls).initialized := by
  induction more generalizing calls with
  | nil => rw [List.append_nil]
  | cons call rest ih =>
    have hstep : (bookAfter bytesOf b₀ (calls ++ [call])).initialized =
        (bookAfter bytesOf b₀ calls).initialized := by
      rw [bookAfter_append]
      cases call with
      | snapshot s => exact absurd List.mem_cons_self (hmore s)
      | delta d => exact OrderBook.applyDelta_initialized
      | trade t => rfl
    rw [← List.singleton_append, ← List.append_assoc, ← hstep]
    exact ih fun s hs => hmore s (List.mem_cons_of_mem call hs)

/-- A snapshot that the book can use initializes it. -/
theorem Usable.initialized {s : Snapshot} (hs : Usable bytesOf (bookAfter bytesOf b₀ calls) s) :
    (bookAfter bytesOf b₀ (calls ++ [.snapshot s])).initialized = true := by
  rw [bookAfter_append]
  have hbook := OrderBook.applySnapshot_of_takes hs.1
  have hstep : bookAfter bytesOf (bookAfter bytesOf b₀ calls) [.snapshot s]
      = ((bookAfter bytesOf b₀ calls).applySnapshot bytesOf s).2 := rfl
  rw [hstep, hbook]
  exact decide_eq_true hs.2

/-- The last snapshot of the calls. -/
theorem exists_last_snapshot (hsome : ∃ s, Publication.snapshot s ∈ calls) :
    ∃ before s after, calls = before ++ .snapshot s :: after ∧
      ∀ s', Publication.snapshot s' ∉ after := by
  induction calls with
  | nil =>
    obtain ⟨s, hs⟩ := hsome
    cases hs
  | cons call rest ih =>
    by_cases hrest : ∃ s, Publication.snapshot s ∈ rest
    · obtain ⟨before, s, after, rfl, hafter⟩ := ih hrest
      exact ⟨call :: before, s, after, rfl, hafter⟩
    · obtain ⟨s, hs⟩ := hsome
      obtain rfl | hs := List.mem_cons.mp hs
      · exact ⟨[], s, rest, rfl, fun s' hs' => hrest ⟨s', hs'⟩⟩
      · exact absurd ⟨s, hs⟩ hrest

/-- There is one last snapshot. -/
theorem last_snapshot_unique {before after before' after' : List Publication} {s s' : Snapshot}
    (heq : before ++ .snapshot s :: after = before' ++ .snapshot s' :: after')
    (hafter : ∀ s, Publication.snapshot s ∉ after)
    (hafter' : ∀ s, Publication.snapshot s ∉ after') : before = before' ∧ s = s' := by
  obtain ⟨mid, rfl, hmid⟩ | ⟨mid, rfl, hmid⟩ := List.append_eq_append_iff.mp heq
  · cases mid with
    | nil =>
      cases hmid
      exact ⟨(List.append_nil before).symm, rfl⟩
    | cons call mid =>
      cases hmid
      exact absurd (by simp) (hafter s')
  · cases mid with
    | nil =>
      cases hmid
      exact ⟨List.append_nil before', rfl⟩
    | cons call mid =>
      cases hmid
      exact absurd (by simp) (hafter' s)

/-- **The book comes from the last snapshot exactly when it could use it.** -/
theorem fromLatest_iff {before after : List Publication} {s : Snapshot}
    (hafter : ∀ s, Publication.snapshot s ∉ after) :
    FromLatest bytesOf b₀ (before ++ .snapshot s :: after) ↔
      Usable bytesOf (bookAfter bytesOf b₀ before) s := by
  constructor
  · rintro ⟨before', s', after', heq, hafter', hsuccess, -⟩
    obtain ⟨rfl, rfl⟩ := last_snapshot_unique heq hafter hafter'
    exact OrderBook.applySnapshot_success_iff.mp hsuccess
  · intro husable
    refine ⟨before, s, after, rfl, hafter, OrderBook.applySnapshot_success_iff.mpr husable, ?_⟩
    rw [← List.singleton_append, ← List.append_assoc, bookAfter_initialized hafter]
    exact husable.initialized

/-- **Calls that are all supplied keep the book that the last snapshot made.** -/
theorem fromLatest_of_supplied (hcalls : AtEach (Supplied bytesOf b₀) calls)
    (hsome : ∃ s, Publication.snapshot s ∈ calls) : FromLatest bytesOf b₀ calls := by
  obtain ⟨before, s, after, rfl, hafter⟩ := exists_last_snapshot hsome
  exact (fromLatest_iff hafter).mpr ((hcalls before _ after rfl).snapshot s rfl)

/-- The part of a history before an item is a history itself. -/
theorem notRefused_of_supplied (hcalls : AtEach (Supplied bytesOf b₀) calls) :
    AtEach (NotRefused bytesOf b₀) calls := by
  rintro before call after rfl d rfl
  have hbefore : AtEach (Supplied bytesOf b₀) before := by
    rintro pre x post rfl
    exact hcalls pre x (post ++ .delta d :: after) (by simp)
  obtain ⟨-, -, -, -, -, -, hinit⟩ :=
    fromLatest_of_supplied hbefore ((hcalls before _ after rfl).delta d rfl)
  exact OrderBook.applyDelta_ne_errorBookCorrupted hinit

/-! ## How a handler publishes -/

/-- What a handler publishes in a step. `ready` says that it publishes deltas as they come. Either
it was ready when it publishes deltas, and does not become ready, or it publishes the snapshot that
the step offers and then deltas. -/
inductive Publishes (offer : Option Snapshot) (ready ready' : Prop)
    (calls calls' : List Publication) : Prop
  | kept (more : List Publication) (published : calls' = calls ++ more)
      (noSnapshot : ∀ s, Publication.snapshot s ∉ more)
      (deltas : ∀ d, Publication.delta d ∈ more → ready) (stays : ready' → ready)
  | accepted (s : Snapshot) (more : List Publication) (offers : s ∈ offer)
      (published : calls' = calls ++ .snapshot s :: more)
      (noSnapshot : ∀ s, Publication.snapshot s ∉ more)

/-- What holds of a handler and its calls in every reachable state. -/
structure Feeding (bytesOf : ℚ → List UInt8) (b₀ : OrderBook) (ready : Prop)
    (calls : List Publication) : Prop where
  supplied : AtEach (Supplied bytesOf b₀) calls
  ready : ready → ∃ s, Publication.snapshot s ∈ calls

variable {offer : Option Snapshot} {ready ready' : Prop}

/-- Calls that are no snapshots, behind one if there is a delta among them. -/
theorem supplied_append (hcalls : AtEach (Supplied bytesOf b₀) calls)
    (hmore : ∀ s, Publication.snapshot s ∉ more)
    (hsome : ∀ d, Publication.delta d ∈ more → ∃ s, Publication.snapshot s ∈ calls) :
    AtEach (Supplied bytesOf b₀) (calls ++ more) := by
  induction more using List.reverseRecOn with
  | nil =>
    rw [List.append_nil]
    exact hcalls
  | append_singleton rest call ih =>
    rw [← List.append_assoc]
    refine atEach_concat.mpr ⟨ih (fun s hs => hmore s (by simp [hs]))
      (fun d hd => hsome d (by simp [hd])), fun s heq => ?_, fun d heq => ?_⟩
    · exact absurd (by simp [heq]) (hmore s)
    · obtain ⟨s, hs⟩ := hsome d (by simp [heq])
      exact ⟨s, List.mem_append_left rest hs⟩

/-- **A step keeps this when the book can use the snapshot that it offers.** -/
theorem Feeding.step (hf : Feeding bytesOf b₀ ready calls)
    (hp : Publishes offer ready ready' calls calls')
    (hoffer : ∀ s ∈ offer, Usable bytesOf (bookAfter bytesOf b₀ calls) s) :
    Feeding bytesOf b₀ ready' calls' := by
  cases hp with
  | kept more hpublished hnone hdeltas hstays =>
    subst hpublished
    refine ⟨supplied_append hf.supplied hnone fun d hd => hf.ready (hdeltas d hd), fun hready => ?_⟩
    obtain ⟨s, hs⟩ := hf.ready (hstays hready)
    exact ⟨s, List.mem_append_left more hs⟩
  | accepted s more hoffers hpublished hnone =>
    subst hpublished
    have hsome : Publication.snapshot s ∈ calls ++ [.snapshot s] :=
      List.mem_append_right calls List.mem_cons_self
    have hsnap : AtEach (Supplied bytesOf b₀) (calls ++ [.snapshot s]) := by
      refine atEach_concat.mpr ⟨hf.supplied, fun s' heq => ?_, fun d heq => by cases heq⟩
      cases heq
      exact hoffer s hoffers
    rw [← List.singleton_append, ← List.append_assoc]
    exact ⟨supplied_append hsnap hnone fun _ _ => ⟨s, hsome⟩,
      fun _ => ⟨s, List.mem_append_left more hsome⟩⟩

/-- What a handler that feeds its book so has behind it. -/
theorem Feeding.hasUsableBook {state : FeedState} (hf : Feeding bytesOf b₀ ready calls)
    (hready : state = .streaming → ready) : HasUsableBook bytesOf b₀ state calls where
  latest := fun hstate => fromLatest_of_supplied hf.supplied (hf.ready (hready hstate))
  applied := notRefused_of_supplied hf.supplied

/-- Before the first call there is nothing to hold. -/
theorem feeding_start (hcalls : calls = []) (hready : ¬ ready) : Feeding bytesOf b₀ ready calls :=
  ⟨hcalls ▸ atEach_nil, fun h => absurd h hready⟩

section Runs

variable {σ ι ε : Type*} (calls : σ → List Publication) (ready : σ → Prop)
variable (offer : σ → ι → Option Snapshot) {events : List ι} {s t : σ}

/-- **A run keeps this when the book can use every snapshot that is offered.** -/
theorem Feeding.run {f : σ → ι → Except ε σ}
    (hpublishes : ∀ s e s', f s e = .ok s' →
      Publishes (offer s e) (ready s) (ready s') (calls s) (calls s'))
    (hs : Feeding bytesOf b₀ (ready s) (calls s))
    (hoffers : AllSteps (stepOrEnd f)
      (fun o e => ∀ s ∈ o, OfferUsable bytesOf b₀ (calls s) (offer s e)) (some s) events)
    (hrun : events.foldl (stepOrEnd f) (some s) = some t) :
    Feeding bytesOf b₀ (ready t) (calls t) := by
  have hstep : ∀ s e s', Feeding bytesOf b₀ (ready s) (calls s) →
      OfferUsable bytesOf b₀ (calls s) (offer s e) → f s e = .ok s' →
      Feeding bytesOf b₀ (ready s') (calls s') :=
    fun s e s' hf hoffer heq => hf.step (hpublishes s e s' heq) hoffer
  exact hoffers.foldl_stepOrEnd hstep hs hrun

/-- The same for a machine whose steps do not fail. -/
theorem Feeding.run_total {f : σ → ι → σ}
    (hpublishes : ∀ s e, Publishes (offer s e) (ready s) (ready (f s e)) (calls s) (calls (f s e)))
    (hs : Feeding bytesOf b₀ (ready s) (calls s))
    (hoffers : AllSteps f (fun s e => OfferUsable bytesOf b₀ (calls s) (offer s e)) s events) :
    Feeding bytesOf b₀ (ready (events.foldl f s)) (calls (events.foldl f s)) := by
  have hstep : ∀ s e, Feeding bytesOf b₀ (ready s) (calls s) →
      OfferUsable bytesOf b₀ (calls s) (offer s e) →
      Feeding bytesOf b₀ (ready (f s e)) (calls (f s e)) :=
    fun s e hf hoffer => hf.step (hpublishes s e) hoffer
  exact AllSteps.foldl hstep hs hoffers

end Runs

/-! ### Publishing deltas -/

/-- Nothing but deltas has been published. -/
def OnlyDeltas (calls calls' : List Publication) : Prop :=
  ∃ more, calls' = calls ++ more ∧ ∀ call ∈ more, ∃ d, call = .delta d

theorem onlyDeltas_refl : OnlyDeltas calls calls :=
  ⟨[], (List.append_nil calls).symm, fun _ hcall => absurd hcall List.not_mem_nil⟩

theorem onlyDeltas_map (ds : List Delta) : OnlyDeltas calls (calls ++ ds.map .delta) := by
  refine ⟨_, rfl, fun call hcall => ?_⟩
  obtain ⟨d, -, rfl⟩ := List.mem_map.mp hcall
  exact ⟨d, rfl⟩

theorem OnlyDeltas.trans {calls'' : List Publication} (h : OnlyDeltas calls calls')
    (h' : OnlyDeltas calls' calls'') : OnlyDeltas calls calls'' := by
  obtain ⟨more, rfl, hmore⟩ := h
  obtain ⟨more', rfl, hmore'⟩ := h'
  refine ⟨more ++ more', List.append_assoc .., fun call hcall => ?_⟩
  exact (List.mem_append.mp hcall).elim (hmore call) (hmore' call)

/-- A handler that is ready publishes deltas. -/
theorem OnlyDeltas.publishes (h : OnlyDeltas calls calls') (hready : ready) :
    Publishes offer ready ready' calls calls' := by
  obtain ⟨more, heq, hmore⟩ := h
  refine .kept more heq (fun s hs => ?_) (fun _ _ => hready) fun _ => hready
  obtain ⟨d, hd⟩ := hmore _ hs
  cases hd

/-- A snapshot, and deltas behind it. -/
theorem OnlyDeltas.accepts {s : Snapshot} (h : OnlyDeltas (calls ++ [.snapshot s]) calls')
    (hoffers : s ∈ offer) : Publishes offer ready ready' calls calls' := by
  obtain ⟨more, heq, hmore⟩ := h
  refine .accepted s more hoffers (by rw [heq, List.append_assoc, List.singleton_append])
    fun s' hs => ?_
  obtain ⟨d, hd⟩ := hmore _ hs
  cases hd

/-- A step that publishes nothing. -/
theorem publishes_nothing (hcalls : calls' = calls) (hstays : ready' → ready) :
    Publishes offer ready ready' calls calls' :=
  .kept [] (hcalls.trans (List.append_nil calls).symm) (fun _ hs => absurd hs List.not_mem_nil)
    (fun _ hd => absurd hd List.not_mem_nil) hstays

/-- A step that publishes trades. -/
theorem publishes_trades {trades : List TradeFlow} (hstays : ready' → ready) :
    Publishes offer ready ready' calls (calls ++ trades.map .trade) :=
  .kept _ rfl (by simp) (by simp) hstays

/-- The check that every handler makes of a snapshot: both sides have a level. -/
def twoSided (s : Snapshot) : Bool := s.bids ≠ [] ∧ s.asks ≠ []

/-- A snapshot that passes the check is offered. -/
theorem mem_filter_twoSided {s : Snapshot} {read : Option Snapshot} (hread : read = some s)
    (hsides : ¬ (s.bids = [] ∨ s.asks = [])) : s ∈ read.filter twoSided := by
  rw [hread, Option.mem_def, Option.filter_some, if_pos]
  exact decide_eq_true (not_or.mp hsides)

end TradingInfrastructure
