import TradingInfrastructure.Foundations.Runs
import TradingInfrastructure.Ipc.LobPublisher

/-!
# One ring for several feeds

The engine gives its one `LobPublisher` to the book managers of all venues, and each of them calls
`publish` from the thread of its own feed. There is no lock: a call that loads the sequence while
another is under way takes the same slot, and one of the two is not counted.

So once all calls have returned, the ring is right exactly when no call began while another was
under way (`SharedRing.published_iff`).
-/

namespace TradingInfrastructure

open LobPublisher

/-- A ring, the calls under way on the threads, and the updates of the calls that have returned, in
the order in which they did. -/
structure SharedRing (ι : Type) where
  ring : Ring
  calls : ι → Option Call
  returned : List LobUpdate

namespace SharedRing

variable {ι : Type}

/-- A publisher that has just been opened. -/
def start : SharedRing ι := ⟨.opened, fun _ => none, []⟩

/-- The next step of a thread, which begins a call with these arguments when none is under way. -/
def step [DecidableEq ι] (r : SharedRing ι) (e : ι × LobUpdate) : SharedRing ι :=
  match r.calls e.1 with
  | none => { r with calls := Function.update r.calls e.1 (some (r.ring.load e.2)) }
  | some call =>
    { ring := (r.ring.store call).1
      calls := Function.update r.calls e.1 (r.ring.store call).2
      returned := if (r.ring.store call).2.isNone then r.returned ++ [call.update] else r.returned }

/-- All calls have returned. -/
def Quiet (r : SharedRing ι) : Prop := ∀ t, r.calls t = none

instance [Fintype ι] (r : SharedRing ι) : Decidable r.Quiet :=
  inferInstanceAs (Decidable (∀ t, r.calls t = none))

/-- **What publication means**: the sequence is the number of the calls, and each of the last
`k_capacity` of them has a slot of its own, which holds its values. -/
def Published (r : SharedRing ι) : Prop :=
  r.ring.writeSeq.toNat = r.returned.length ∧ ∃ place : ℕ → ℕ,
    (∀ k u, r.returned[k]? = some u → r.returned.length ≤ k + kCapacity →
      r.ring.slots[place k]? = some (slotOf u)) ∧
    ∀ j k, j < r.returned.length → k < r.returned.length → r.returned.length ≤ j + kCapacity →
      r.returned.length ≤ k + kCapacity → place j = place k → j = k

/-- A call begins only when no other is under way. -/
def Alone (r : SharedRing ι) (e : ι × LobUpdate) : Prop := r.calls e.1 = none → r.Quiet

/-! ## Steps -/

section Steps

variable [DecidableEq ι] {r : SharedRing ι} {e : ι × LobUpdate} {call : Call}

theorem step_begin (h : r.calls e.1 = none) :
    r.step e = { r with calls := Function.update r.calls e.1 (some (r.ring.load e.2)) } := by
  rw [step, h]

theorem step_store {store : Σ f : LobField, f.Value} {remaining : List (Σ f : LobField, f.Value)}
    (h : r.calls e.1 = some call) (hstores : call.remaining = store :: remaining) :
    r.step e = { r with
      ring := r.ring.write call.index store
      calls := Function.update r.calls e.1 (some { call with remaining := remaining }) } := by
  simp [step, h, Ring.store, hstores]

theorem step_return (h : r.calls e.1 = some call) (hstores : call.remaining = []) :
    r.step e =
      { ring := { r.ring with writeSeq := call.seq + 1 }
        calls := Function.update r.calls e.1 none
        returned := r.returned ++ [call.update] } := by
  simp [step, h, Ring.store, hstores]

/-- What a thread may do: begin a call, store in its slot, or return. -/
theorem step_cases (r : SharedRing ι) (e : ι × LobUpdate) :
    (r.calls e.1 = none ∧
      r.step e = { r with calls := Function.update r.calls e.1 (some (r.ring.load e.2)) }) ∨
    (∃ call store remaining, r.calls e.1 = some call ∧ call.remaining = store :: remaining ∧
      r.step e = { r with
        ring := r.ring.write call.index store
        calls := Function.update r.calls e.1 (some { call with remaining := remaining }) }) ∨
    ∃ call, r.calls e.1 = some call ∧ call.remaining = [] ∧
      r.step e =
        { ring := { r.ring with writeSeq := call.seq + 1 }
          calls := Function.update r.calls e.1 none
          returned := r.returned ++ [call.update] } := by
  cases hcall : r.calls e.1 with
  | none => exact Or.inl ⟨rfl, step_begin hcall⟩
  | some call =>
    cases hstores : call.remaining with
    | nil => exact Or.inr (Or.inr ⟨call, rfl, hstores, step_return hcall hstores⟩)
    | cons store remaining =>
      exact Or.inr (Or.inl ⟨call, store, remaining, rfl, hstores, step_store hcall hstores⟩)

theorem length_returned_le : r.returned.length ≤ (r.step e).returned.length := by
  obtain ⟨-, hstep⟩ | ⟨_, _, _, -, -, hstep⟩ | ⟨call, -, -, hstep⟩ := r.step_cases e
  · rw [hstep]
  · rw [hstep]
  · rw [hstep, List.length_append]
    exact Nat.le_add_right ..

end Steps

/-! ## Calls one after the other -/

/-- The ring when calls have been alone, between two of them and during one. -/
inductive Ordered (r : SharedRing ι) : Prop
  | quiet (hquiet : r.Quiet) (hring : r.ring.Holds r.returned)
  | busy (t : ι) (call : Call) (hcall : r.calls t = some call)
      (hothers : ∀ t', t' ≠ t → r.calls t' = none) (hring : r.ring.HoldsBut call r.returned)

theorem ordered_start : (start : SharedRing ι).Ordered :=
  .quiet (fun _ => rfl) Ring.holds_opened

theorem Ordered.published {r : SharedRing ι} (h : r.Ordered) (hquiet : r.Quiet) : r.Published := by
  obtain ⟨-, hring⟩ | ⟨t, call, hcall, -, -⟩ := h
  · refine ⟨hring.seq, fun k => k % kCapacity, fun k u hk hrecent => ?_,
      fun j k hj hk hj' hk' hsame => ?_⟩
    · refine hring.cells.recent k _ ?_ ?_
      · rw [List.getElem?_map, hk]
        rfl
      · rwa [List.length_map]
    · simp only [kCapacity] at hj' hk' hsame
      omega
  · exact absurd (hcall.symm.trans (hquiet t)) (by simp)

/-- No sequence is ahead of the number of the calls. -/
structure Behind (r : SharedRing ι) : Prop where
  head : r.ring.writeSeq.toNat ≤ r.returned.length
  calls : ∀ t call, r.calls t = some call → call.seq.toNat ≤ r.returned.length

/-- **What an overlap leaves behind**: two calls are under way, or the sequences of all that are
fall short of the number of the calls, and so does that of the ring when none is. -/
def Late (r : SharedRing ι) : Prop :=
  (∃ t t', t ≠ t' ∧ r.calls t ≠ none ∧ r.calls t' ≠ none) ∨
    (∀ t call, r.calls t = some call → call.seq.toNat < r.returned.length) ∧
      (r.Quiet → r.ring.writeSeq.toNat < r.returned.length)

theorem behind_start : (start : SharedRing ι).Behind := ⟨Nat.zero_le _, fun t call h => by cases h⟩

variable [DecidableEq ι] {r : SharedRing ι} {e : ι × LobUpdate} {call : Call} {t : ι}

/-- **A step of a call that is alone**. -/
theorem Ordered.step (h : r.Ordered) (halone : r.Alone e)
    (hfits : (r.step e).returned.length < 2 ^ 64) : (r.step e).Ordered := by
  obtain ⟨hquiet, hring⟩ | ⟨t, call, hcall, hothers, hring⟩ := h
  · rw [step_begin (hquiet e.1)]
    exact .busy e.1 _ (Function.update_self ..)
      (fun t' ht' => (Function.update_of_ne ht' ..).trans (hquiet t')) (hring.load e.2)
  have ht : e.1 = t := by
    by_contra hne
    have := halone (hothers e.1 hne) t
    rw [hcall] at this
    cases this
  subst ht
  cases hremaining : call.remaining with
  | cons store remaining =>
    rw [step_store hcall hremaining]
    exact .busy e.1 _ (Function.update_self ..)
      (fun t' ht' => (Function.update_of_ne ht' ..).trans (hothers t' ht')) (hring.write hremaining)
  | nil =>
    rw [step_return hcall hremaining] at hfits ⊢
    rw [List.length_append] at hfits
    refine .quiet (fun t' => ?_) (hring.return_ hremaining hfits)
    by_cases ht' : t' = e.1
    · exact ht' ▸ Function.update_self ..
    · exact (Function.update_of_ne ht' ..).trans (hothers t' ht')

/-! ## Calls that overlap -/

theorem toNat_succ_le (n : UInt64) : (n + 1).toNat ≤ n.toNat + 1 := by
  rw [UInt64.toNat_add]
  exact Nat.mod_le ..

theorem forall_update {calls : ι → Option Call} {next : Option Call} {Q : Call → Prop}
    (hnext : ∀ call ∈ next, Q call) (hcalls : ∀ t call, calls t = some call → Q call) :
    ∀ t' call, Function.update calls t next t' = some call → Q call := by
  intro t' call h
  by_cases ht : t' = t
  · rw [ht, Function.update_self] at h
    exact hnext call h
  · rw [Function.update_of_ne ht] at h
    exact hcalls t' call h

theorem update_ne_none {calls : ι → Option Call} {t' : ι} (ht' : calls t' ≠ none) :
    Function.update calls t (some call) t' ≠ none := by
  by_cases ht : t' = t
  · rw [ht, Function.update_self]
    exact Option.some_ne_none _
  · rwa [Function.update_of_ne ht]

theorem Behind.step (h : r.Behind) (e : ι × LobUpdate) : (r.step e).Behind := by
  obtain ⟨-, hstep⟩ | ⟨call, store, remaining, hcall, -, hstep⟩ | ⟨call, hcall, -, hstep⟩ :=
    r.step_cases e
  · rw [hstep]
    refine ⟨h.head, forall_update (fun call' hnext => ?_) h.calls⟩
    exact Option.some.inj hnext ▸ h.head
  · rw [hstep]
    refine ⟨h.head, forall_update (fun call' hnext => ?_) h.calls⟩
    exact Option.some.inj hnext ▸ h.calls e.1 call hcall
  · have hseq := h.calls e.1 call hcall
    rw [hstep]
    constructor
    · rw [List.length_append]
      exact (toNat_succ_le call.seq).trans (Nat.add_le_add_right hseq 1)
    · rw [List.length_append]
      refine forall_update (fun call' hnext => (by cases hnext)) fun t' call' ht' => ?_
      exact (h.calls t' call' ht').trans (Nat.le_add_right ..)

/-- A call that does not begin alone. -/
theorem late_of_not_alone (h : ¬ r.Alone e) : (r.step e).Late := by
  obtain ⟨hnone, hbusy⟩ := Classical.not_imp.mp h
  obtain ⟨t, ht⟩ := not_forall.mp hbusy
  rw [step_begin hnone]
  refine Or.inl ⟨t, e.1, ?_, update_ne_none ht, ?_⟩
  · rintro rfl
    exact ht hnone
  · exact (Function.update_self ..).trans_ne (Option.some_ne_none _)

/-- **An overlap is never made up for**. -/
theorem Late.step (h : r.Late) (hbehind : r.Behind) (e : ι × LobUpdate) : (r.step e).Late := by
  obtain ⟨hnone, hstep⟩ | ⟨call, store, remaining, hcall, -, hstep⟩ | ⟨call, hcall, -, hstep⟩ :=
    r.step_cases e
  · obtain ⟨t, t', hne, ht, ht'⟩ | ⟨hcalls, hhead⟩ := h
    · rw [hstep]
      exact Or.inl ⟨t, t', hne, update_ne_none ht, update_ne_none ht'⟩
    · by_cases hquiet : r.Quiet
      · rw [hstep]
        refine Or.inr ⟨forall_update (fun call' hnext => ?_) hcalls, fun hq => hhead hquiet⟩
        exact Option.some.inj hnext ▸ hhead hquiet
      · exact late_of_not_alone fun halone => hquiet (halone hnone)
  · rw [hstep]
    obtain ⟨t, t', hne, ht, ht'⟩ | ⟨hcalls, -⟩ := h
    · exact Or.inl ⟨t, t', hne, update_ne_none ht, update_ne_none ht'⟩
    · refine Or.inr ⟨forall_update (fun call' hnext => ?_) hcalls, fun hq => ?_⟩
      · exact Option.some.inj hnext ▸ hcalls e.1 call hcall
      · exact absurd (hq e.1) ((Function.update_self ..).trans_ne (Option.some_ne_none _))
  · -- the one that returns leaves the number of the calls ahead of the others
    rw [hstep]
    refine Or.inr ⟨?_, fun hq => ?_⟩
    · rw [List.length_append]
      refine forall_update (fun call' hnext => (by cases hnext)) fun t' call' ht' => ?_
      exact Nat.lt_succ_of_le (hbehind.calls t' call' ht')
    · obtain ⟨t, t', hne, ht, ht'⟩ | ⟨hcalls, -⟩ := h
      · have hone : ∀ s, r.calls s ≠ none → s = e.1 := fun s hs =>
          by_contra fun hse => hs ((Function.update_of_ne hse ..).symm.trans (hq s))
        exact absurd ((hone t ht).trans (hone t' ht').symm) hne
      · rw [List.length_append]
        exact (toNat_succ_le call.seq).trans_lt (Nat.succ_lt_succ (hcalls e.1 call hcall))

/-- **Publication through a shared ring**: once all calls have returned, it is right exactly when no
call began while another was under way, and no more were made than the sequence counts. -/
theorem published_iff (events : List (ι × LobUpdate)) (h : (events.foldl step start).Quiet) :
    (events.foldl step start).Published ↔
      AllSteps step Alone start events ∧ (events.foldl step start).returned.length < 2 ^ 64 := by
  constructor
  · rintro ⟨hseq, -⟩
    refine ⟨?_, hseq ▸ (events.foldl step start).ring.writeSeq.toNat_lt⟩
    refine (allSteps_or_foldl (fun r e hr => hr.step e) (fun r e _ => late_of_not_alone)
      (fun r e hr hlate => hlate.step hr e) behind_start).resolve_right fun hlate => ?_
    obtain ⟨t, -, -, ht, -⟩ | ⟨-, hhead⟩ := hlate
    · exact ht (h t)
    · exact (hhead h).ne hseq
  · rintro ⟨halone, hfits⟩
    refine Ordered.published (AllSteps.foldl (P := fun r => r.returned.length < 2 ^ 64 → r.Ordered)
      (fun r e hr he hnext => ?_) (fun _ => ordered_start) halone hfits) h
    exact (hr (length_returned_le.trans_lt hnext)).step he hnext

/-- The calls of one thread are never together. -/
theorem allSteps_alone [Subsingleton ι] (events : List (ι × LobUpdate)) :
    AllSteps step Alone start events := by
  have halone : ∀ (r : SharedRing ι) e, r.Alone e := fun r e h t => Subsingleton.elim e.1 t ▸ h
  have hevents : AllSteps step (fun _ _ => True) start events :=
    allSteps_of_forall fun _ _ => trivial
  exact hevents.imp_of_invariant (fun r e (_ : True) (_ : True) _ => ⟨trivial, halone r e⟩) trivial
    fun _ _ => trivial

/-- One call. -/
theorem published_one :
    ((List.replicate 81 ((), ({ } : LobUpdate))).foldl step start).Published :=
  (published_iff _ (by decide +kernel)).mpr ⟨allSteps_alone _, by decide +kernel⟩

/-- A call of one thread during that of another. -/
def overlap (u : LobUpdate) : List (Bool × LobUpdate) :=
  (false, u) :: (true, u) :: List.replicate 80 (false, u) ++ List.replicate 80 (true, u)

/-- Two calls that begin together: both take the first slot, and one is counted. -/
theorem lost_publication :
    ¬ ∀ events : List (Bool × LobUpdate), (events.foldl step start).Quiet →
      (events.foldl step start).Published := by
  intro h
  have hseq := (h (overlap { }) (by decide +kernel)).1
  revert hseq
  decide +kernel

end SharedRing

end TradingInfrastructure
