import TradingInfrastructure.Connectors.JournalText

/-!
# What the operations of the journal do

Every operation of the journal that changes an entry does it in one way (`Puts`): the entry of its
operation and order takes a new value, which is appended to the file if that could be opened, and
all other entries stay. `begin_cases`, `ack_puts` and `fail_puts` say so for the operations.
-/

namespace TradingInfrastructure

theorem JournalEntry.isFor_iff {e : JournalEntry} {op : JournalOperation} {k : ℕ} :
    e.isFor op k = true ↔ e.used = true ∧ e.op = op ∧ e.clientOrderId = k := by
  simp [isFor, and_assoc]

/-- The entry that a record describes. -/
def JournalRecord.entry (r : JournalRecord) : JournalEntry where
  used := true
  op := .ofCode r.op
  clientOrderId := r.clientOrderId
  relatedClientOrderId := r.relatedClientOrderId
  attempt := r.attempt
  state := .ofCode r.state
  venueOrderId := strncpyBuf 64 r.venueOrderId

namespace JournalTable

variable {t t' : JournalTable} {op op' : JournalOperation} {k k' i : ℕ} {e : JournalEntry}

/-- The entry of an operation on an order. -/
def entryOf (t : JournalTable) (op : JournalOperation) (k : ℕ) : Option JournalEntry :=
  (t.find op k).map (t.getD · {})

theorem entryOf_eq_some (h : t.entryOf op k = some e) :
    e ∈ t ∧ e.used = true ∧ e.op = op ∧ e.clientOrderId = k := by
  obtain ⟨i, hi, rfl⟩ := Option.map_eq_some_iff.mp h
  obtain ⟨a, ha, hfor, hmem⟩ := SlotPool.getElem?_of_findIdx? hi
  rw [List.getD_eq_getElem?_getD, ha, Option.getD_some]
  exact ⟨hmem, JournalEntry.isFor_iff.mp hfor⟩

theorem entryOf_of_find (hi : t.find op k = some i) : t.entryOf op k = t[i]? := by
  obtain ⟨a, ha, -, -⟩ := SlotPool.getElem?_of_findIdx? hi
  rw [entryOf, hi, Option.map_some, List.getD_eq_getElem?_getD, ha, Option.getD_some]

/-- A change of a slot that is found for neither key before nor after leaves the other entries. -/
theorem entryOf_modify_of_ne {f : JournalEntry → JournalEntry}
    (hold : ∀ a, t[i]? = some a → a.isFor op k = false)
    (hnew : ∀ a, t[i]? = some a → (f a).isFor op k = false) :
    entryOf (t.modify i f) op k = t.entryOf op k := by
  have hfind : find (t.modify i f) op k = t.find op k :=
    SlotPool.findIdx?_modify_of_eq fun a ha => by rw [hold a ha, hnew a ha]
  cases hj : t.find op k with
  | none => rw [entryOf, hfind, hj, entryOf, hj]; rfl
  | some j =>
    rw [entryOf_of_find (hfind.trans hj), entryOf_of_find hj]
    obtain ⟨a, ha, hfor, -⟩ := SlotPool.getElem?_of_findIdx? hj
    refine List.getElem?_modify_ne f t ?_
    rintro rfl
    rw [hold a ha] at hfor
    cases hfor

/-- **The entry that is found or created.** Nothing else changes, and a new entry takes a slot that
was not in use. -/
theorem findOrCreate_spec (h : t.findOrCreate op k = some (i, t')) :
    ∃ e, t'[i]? = some e ∧ e.used = true ∧ e.op = op ∧ e.clientOrderId = k ∧
      ((t' = t ∧ t.entryOf op k = some e) ∨
        (t.entryOf op k = none ∧ ∃ old, t[i]? = some old ∧ old.used = false ∧
          t' = t.modify i (fun e => { e with used := true, op := op, clientOrderId := k }) ∧
          e = { old with used := true, op := op, clientOrderId := k })) := by
  unfold findOrCreate at h
  cases hfind : t.find op k with
  | some j =>
    simp only [hfind, Option.some.injEq, Prod.mk.injEq] at h
    obtain ⟨rfl, rfl⟩ := h
    obtain ⟨e, he, hfor, -⟩ := SlotPool.getElem?_of_findIdx? hfind
    obtain ⟨hused, hop, hk⟩ := JournalEntry.isFor_iff.mp hfor
    exact ⟨e, he, hused, hop, hk, Or.inl ⟨rfl, (entryOf_of_find hfind).trans he⟩⟩
  | none =>
    cases hfree : t.findIdx? fun e => !e.used with
    | none => simp [hfind, hfree] at h
    | some j =>
      simp only [hfind, hfree, Option.some.injEq, Prod.mk.injEq] at h
      obtain ⟨rfl, rfl⟩ := h
      obtain ⟨old, hold, hunused, -⟩ := SlotPool.getElem?_of_findIdx? hfree
      have hunused' : old.used = false := by simpa using hunused
      refine ⟨_, by simp [hold], rfl, rfl, rfl,
        Or.inr ⟨by simp [entryOf, hfind], old, hold, hunused',
        rfl, rfl⟩⟩

theorem findOrCreate_eq_none (h : t.findOrCreate op k = none) : t.entryOf op k = none := by
  unfold findOrCreate at h
  cases hfind : t.find op k with
  | some j => simp [hfind] at h
  | none => simp [entryOf, hfind]

/-- The table `t'` is `t` but for the entry `e` of the operation on the order. -/
structure Writes (t t' : JournalTable) (op : JournalOperation) (k : ℕ) (e : JournalEntry) :
    Prop where
  self : t'.entryOf op k = some e
  other : ∀ op' k', (op', k') ≠ (op, k) → t'.entryOf op' k' = t.entryOf op' k'
  mem : ∀ a ∈ t', a ∈ t ∨ a = e

/-- The entry that was found or created takes a new value for the same operation and order. -/
theorem writes_modify (h : t.findOrCreate op k = some (i, t')) {e : JournalEntry}
    (hused : e.used = true) (hop : e.op = op) (hk : e.clientOrderId = k) :
    Writes t (t'.modify i fun _ => e) op k e := by
  obtain ⟨a, ha, haused, haop, hak, hcases⟩ := findOrCreate_spec h
  have hfor : e.isFor op k = true := JournalEntry.isFor_iff.mpr ⟨hused, hop, hk⟩
  have hne : ∀ {op' k'} {b : JournalEntry}, (op', k') ≠ (op, k) → b.op = op → b.clientOrderId = k →
      b.isFor op' k' = false := by
    intro op' k' b hdiff hbop hbk
    rw [← Bool.not_eq_true, JournalEntry.isFor_iff]
    rintro ⟨-, rfl, rfl⟩
    exact hdiff (by rw [hbop, hbk])
  have hget : (t'.modify i fun _ => e)[i]? = some e := by simp [ha]
  have hmodify : ∀ op' k', (op', k') ≠ (op, k) →
      entryOf (t'.modify i fun _ => e) op' k' = t'.entryOf op' k' := fun op' k' hdiff =>
    entryOf_modify_of_ne (fun b hb => by
      obtain rfl : b = a := Option.some.inj (hb.symm.trans ha)
      exact hne hdiff haop hak) fun _ _ => hne hdiff hop hk
  have hfind : find (t'.modify i fun _ => e) op k = some i := by
    have hsame : find (t'.modify i fun _ => e) op k = t'.find op k :=
      SlotPool.findIdx?_modify_of_eq fun b hb => by
        obtain rfl : b = a := Option.some.inj (hb.symm.trans ha)
        rw [hfor, JournalEntry.isFor_iff.mpr ⟨haused, haop, hak⟩]
    rw [hsame]
    unfold findOrCreate at h
    cases hfind : t.find op k with
    | some j =>
      simp only [hfind, Option.some.injEq, Prod.mk.injEq] at h
      obtain ⟨rfl, rfl⟩ := h
      exact hfind
    | none =>
      obtain ⟨-, old, hold, -, rfl, -⟩ := hcases.resolve_left fun hc => by
        rw [entryOf, hfind] at hc
        cases hc.2
      exact SlotPool.findIdx?_modify_of_none hfind hold (JournalEntry.isFor_iff.mpr ⟨rfl, rfl, rfl⟩)
  refine ⟨(entryOf_of_find hfind).trans hget, fun op' k' hdiff => ?_, fun b hb => ?_⟩
  · rw [hmodify op' k' hdiff]
    rcases hcases with ⟨rfl, -⟩ | ⟨-, old, hold, hunused, rfl, -⟩
    · rfl
    · refine entryOf_modify_of_ne (fun b hb => ?_) fun b _ => hne hdiff rfl rfl
      obtain rfl : b = old := Option.some.inj (hb.symm.trans hold)
      simp [JournalEntry.isFor, hunused]
  · obtain ⟨m, hm⟩ := List.mem_iff_getElem?.mp hb
    rcases SlotPool.getElem?_modify_cases hm with ⟨him, hold⟩ | ⟨-, -, -, rfl⟩
    · rcases hcases with ⟨rfl, -⟩ | ⟨-, -, -, -, rfl, -⟩
      · exact Or.inl (List.mem_of_getElem? hold)
      · rw [List.getElem?_modify_ne _ _ him] at hold
        exact Or.inl (List.mem_of_getElem? hold)
    · exact Or.inr rfl

theorem findOrCreate_of_entryOf (h : t.entryOf op k = some e) :
    ∃ i, t.findOrCreate op k = some (i, t) ∧ t.getD i {} = e := by
  obtain ⟨i, hi, he⟩ := Option.map_eq_some_iff.mp h
  exact ⟨i, by simp [findOrCreate, hi], he⟩

/-- **A record that is applied** writes its entry, unless the table is full. -/
theorem applyRecord_writes (t : JournalTable) (r : JournalRecord) :
    t.applyRecord r = t ∨
      Writes t (t.applyRecord r) (.ofCode r.op) r.clientOrderId r.entry := by
  unfold applyRecord
  cases hfind : t.findOrCreate (.ofCode r.op) r.clientOrderId with
  | none => exact Or.inl rfl
  | some answer =>
    obtain ⟨i, t'⟩ := answer
    obtain ⟨a, ha, hused, haop, hak, -⟩ := findOrCreate_spec hfind
    refine Or.inr ?_
    have hwrites := writes_modify (e := r.entry) hfind rfl rfl rfl
    have hsame : (t'.modify i fun b => { b with
        state := .ofCode r.state, attempt := r.attempt,
        relatedClientOrderId := r.relatedClientOrderId,
        venueOrderId := strncpyBuf 64 r.venueOrderId }) = t'.modify i fun _ => r.entry := by
      refine List.ext_getElem? fun m => ?_
      by_cases him : i = m
      · subst him
        simp only [List.getElem?_modify_eq, ha, Option.map_eq_map, Option.map_some,
          hused, haop, hak]
        rfl
      · rw [List.getElem?_modify_ne _ _ him, List.getElem?_modify_ne _ _ him]
    simp only [hsame]
    exact hwrites

/-- The record of a well-formed entry writes what its line says. -/
theorem applyRecord_cases (he : e.WellFormed) (t : JournalTable) :
    t.applyRecord e.record = t ∨
      Writes t (t.applyRecord e.record) e.op e.clientOrderId
        { e with used := true, venueOrderId := e.venueText } := by
  have hop : JournalOperation.ofCode e.record.op = e.op := he.op.1
  have hentry : e.record.entry = { e with used := true, venueOrderId := e.venueText } := by
    have hstate : JournalState.ofCode e.record.state = e.state := he.state.1
    have htext : strncpyBuf 64 e.record.venueOrderId = e.venueText :=
      strncpyBuf_of_length_lt he.length_venueText
    rw [JournalRecord.entry, hop, hstate, htext]
    rfl
  have hcases := applyRecord_writes t e.record
  rw [hop, hentry] at hcases
  exact hcases

end JournalTable

namespace IdempotencyJournal

variable {j j' : IdempotencyJournal} {op : JournalOperation} {k : ℕ} {e : JournalEntry}

/-- The journal `j'` is `j` with the entry `e` of the operation on the order, and the line of `e`
in the file if that was opened. -/
structure Puts (j j' : IdempotencyJournal) (op : JournalOperation) (k : ℕ) (opened : Bool)
    (e : JournalEntry) : Prop where
  writes : JournalTable.Writes j.entries j'.entries op k e
  file_eq : j'.file = j.file ++ if opened then e.line else []

@[simp] theorem entries_countDuplicate (j : IdempotencyJournal) (e : JournalEntry) :
    (j.countDuplicate e).entries = j.entries := by
  unfold countDuplicate
  split <;> rfl

@[simp] theorem file_countDuplicate (j : IdempotencyJournal) (e : JournalEntry) :
    (j.countDuplicate e).file = j.file := by
  unfold countDuplicate
  split <;> rfl

/-- An entry that was found or created is put into the table. -/
theorem puts_put {i : ℕ} {t : JournalTable} (h : j.entries.findOrCreate op k = some (i, t))
    (hused : e.used = true) (hop : e.op = op) (hk : e.clientOrderId = k) (opened : Bool)
    (hentries : j'.entries = t) (hfile : j'.file = j.file) : Puts j
    (j'.put opened i e) op k opened e := by
  have hw := JournalTable.writes_modify h hused hop hk
  rw [← hentries] at hw
  cases opened with
  | true => exact ⟨hw, by simp [put, appendRecord, hfile]⟩
  | false => exact ⟨hw, by simp [put, appendRecord, hfile]⟩

/-- The entry as `begin` sends it to the venue again. -/
def sent (e : JournalEntry) (relatedClientOrderId : ℕ) : JournalEntry :=
  { e with
    state := .inFlight, attempt := saturatingAdd e.attempt 1,
    relatedClientOrderId := relatedClientOrderId }

/-- **`begin`**: a full table, an entry that is held as it is, or one that is sent. -/
theorem begin_cases (hidle : ∀ e ∈ j.entries, e.used = false → e = {}) (op : JournalOperation)
    (k related : ℕ) (opened : Bool) :
    (j.entries.entryOf op k = none ∧ j.begin op k related opened = ({}, j)) ∨
      (∃ e, j.entries.entryOf op k = some e ∧ (e.state = .acked ∨ e.state = .inFlight) ∧
        (j.begin op k related opened).1 = e.decision ∧
        (j.begin op k related opened).2.entries = j.entries ∧
        (j.begin op k related opened).2.file = j.file) ∨
      ((∀ e, j.entries.entryOf op k = some e → e.state ≠ .acked) ∧
        ∃ e, (e ∈ j.entries ∨ e = { used := true, op := op, clientOrderId := k }) ∧ e.used = true ∧
          e.op = op ∧ e.clientOrderId = k ∧
          (j.begin op k related opened).1 = (sent e related).decision ∧
          Puts j (j.begin op k related opened).2 op k opened (sent e related)) := by
  unfold begin
  cases hfind : j.entries.findOrCreate op k with
  | none => exact Or.inl ⟨JournalTable.findOrCreate_eq_none hfind, rfl⟩
  | some r =>
    obtain ⟨i, t⟩ := r
    obtain ⟨e, he, hused, hop, hk, hcases⟩ := JournalTable.findOrCreate_spec hfind
    have hget : t.getD i {} = e := by
      rw [List.getD_eq_getElem?_getD, he, Option.getD_some]
    simp only [hget]
    refine Or.inr ?_
    rcases hcases with ⟨rfl, hentry⟩ | ⟨hnone, old, hold, hunused, rfl, rfl⟩
    · by_cases hheld : e.state = .acked ∨ e.state = .inFlight
      · rw [if_pos hheld]
        exact Or.inl ⟨e, hentry, hheld, rfl, by simp, by simp⟩
      · rw [if_neg hheld]
        refine Or.inr ⟨fun a ha => ?_, e, Or.inl (JournalTable.entryOf_eq_some hentry).1, hused,
          hop,
          hk, rfl, ?_⟩
        · rw [← Option.some.inj (hentry.symm.trans ha)]
          exact fun hc => hheld (Or.inl hc)
        · refine puts_put (e := sent e related) hfind hused hop hk opened ?_ ?_ <;> simp
    · -- a new entry starts from an unused one, which has no state
      obtain rfl := hidle old (List.mem_of_getElem? hold) hunused
      rw [if_neg (by simp)]
      refine Or.inr ⟨fun a ha => ?_, _, Or.inr rfl, rfl, rfl, rfl, rfl, ?_⟩
      · rw [hnone] at ha
        cases ha
      · refine puts_put (e := sent _ related) hfind rfl rfl rfl opened ?_ ?_ <;> simp

section Begin

variable {related : ℕ} {opened : Bool}

/-- **What is acked** is answered by its entry. -/
theorem begin_of_acked (he : j.entries.entryOf op k = some e) (hacked : e.state = .acked)
    (related : ℕ) (opened : Bool) :
    (j.begin op k related opened).1 = e.decision ∧
      (j.begin op k related opened).2.entries = j.entries := by
  obtain ⟨i, hfind, hget⟩ := JournalTable.findOrCreate_of_entryOf he
  simp only [begin, hfind, hget, hacked, true_or, if_true, entries_countDuplicate, and_self]

/-- An answer that something is acked comes from its entry. -/
theorem begin_alreadyAcked (hidle : ∀ e ∈ j.entries, e.used = false → e = {})
    (h : (j.begin op k related opened).1.alreadyAcked = true) :
    ∃ e, j.entries.entryOf op k = some e ∧ e.state = .acked ∧
      (j.begin op k related opened).1 = e.decision ∧
      (j.begin op k related opened).2.entries = j.entries := by
  rcases begin_cases hidle op k related opened with ⟨-, heq⟩ | ⟨e, he, -, hd, hentries, -⟩ |
    ⟨-, e, -, -, -, -, hd, -⟩
  · rw [heq] at h
    cases h
  · rw [hd] at h
    exact ⟨e, he, by simpa [JournalDecision.alreadyAcked, JournalEntry.decision] using h, hd,
      hentries⟩
  · rw [hd] at h
    cases h

/-- **What is sent** is not acked and has an entry, and nothing else changes. -/
theorem begin_shouldSend (hidle : ∀ e ∈ j.entries, e.used = false → e = {})
    (h : (j.begin op k related opened).1.shouldSendToVenue = true) :
    (∀ e, j.entries.entryOf op k = some e → e.state ≠ .acked) ∧
      (∃ e, (j.begin op k related opened).2.entries.entryOf op k = some e) ∧
      ∀ op' k', (op', k') ≠ (op, k) →
        (j.begin op k related opened).2.entries.entryOf op' k' = j.entries.entryOf op' k' := by
  rcases begin_cases hidle op k related opened with ⟨-, heq⟩ | ⟨e, he, -, hd, hentries, -⟩ |
    ⟨hnot, e, -, -, -, -, -, hputs⟩
  · rw [heq] at h
    cases h
  · rw [hd] at h
    have hinFlight : e.state = .inFlight := by
      simpa [JournalDecision.shouldSendToVenue, JournalEntry.decision] using h
    refine ⟨fun a ha => ?_, ⟨e, by rw [hentries, he]⟩, fun _ _ _ => by rw [hentries]⟩
    rw [Option.some.inj (ha.symm.trans he), hinFlight]
    decide
  · exact ⟨hnot, ⟨_, hputs.writes.self⟩, hputs.writes.other⟩

/-- What is sent is in flight. -/
theorem begin_inFlight (hidle : ∀ e ∈ j.entries, e.used = false → e = {})
    (h : (j.begin op k related opened).1.shouldSendToVenue = true) :
    ∃ e, (j.begin op k related opened).2.entries.entryOf op k = some e ∧ e.state = .inFlight := by
  rcases begin_cases hidle op k related opened with ⟨-, heq⟩ | ⟨e, he, -, hd, hentries, -⟩ |
    ⟨-, e, -, -, -, -, -, hputs⟩
  · rw [heq] at h
    cases h
  · rw [hd] at h
    exact ⟨e, by rw [hentries, he],
      by simpa [JournalDecision.shouldSendToVenue, JournalEntry.decision] using h⟩
  · exact ⟨_, hputs.writes.self, rfl⟩

/-- What is neither acked nor sent finds the table full, and leaves it. -/
theorem begin_refused (hidle : ∀ e ∈ j.entries, e.used = false → e = {})
    (hacked : ¬ (j.begin op k related opened).1.alreadyAcked = true)
    (hsend : ¬ (j.begin op k related opened).1.shouldSendToVenue = true) :
    (j.begin op k related opened).2 = j := by
  rcases begin_cases hidle op k related opened with ⟨-, heq⟩ | ⟨e, -, hheld, hd, -, -⟩ |
    ⟨-, e, -, -, -, -, hd, -⟩
  · rw [heq]
  · rw [hd] at hacked hsend
    rcases hheld with hstate | hstate
    · exact absurd (by simp [JournalDecision.alreadyAcked, JournalEntry.decision, hstate]) hacked
    · exact absurd (by simp [JournalDecision.shouldSendToVenue, JournalEntry.decision, hstate])
        hsend
  · rw [hd] at hsend
    exact absurd rfl hsend

/-- What `begin` answers: what the acked entry says, or that the operation is sent, or nothing when
the table is full. -/
inductive BeginOutcome (j : IdempotencyJournal) (op : JournalOperation) (k : ℕ)
    (d : JournalDecision)
    (j' : IdempotencyJournal) : Prop
  | acked (e : JournalEntry) (already : d.alreadyAcked = true)
      (entry : j.entries.entryOf op k = some e) (state : e.state = .acked)
        (decision : d = e.decision)
      (entries : j'.entries = j.entries)
  | sent (e : JournalEntry) (already : d.alreadyAcked = false) (send : d.shouldSendToVenue = true)
      (notAcked : ∀ e, j.entries.entryOf op k = some e → e.state ≠ .acked)
      (entry : j'.entries.entryOf op k = some e)
      (other : ∀ op' k', (op', k') ≠ (op, k) →
        j'.entries.entryOf op' k' = j.entries.entryOf op' k')
  | refused (already : d.alreadyAcked = false) (send : d.shouldSendToVenue = false) (same : j' = j)

/-- **The outcomes of `begin`**. -/
theorem begin_outcome (hidle : ∀ e ∈ j.entries, e.used = false → e = {}) {d : JournalDecision}
    (hbegin : j.begin op k related opened = (d, j')) : BeginOutcome j op k d j' := by
  obtain ⟨rfl, rfl⟩ : (j.begin op k related opened).1 = d ∧
    (j.begin op k related opened).2 = j' := by
    rw [hbegin]
    exact ⟨rfl, rfl⟩
  cases halready : (j.begin op k related opened).1.alreadyAcked with
  | true =>
    obtain ⟨e, he, hstate, hd, hentries⟩ := begin_alreadyAcked hidle halready
    exact .acked e halready he hstate hd hentries
  | false =>
    cases hsend : (j.begin op k related opened).1.shouldSendToVenue with
    | true =>
      obtain ⟨hnot, ⟨e, he⟩, hother⟩ := begin_shouldSend hidle hsend
      exact .sent e halready hsend hnot he hother
    | false =>
      exact .refused halready hsend
        (begin_refused hidle (by rw [halready]; decide) (by rw [hsend]; decide))

/-- An entry that is not acked is sent. -/
theorem begin_of_not_acked (hidle : ∀ e ∈ j.entries, e.used = false → e = {})
    (he : j.entries.entryOf op k = some e) (hstate : e.state ≠ .acked) (related : ℕ)
    (opened : Bool) :
    (j.begin op k related opened).1.alreadyAcked = false ∧
      (j.begin op k related opened).1.shouldSendToVenue = true := by
  rcases begin_cases hidle op k related opened with ⟨hnone, -⟩ | ⟨a, ha, hheld, hd, -, -⟩ |
    ⟨-, a, -, -, -, -, hd, -⟩
  · rw [he] at hnone
    cases hnone
  · obtain rfl : a = e := Option.some.inj (ha.symm.trans he)
    have hinFlight : a.state = .inFlight := hheld.resolve_left hstate
    rw [hd]
    simp [JournalDecision.alreadyAcked, JournalDecision.shouldSendToVenue, JournalEntry.decision,
      hinFlight]
  · rw [hd]
    exact ⟨rfl, rfl⟩

end Begin

theorem lookup_eq (j : IdempotencyJournal) (op : JournalOperation) (k : ℕ) :
    j.lookup op k = ((j.entries.entryOf op k).map JournalEntry.decision).getD {} := by
  unfold lookup JournalTable.entryOf
  cases j.entries.find op k <;> rfl

/-- What is known of an operation depends on its entry. -/
theorem lookup_congr (h : j'.entries.entryOf op k = j.entries.entryOf op k) :
    j'.lookup op k = j.lookup op k := by
  rw [lookup_eq, lookup_eq, h]

theorem state_lookup (he : j.entries.entryOf op k = some e) : (j.lookup op k).state = e.state := by
  rw [lookup_eq, he]
  rfl

/-- **`ack`** of an entry of the table. -/
theorem ack_puts (h : j.entries.entryOf op k = some e) (venueOrderId : CString) (related : ℕ)
    (opened : Bool) : Puts j (j.ack op k venueOrderId related opened) op k opened
      { e with
        state := .acked, relatedClientOrderId := related,
        venueOrderId := strncpyBuf 64 venueOrderId } := by
  obtain ⟨i, hfind, he⟩ := JournalTable.findOrCreate_of_entryOf h
  obtain ⟨-, hused, hop, hk⟩ := JournalTable.entryOf_eq_some h
  simp only [ack, hfind, he]
  refine puts_put hfind ?_ ?_ ?_ opened ?_ ?_
  · exact hused
  · exact hop
  · exact hk
  · simp
  · simp

/-- **`fail`** of an entry of the table. -/
theorem fail_puts (h : j.entries.entryOf op k = some e) (related : ℕ) (opened : Bool) :
    Puts j (j.fail op k related opened) op k opened
      { e with state := .failed, relatedClientOrderId := related } := by
  obtain ⟨i, hfind, he⟩ := JournalTable.findOrCreate_of_entryOf h
  obtain ⟨-, hused, hop, hk⟩ := JournalTable.entryOf_eq_some h
  simp only [fail, hfind, he]
  refine puts_put hfind ?_ ?_ ?_ opened rfl rfl
  · exact hused
  · exact hop
  · exact hk

end IdempotencyJournal

end TradingInfrastructure
