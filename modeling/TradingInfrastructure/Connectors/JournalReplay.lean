import TradingInfrastructure.Connectors.JournalSteps
import TradingInfrastructure.Foundations.Runs

/-!
# A new journal on the same file

A call of the journal that changes an entry appends the line of what it becomes. So the file, read
back, gives the table of the journal slot by slot, up to the sign that stands for an empty venue
order id (`Mirrored`), and a new journal on the file answers like the one that has written it
(`recovered_agrees`).
-/

namespace TradingInfrastructure

open Fields (NoBlank)

/-- The entry as it is read back. -/
def JournalEntry.reread (e : JournalEntry) : JournalEntry :=
  if e.used then { e with venueOrderId := e.venueText } else e

namespace IdempotencyJournal

/-- `ack` with a null pointer for the venue order id. -/
def ackNull (j : IdempotencyJournal) (op : JournalOperation) (clientOrderId : ℕ)
    (relatedClientOrderId : ℕ) (opened : Bool) : IdempotencyJournal :=
  match j.entries.findOrCreate op clientOrderId with
  | none => j
  | some (i, entries) =>
    let e := entries.getD i {}
    ({ j with entries := entries }.countDuplicate e).put opened i
      { e with state := .acked, relatedClientOrderId := relatedClientOrderId }

end IdempotencyJournal

/-- The calls that write to a journal. -/
inductive JournalCall
  | begin (op : JournalOperation) (clientOrderId relatedClientOrderId : ℕ)
  | ack (op : JournalOperation) (clientOrderId : ℕ) (venueOrderId : Option CString)
      (relatedClientOrderId : ℕ)
  | fail (op : JournalOperation) (clientOrderId relatedClientOrderId : ℕ)

/-- The arguments have their types, and the venue order id has no whitespace. -/
def JournalCall.Typed : JournalCall → Prop
  | begin op k related | fail op k related =>
    (JournalOperation.ofCode op.code = op ∧ op.code < 256) ∧ k < 2 ^ 64 ∧ related < 2 ^ 64
  | ack op k venueOrderId related =>
    (JournalOperation.ofCode op.code = op ∧ op.code < 256) ∧ k < 2 ^ 64 ∧ related < 2 ^ 64 ∧
      NoBlank (venueOrderId.getD [])

namespace IdempotencyJournal

/-- What a call leaves when the file can be opened. -/
def call (j : IdempotencyJournal) : JournalCall → IdempotencyJournal
  | .begin op k related => (j.begin op k related true).2
  | .ack op k (some venueOrderId) related => j.ack op k venueOrderId related true
  | .ack op k none related => j.ackNull op k related true
  | .fail op k related => j.fail op k related true

/-- What is left after one call after another. -/
def run (j : IdempotencyJournal) (calls : List JournalCall) : IdempotencyJournal :=
  calls.foldl call j

/-- The venue order ids are the same, or the second is the sign for an empty one. -/
def SameId (v v' : CString) : Prop := v' = v ∨ (v = [] ∧ v' = ['-'])

/-- The second journal answers like the first. -/
structure Agrees (j j' : IdempotencyJournal) : Prop where
  state : ∀ op k, (j'.lookup op k).state = (j.lookup op k).state
  attempt : ∀ op k, (j'.lookup op k).attempt = (j.lookup op k).attempt
  related : ∀ op k,
    (j'.lookup op k).relatedClientOrderId = (j.lookup op k).relatedClientOrderId
  venueOrderId : ∀ op k, SameId (j.lookup op k).venueOrderId (j'.lookup op k).venueOrderId
  inFlight : j'.inFlightCount = j.inFlightCount

end IdempotencyJournal

/-! ## Tables that are read back -/

namespace JournalEntry

variable {e : JournalEntry} {op : JournalOperation} {k : ℕ}

@[simp] theorem reread_used (e : JournalEntry) : e.reread.used = e.used := by
  unfold reread
  split <;> rfl

@[simp] theorem reread_state (e : JournalEntry) : e.reread.state = e.state := by
  unfold reread
  split <;> rfl

@[simp] theorem isFor_reread (e : JournalEntry) : e.reread.isFor op k = e.isFor op k := by
  unfold reread
  split <;> rfl

theorem reread_of_used (h : e.used = true) :
    e.reread = { e with venueOrderId := e.venueText } := by
  simp [reread, h]

end JournalEntry

namespace JournalTable

variable {t t' : JournalTable} {op : JournalOperation} {k i : ℕ} {e : JournalEntry}

/-- The table as it is read back. -/
def reread (t : JournalTable) : JournalTable := t.map JournalEntry.reread

theorem find_reread (t : JournalTable) : find t.reread op k = t.find op k := by
  simp only [find, reread, List.findIdx?_map]
  congr 1
  funext e
  exact e.isFor_reread

theorem findUnused_reread (t : JournalTable) :
    (t.reread.findIdx? fun e => !e.used) = t.findIdx? fun e => !e.used := by
  simp only [reread, List.findIdx?_map]
  congr 1
  funext e
  simp

theorem getElem?_reread (t : JournalTable) (i : ℕ) :
    t.reread[i]? = (t[i]?).map JournalEntry.reread := by
  simp [reread]

/-- In the table that is read back the same slot is found or created. -/
theorem findOrCreate_reread (h : t.findOrCreate op k = some (i, t')) :
    ∃ u, findOrCreate t.reread op k = some (i, u) ∧
      (∀ (m : ℕ), m ≠ i → u[m]? = (t'[m]?).map JournalEntry.reread) ∧
      ∃ a b, t'[i]? = some a ∧ u[i]? = some b ∧ b.used = true ∧ b.op = op ∧
        b.clientOrderId = k := by
  obtain ⟨a, ha, haused, haop, hak, -⟩ := findOrCreate_spec h
  unfold findOrCreate at h ⊢
  rw [find_reread, findUnused_reread]
  cases hf : t.find op k with
  | some n =>
    rw [hf] at h
    obtain ⟨rfl, rfl⟩ := Prod.mk.inj (Option.some.inj h)
    refine ⟨t.reread, rfl, fun m _ => getElem?_reread t m, a, a.reread, ha,
      by rw [getElem?_reread, ha]; rfl, ?_⟩
    rw [JournalEntry.reread_of_used haused]
    exact ⟨haused, haop, hak⟩
  | none =>
    rw [hf] at h
    simp only at h ⊢
    cases hu : t.findIdx? fun e => !e.used with
    | none =>
      rw [hu] at h
      cases h
    | some n =>
      rw [hu] at h
      obtain ⟨rfl, rfl⟩ := Prod.mk.inj (Option.some.inj h)
      obtain ⟨b, hb, -, -⟩ := SlotPool.getElem?_of_findIdx? hu
      refine ⟨_, rfl, fun m hm => ?_, a,
        { b.reread with used := true, op := op, clientOrderId := k },
        ha, ?_, rfl, rfl, rfl⟩
      · rw [List.getElem?_modify_ne _ _ (Ne.symm hm), List.getElem?_modify_ne _ _ (Ne.symm hm),
          getElem?_reread]
      · rw [List.getElem?_modify_eq, getElem?_reread, hb]
        rfl

/-- **Reading a line** does to the table that is read back what putting the entry has done to the
table itself. -/
theorem applyRecord_reread (hfind : t.findOrCreate op k = some (i, t')) (he : e.WellFormed)
    (hused : e.used = true) (hop : e.op = op) (hk : e.clientOrderId = k) :
    applyRecord t.reread e.record = reread (t'.modify i fun _ => e) := by
  have hopcode : JournalOperation.ofCode e.record.op = op := he.op.1.trans hop
  have hstate : JournalState.ofCode e.record.state = e.state := he.state.1
  have htext : strncpyBuf 64 e.record.venueOrderId = e.venueText :=
    strncpyBuf_of_length_lt he.length_venueText
  have hid : e.record.clientOrderId = k := hk
  unfold applyRecord
  rw [hopcode, hid, hstate, htext]
  obtain ⟨u, hu, hother, a, b, ha, hb, hbused, hbop, hbk⟩ := findOrCreate_reread hfind
  rw [hu]
  refine List.ext_getElem? fun m => ?_
  rw [getElem?_reread]
  by_cases hm : m = i
  · subst hm
    simp only [List.getElem?_modify_eq, ha, hb, Option.map_eq_map, Option.map_some,
      Option.some.injEq]
    rw [JournalEntry.reread_of_used hused]
    simp only [JournalEntry.record, hbused, hbop, hbk, hused, hop, hk]
  · rw [List.getElem?_modify_ne _ _ (Ne.symm hm), List.getElem?_modify_ne _ _ (Ne.symm hm),
      hother m hm]

end JournalTable

namespace IdempotencyJournal

variable {j j' : IdempotencyJournal}

/-- **The file gives the table back**: it holds lines of well-formed entries, and reading them in
turn builds the table of the journal. -/
structure Mirrored (j : IdempotencyJournal) : Prop where
  entries : ∀ e ∈ j.entries, e.WellFormed
  idle : ∀ e ∈ j.entries, e.used = false → e = {}
  file : ∃ es : List JournalEntry, j.file = es.flatMap JournalEntry.line ∧
    (∀ e ∈ es, e.WellFormed) ∧
    es.foldl (fun t e => t.applyRecord e.record) .empty = j.entries.reread

/-- What the file says is what the table holds. -/
theorem Mirrored.recover_file (h : j.Mirrored) :
    JournalTable.recover j.file = j.entries.reread := by
  obtain ⟨es, hfile, hwf, hreplay⟩ := h.file
  rw [hfile, JournalTable.recover_lines hwf, hreplay]

theorem mirrored_of_empty (h : j.file = []) (hentries : j.entries = .empty) : j.Mirrored where
  entries e he := by
    rw [hentries] at he
    rw [List.eq_of_mem_replicate he]
    exact JournalEntry.wellFormed_default
  idle e he _ := by
    rw [hentries] at he
    exact List.eq_of_mem_replicate he
  file := by
    refine ⟨[], h, fun _ he => absurd he List.not_mem_nil, ?_⟩
    rw [hentries, JournalTable.reread, JournalTable.empty, List.map_replicate]
    rfl

/-- The empty file leaves an empty table. -/
theorem load_nil_entries : (load []).entries = .empty :=
  JournalTable.recover_lines fun _ he => absurd he List.not_mem_nil

theorem mirrored_load_nil : (load []).Mirrored := mirrored_of_empty rfl load_nil_entries

/-- What a call does: it leaves the table and the file, or puts an entry into the table and appends
its line. -/
def Appends (j j' : IdempotencyJournal) : Prop :=
  (j'.entries = j.entries ∧ j'.file = j.file) ∨
    ∃ e : JournalEntry, e.WellFormed ∧ e.used = true ∧
      ∃ i t, j.entries.findOrCreate e.op e.clientOrderId = some (i, t) ∧
        j'.entries = (t.modify i fun _ => e) ∧ j'.file = j.file ++ e.line

/-- **An entry that is put into the table** is read back from the file. -/
theorem Mirrored.appends (h : j.Mirrored) (happends : j.Appends j') : j'.Mirrored := by
  obtain ⟨es, hes, hwf, hreplay⟩ := h.file
  rcases happends with ⟨hentries, hfile⟩ | ⟨e, he, hused, i, t, hfind, hentries, hfile⟩
  · exact ⟨hentries ▸ h.entries, hentries ▸ h.idle, es, hfile.trans hes, hwf, hentries ▸ hreplay⟩
  have hmem : ∀ a ∈ j'.entries, a ∈ j.entries ∨ a = e := by
    have hw := JournalTable.writes_modify hfind hused rfl rfl
    rw [hentries]
    exact hw.mem
  refine ⟨fun a ha => ?_, fun a ha hidle => ?_, es ++ [e], ?_, fun a ha => ?_, ?_⟩
  · rcases hmem a ha with ha | rfl
    · exact h.entries a ha
    · exact he
  · rcases hmem a ha with ha | rfl
    · exact h.idle a ha hidle
    · rw [hused] at hidle
      cases hidle
  · rw [hfile, hes]
    simp
  · rcases List.mem_append.mp ha with ha | ha
    · exact hwf a ha
    · rw [List.mem_singleton.mp ha]
      exact he
  · rw [List.foldl_append, hreplay, hentries]
    exact JournalTable.applyRecord_reread hfind he hused rfl rfl

/-- An entry that is put is appended. -/
theorem appends_put {op : JournalOperation} {k i : ℕ} {t : JournalTable} {e : JournalEntry}
    (hfind : j.entries.findOrCreate op k = some (i, t)) (he : e.WellFormed) (hused : e.used = true)
    (hop : e.op = op) (hk : e.clientOrderId = k) (hentries : j'.entries = t)
    (hfile : j'.file = j.file) : j.Appends (j'.put true i e) := by
  subst hop hk
  refine Or.inr ⟨e, he, hused, i, t, hfind, ?_, ?_⟩
  · simp [put, appendRecord, hentries]
  · simp [put, appendRecord, hfile]

/-- What is found or created for a call that has its types. -/
theorem Mirrored.findOrCreate (h : j.Mirrored) {op : JournalOperation} {k i : ℕ} {t : JournalTable}
    (hop : JournalOperation.ofCode op.code = op ∧ op.code < 256) (hk : k < 2 ^ 64)
    (hfind : j.entries.findOrCreate op k = some (i, t)) :
    (t.getD i {}).WellFormed ∧ (t.getD i {}).used = true ∧ (t.getD i {}).op = op ∧
      (t.getD i {}).clientOrderId = k ∧ (t = j.entries ∨ (t.getD i {}).state = .none) := by
  obtain ⟨e, he, hused, heop, hek, hcases⟩ := JournalTable.findOrCreate_spec hfind
  rw [List.getD_eq_getElem?_getD, he, Option.getD_some]
  rcases hcases with ⟨rfl, -⟩ | ⟨-, old, hold, hunused, rfl, rfl⟩
  · exact ⟨h.entries e (List.mem_of_getElem? he), hused, heop, hek, Or.inl rfl⟩
  · obtain rfl := h.idle old (List.mem_of_getElem? hold) hunused
    exact ⟨{ JournalEntry.wellFormed_default with op := hop, clientOrderId := hk }, rfl, rfl, rfl,
      Or.inr rfl⟩

section Calls

variable {op : JournalOperation} {k related : ℕ}

theorem Mirrored.begin_appends (h : j.Mirrored)
    (hop : JournalOperation.ofCode op.code = op ∧ op.code < 256) (hk : k < 2 ^ 64)
    (hrelated : related < 2 ^ 64) : j.Appends (j.begin op k related true).2 := by
  unfold IdempotencyJournal.begin
  cases hfind : j.entries.findOrCreate op k with
  | none => exact Or.inl ⟨rfl, rfl⟩
  | some r =>
    obtain ⟨i, t⟩ := r
    obtain ⟨hwf, hused, heop, hek, hcases⟩ := h.findOrCreate hop hk hfind
    simp only
    by_cases hheld : (t.getD i {}).state = .acked ∨ (t.getD i {}).state = .inFlight
    · rw [if_pos hheld]
      rcases hcases with rfl | hnone
      · exact Or.inl ⟨by simp, by simp⟩
      · rw [hnone] at hheld
        exact absurd hheld (by decide)
    · rw [if_neg hheld]
      refine appends_put hfind (hwf.sent hrelated) hused heop hek ?_ ?_ <;> simp

theorem Mirrored.ack_appends (h : j.Mirrored) {v : CString}
    (hop : JournalOperation.ofCode op.code = op ∧ op.code < 256) (hk : k < 2 ^ 64)
    (hrelated : related < 2 ^ 64) (hv : NoBlank v) : j.Appends (j.ack op k v related true) := by
  unfold IdempotencyJournal.ack
  cases hfind : j.entries.findOrCreate op k with
  | none => exact Or.inl ⟨rfl, rfl⟩
  | some r =>
    obtain ⟨i, t⟩ := r
    obtain ⟨hwf, hused, heop, hek, -⟩ := h.findOrCreate hop hk hfind
    refine appends_put hfind (hwf.acked hrelated hv) hused heop hek ?_ ?_ <;> simp

theorem Mirrored.ackNull_appends (h : j.Mirrored)
    (hop : JournalOperation.ofCode op.code = op ∧ op.code < 256) (hk : k < 2 ^ 64)
    (hrelated : related < 2 ^ 64) : j.Appends (j.ackNull op k related true) := by
  unfold IdempotencyJournal.ackNull
  cases hfind : j.entries.findOrCreate op k with
  | none => exact Or.inl ⟨rfl, rfl⟩
  | some r =>
    obtain ⟨i, t⟩ := r
    obtain ⟨hwf, hused, heop, hek, -⟩ := h.findOrCreate hop hk hfind
    have hacked : JournalEntry.WellFormed { t.getD i {} with
        state := .acked, relatedClientOrderId := related } :=
      hwf.withState ⟨rfl, show 2 < 256 by decide⟩ hrelated
    refine appends_put hfind hacked hused heop hek ?_ ?_ <;> simp

theorem Mirrored.fail_appends (h : j.Mirrored)
    (hop : JournalOperation.ofCode op.code = op ∧ op.code < 256) (hk : k < 2 ^ 64)
    (hrelated : related < 2 ^ 64) : j.Appends (j.fail op k related true) := by
  unfold IdempotencyJournal.fail
  cases hfind : j.entries.findOrCreate op k with
  | none => exact Or.inl ⟨rfl, rfl⟩
  | some r =>
    obtain ⟨i, t⟩ := r
    obtain ⟨hwf, hused, heop, hek, -⟩ := h.findOrCreate hop hk hfind
    have hfailed : JournalEntry.WellFormed { t.getD i {} with
        state := .failed, relatedClientOrderId := related } :=
      hwf.withState ⟨rfl, show 3 < 256 by decide⟩ hrelated
    refine appends_put hfind hfailed hused heop hek ?_ ?_ <;> simp

end Calls

theorem Mirrored.call_appends (h : j.Mirrored) {c : JournalCall} (hc : c.Typed) :
    j.Appends (j.call c) := by
  cases c with
  | begin op k related =>
    obtain ⟨hop, hk, hrelated⟩ := hc
    exact h.begin_appends hop hk hrelated
  | ack op k v related =>
    obtain ⟨hop, hk, hrelated, hv⟩ := hc
    cases v with
    | some v => exact h.ack_appends hop hk hrelated hv
    | none => exact h.ackNull_appends hop hk hrelated
  | fail op k related =>
    obtain ⟨hop, hk, hrelated⟩ := hc
    exact h.fail_appends hop hk hrelated

/-- **Calls keep the file and the table together.** -/
theorem Mirrored.run (h : j.Mirrored) {calls : List JournalCall} (hcalls : ∀ c ∈ calls, c.Typed) :
    (j.run calls).Mirrored := by
  have hstep : ∀ (j : IdempotencyJournal) (c : JournalCall), j.Mirrored → c.Typed →
      (IdempotencyJournal.call j c).Mirrored := fun _ _ h hc => h.appends (h.call_appends hc)
  exact foldl_induction hstep h hcalls

/-! ## Answers -/

theorem entryOf_reread (t : JournalTable) (op : JournalOperation) (k : ℕ) :
    JournalTable.entryOf t.reread op k = (t.entryOf op k).map JournalEntry.reread := by
  unfold JournalTable.entryOf
  rw [JournalTable.find_reread]
  cases hfind : t.find op k with
  | none => rfl
  | some i =>
    obtain ⟨e, he, -, -⟩ := SlotPool.getElem?_of_findIdx? hfind
    simp only [Option.map_some, List.getD_eq_getElem?_getD, JournalTable.getElem?_reread, he,
      Option.getD_some]

/-- **A journal whose table is read back agrees** with the one that has written the file. -/
theorem Agrees.of_reread (hentries : j'.entries = j.entries.reread) : j.Agrees j' := by
  have hlookup : ∀ op k, j'.lookup op k =
      (((j.entries.entryOf op k).map JournalEntry.reread).map JournalEntry.decision).getD {} := by
    intro op k
    rw [lookup_eq, hentries, entryOf_reread]
  refine ⟨fun op k => ?_, fun op k => ?_, fun op k => ?_, fun op k => ?_, ?_⟩
  · rw [hlookup, lookup_eq]
    cases j.entries.entryOf op k with
    | none => rfl
    | some e => simp [JournalEntry.decision]
  · rw [hlookup, lookup_eq]
    cases j.entries.entryOf op k with
    | none => rfl
    | some e =>
      simp only [JournalEntry.decision, JournalEntry.reread, Option.map_some, Option.getD_some]
      split <;> rfl
  · rw [hlookup, lookup_eq]
    cases j.entries.entryOf op k with
    | none => rfl
    | some e =>
      simp only [JournalEntry.decision, JournalEntry.reread, Option.map_some, Option.getD_some]
      split <;> rfl
  · rw [hlookup, lookup_eq]
    cases j.entries.entryOf op k with
    | none => exact Or.inl rfl
    | some e =>
      simp only [JournalEntry.decision, JournalEntry.reread, JournalEntry.venueText,
        Option.map_some,
        Option.getD_some]
      split
      · by_cases hempty : e.venueOrderId = []
        · exact Or.inr ⟨by simp [hempty, strncpyBuf], by simp [hempty, strncpyBuf]⟩
        · exact Or.inl (by simp [hempty])
      · exact Or.inl rfl
  · simp only [inFlightCount, hentries, JournalTable.reread, List.countP_map]
    congr 1
    funext e
    simp

/-- **Recovery is exact**: a new journal on the file answers like the one that has written it. -/
theorem recovery_exact {calls : List JournalCall} (hcalls : ∀ c ∈ calls, c.Typed) :
    ((load []).run calls).Agrees (load ((load []).run calls).file) :=
  .of_reread (mirrored_load_nil.run hcalls).recover_file

/-- A submission that is acked, and a cancel that fails and is begun again. -/
def ackedAndRetried : List JournalCall :=
  [.begin .submit 7 0, .ack .submit 7 (some "V7".toList) 0, .begin .cancel 7 0, .fail .cancel 7 0,
    .begin .cancel 7 0]

/-- The new journal knows the second attempt. -/
theorem recovery_exact_ackedAndRetried :
    ((load ((load []).run ackedAndRetried).file).lookup .cancel 7).attempt = 2 ∧
      (load ((load []).run ackedAndRetried).file).inFlightCount = 1 := by
  have h := @recovery_exact ackedAndRetried
    (by simp [ackedAndRetried, JournalCall.Typed, NoBlank]; decide)
  exact ⟨(h.attempt .cancel 7).trans (by decide +kernel), h.inFlight.trans (by decide +kernel)⟩

end IdempotencyJournal

end TradingInfrastructure
