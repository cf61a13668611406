import TradingInfrastructure.Connectors.TornRecords

/-!
# The process stops

The process stops when some bytes of the record that a call appends are in the file, and a new one
starts on the file (`crash`). It may stop between two records: then nothing is lost, at this restart
or at a later one. When it stops within a record, the next call appends to a part of a line, and
what it has written is not found at the restart after that (`restores_iff`).
-/

namespace TradingInfrastructure

open Fields (NoBlank isBlank)

/-! ## Records that are lost -/

namespace JournalTable

variable {e e' : JournalEntry} {n : ℕ}

/-- **A line after a part of another one** leaves the table, or a record with another venue order id
is applied. -/
theorem recoverLoop_merged (he : e.WellFormed) (hpos : 0 < n) (hn : n < e.line.length) {c : Char}
    {v : CString} (hc : isBlank c = false) (hv : ∀ a ∈ c :: v, a.isDigit = false)
    (hblank : NoBlank (c :: v)) (he' : e'.venueText = c :: v) (m : ℕ) (t : JournalTable)
    {start : CString} (hstart : start = [] ∨ start = ['\n']) :
    recoverLoop m (start ++ (e.line.take n ++ e'.line)) t = t ∨
      ∃ r, r.venueOrderId ≠ c :: v ∧
        recoverLoop m (start ++ (e.line.take n ++ e'.line)) t = t.applyRecord r := by
  have hread : readRecord (start ++ (e.line.take n ++ e'.line)) =
      readRecord (e.line.take n ++ e'.line) := by
    rcases hstart with rfl | rfl
    · rfl
    · exact readRecord_newline _
  cases m with
  | zero => exact Or.inl rfl
  | succ m =>
    rw [recoverLoop, hread]
    cases hrecord : readRecord (e.line.take n ++ e'.line) with
    | none => exact Or.inl rfl
    | some answer =>
      obtain ⟨r, rest⟩ := answer
      obtain ⟨hr, hrest⟩ := readRecord_torn he hpos hn hc hv hblank he' hrecord
      have hend : ∀ t, recoverLoop m rest t = t := by
        intro t
        cases m with
        | zero => rfl
        | succ m => rw [recoverLoop, hrest]
      simp only [hend]
      by_cases hstop : rest = []
      · exact Or.inl (if_pos hstop)
      · rw [if_neg hstop]
        by_cases hversion : r.version ≠ 1
        · exact Or.inl (if_pos hversion)
        · exact Or.inr ⟨r, hr.resolve_left hversion, if_neg hversion⟩

/-- A record that is applied writes one entry at most. -/
theorem entryOf_applyRecord (t : JournalTable) (r : JournalRecord) (op : JournalOperation) (k : ℕ) :
    (t.applyRecord r).entryOf op k = t.entryOf op k ∨
      (t.applyRecord r).entryOf op k = some r.entry := by
  rcases applyRecord_writes t r with hsame | hwrites
  · exact Or.inl (by rw [hsame])
  · by_cases hkey : (op, k) = (JournalOperation.ofCode r.op, r.clientOrderId)
    · obtain ⟨rfl, rfl⟩ := Prod.mk.inj hkey
      exact Or.inr hwrites.self
    · exact Or.inl (hwrites.other op k hkey)

end JournalTable

/-! ## A crash -/

namespace IdempotencyJournal

variable {j : IdempotencyJournal} {c : JournalCall} {n : ℕ}

/-- The bytes that a call appends to the file. -/
def appended (j : IdempotencyJournal) (c : JournalCall) : CString :=
  (j.call c).file.drop j.file.length

/-- The journal of a new process, when some bytes of what a call appends are in the file. -/
def crash (j : IdempotencyJournal) (c : JournalCall) (n : ℕ) : IdempotencyJournal :=
  load (j.file ++ (j.appended c).take n)

/-- **Every record that was written completely is restored**: at the restart after the crash, and at
one after any further calls. -/
structure Restores (j : IdempotencyJournal) (c : JournalCall) (n : ℕ) : Prop where
  before : (if (j.appended c).length ≤ n then j.call c else j).Agrees (j.crash c n)
  after : ∀ calls : List JournalCall, (∀ c ∈ calls, c.Typed) →
    ((j.crash c n).run calls).Agrees (load ((j.crash c n).run calls).file)

theorem Appends.file (h : j.Appends (j.call c)) : (j.call c).file = j.file ++ j.appended c := by
  unfold appended
  rcases h with ⟨-, hfile⟩ | ⟨e, -, -, i, t, -, -, hfile⟩
  · simp [hfile]
  · simp [hfile]

/-! ### Between two records -/

/-- What is read back is read back as it is. -/
theorem reread_reread (t : JournalTable) : JournalTable.reread t.reread = t.reread := by
  unfold JournalTable.reread
  rw [List.map_map]
  congr 1
  funext e
  simp only [Function.comp_apply, JournalEntry.reread]
  by_cases hused : e.used = true
  · have htext : JournalEntry.venueText { e with venueOrderId := e.venueText } = e.venueText :=
      if_pos e.venueText_ne_nil
    simp only [hused] at htext
    simp only [hused, if_true, htext]
  · simp only [hused, Bool.false_eq_true, if_false]

theorem wellFormed_reread {e : JournalEntry} (h : e.WellFormed) : e.reread.WellFormed := by
  unfold JournalEntry.reread
  split
  · exact { h with noBlank := h.noBlank_venueText, length_lt := h.length_venueText }
  · exact h

/-- **A new journal on the file** is one whose table the file gives back, like the old one. -/
theorem Mirrored.load (h : j.Mirrored) : (load j.file).Mirrored := by
  have hentries : (IdempotencyJournal.load j.file).entries = j.entries.reread := h.recover_file
  obtain ⟨es, hfile, hwf, hreplay⟩ := h.file
  refine ⟨fun e he => ?_, fun e he hunused => ?_, es, hfile, hwf, ?_⟩
  · rw [hentries] at he
    obtain ⟨a, ha, rfl⟩ := List.mem_map.mp he
    exact wellFormed_reread (h.entries a ha)
  · rw [hentries] at he
    obtain ⟨a, ha, rfl⟩ := List.mem_map.mp he
    rw [JournalEntry.reread_used] at hunused
    rw [h.idle a ha hunused]
    rfl
  · rw [hentries, reread_reread, hreplay]

/-- The restarts after a stop between two records lose nothing. -/
theorem Mirrored.agrees_after (h : j.Mirrored) {calls : List JournalCall}
    (hcalls : ∀ c ∈ calls, c.Typed) :
    ((IdempotencyJournal.load j.file).run calls).Agrees
      (IdempotencyJournal.load ((IdempotencyJournal.load j.file).run calls).file) :=
  .of_reread (h.load.run hcalls).recover_file

theorem Mirrored.restores (h : j.Mirrored) (hc : c.Typed) (hn : n = 0 ∨ (j.appended c).length ≤ n) :
    j.Restores c n := by
  have hcall : (j.call c).Mirrored := h.appends (h.call_appends hc)
  by_cases hwhole : (j.appended c).length ≤ n
  · have hcrash : j.crash c n = IdempotencyJournal.load (j.call c).file := by
      rw [crash, List.take_of_length_le hwhole, (h.call_appends hc).file]
    refine ⟨?_, fun calls hcalls => ?_⟩
    · rw [if_pos hwhole, hcrash]
      exact .of_reread hcall.recover_file
    · rw [hcrash]
      exact hcall.agrees_after hcalls
  · have hcrash : j.crash c n = IdempotencyJournal.load j.file := by
      rw [crash, hn.resolve_right hwhole, List.take_zero, List.append_nil]
    refine ⟨?_, fun calls hcalls => ?_⟩
    · rw [if_neg hwhole, hcrash]
      exact .of_reread h.recover_file
    · rw [hcrash]
      exact h.agrees_after hcalls

/-! ### Within a record -/

/-- An `ack` whose entry is found or created. -/
theorem ack_of_findOrCreate {op : JournalOperation} {k i : ℕ} {t : JournalTable}
    (h : j.entries.findOrCreate op k = some (i, t)) (v : CString) (related : ℕ) :
    ∃ e : JournalEntry, e.venueOrderId = strncpyBuf 64 v ∧
      (j.ack op k v related true).entries.entryOf op k = some e ∧
      (j.ack op k v related true).file = j.file ++ e.line := by
  obtain ⟨a, ha, hused, hop, hk, -⟩ := JournalTable.findOrCreate_spec h
  have hget : t.getD i {} = a := by rw [List.getD_eq_getElem?_getD, ha, Option.getD_some]
  have hputs : Puts j (j.ack op k v related true) op k true
      { a with
        state := .acked, relatedClientOrderId := related, venueOrderId := strncpyBuf 64 v } := by
    simp only [ack, h, hget]
    refine puts_put h ?_ ?_ ?_ true ?_ ?_
    · exact hused
    · exact hop
    · exact hk
    · simp
    · simp
  exact ⟨_, rfl, hputs.writes.self, hputs.file_eq⟩

theorem strncpyBuf_singleton {w : CString} {a : Char} (h : strncpyBuf 64 w = [a]) : w = [a] := by
  cases w with
  | nil => cases h
  | cons b w =>
    cases w with
    | nil => exact h
    | cons c w => cases h

section Torn

variable {e e' : JournalEntry} {es : List JournalEntry}

/-- A part of a line at the end of the file is not read. -/
theorem entries_load_torn (he : e.WellFormed) (hwf : ∀ e ∈ es, e.WellFormed)
    (hn : n < e.line.length) :
    (load (es.flatMap JournalEntry.line ++ e.line.take n)).entries =
      es.foldl (fun t e => t.applyRecord e.record) .empty := by
  obtain ⟨m, start, hstart, hrecover⟩ := JournalTable.recover_lines_append hwf (e.line.take n)
  exact hrecover.trans (recoverLoop_torn he hn m _ hstart)

/-- A line after it leaves the table, or a record with another venue order id is applied. -/
theorem entries_load_merged (he : e.WellFormed) (hwf : ∀ e ∈ es, e.WellFormed) (hpos : 0 < n)
    (hn : n < e.line.length) {a : Char} (hblank : isBlank a = false) (hdigit : a.isDigit = false)
    (htext : e'.venueText = [a]) :
    let torn := es.flatMap JournalEntry.line ++ e.line.take n
    (load (torn ++ e'.line)).entries = (load torn).entries ∨
      ∃ r, r.venueOrderId ≠ [a] ∧
        (load (torn ++ e'.line)).entries = (load torn).entries.applyRecord r := by
  intro torn
  obtain ⟨m, start, hstart, hrecover⟩ :=
    JournalTable.recover_lines_append hwf (e.line.take n ++ e'.line)
  have hload : (load (torn ++ e'.line)).entries =
      JournalTable.recoverLoop m (start ++ (e.line.take n ++ e'.line)) (load torn).entries := by
    rw [entries_load_torn he hwf hn, ← hrecover, ← List.append_assoc]
    rfl
  rw [hload]
  exact JournalTable.recoverLoop_merged (v := []) he hpos hn hblank
    (fun b hb => by rw [List.mem_singleton.mp hb, hdigit])
    (fun b hb => by rw [List.mem_singleton.mp hb, hblank]) htext m (load torn).entries hstart

end Torn

/-- A stop within a record leaves a part of the line of an entry, which has a place in the table. -/
theorem Mirrored.crash_within (h : j.Mirrored) (hc : c.Typed) (hn : n < (j.appended c).length) :
    ∃ (e : JournalEntry) (es : List JournalEntry), e.WellFormed ∧ (∀ a ∈ es, a.WellFormed) ∧
      n < e.line.length ∧
      (j.crash c n).file = es.flatMap JournalEntry.line ++ e.line.take n ∧
      ∃ i t, (j.crash c n).entries.findOrCreate e.op e.clientOrderId = some (i, t) := by
  rcases h.call_appends hc with ⟨-, hfile⟩ | ⟨e, he, -, i, t, hfind, -, hfile⟩
  · simp [appended, hfile] at hn
  have hline : j.appended c = e.line := by simp [appended, hfile]
  rw [hline] at hn
  obtain ⟨es, hes, hwf, hreplay⟩ := h.file
  have hcrashFile : (j.crash c n).file = es.flatMap JournalEntry.line ++ e.line.take n := by
    rw [← hes, ← hline]
    rfl
  have hcrash : (j.crash c n).entries = j.entries.reread := by
    have hload : (j.crash c n).entries = (IdempotencyJournal.load (j.crash c n).file).entries := rfl
    rw [hload, hcrashFile, entries_load_torn he hwf hn, hreplay]
  obtain ⟨u, hu, -⟩ := JournalTable.findOrCreate_reread hfind
  rw [← hcrash] at hu
  exact ⟨e, es, he, hwf, hn, hcrashFile, _, u, hu⟩

/-- **A stop within a record** loses what is acked next: its line continues a part of another. -/
theorem Mirrored.not_restores (h : j.Mirrored) (hc : c.Typed) (hpos : 0 < n)
    (hn : n < (j.appended c).length) : ¬ j.Restores c n := by
  intro hrestores
  obtain ⟨e, es, he, hwf, hn, hcrashFile, i, t, hfind⟩ := h.crash_within hc hn
  -- the same entry is acked with a venue order id that the table does not hold
  obtain ⟨a, ha, hfresh⟩ : ∃ a : Char, (a = 'V' ∨ a = 'W') ∧
      ((j.crash c n).lookup e.op e.clientOrderId).venueOrderId ≠ [a] := by
    by_cases hv : ((j.crash c n).lookup e.op e.clientOrderId).venueOrderId = ['V']
    · exact ⟨'W', Or.inr rfl, by rw [hv]; decide⟩
    · exact ⟨'V', Or.inl rfl, hv⟩
  have hblank : isBlank a = false := by rcases ha with rfl | rfl <;> decide
  have hdigit : a.isDigit = false := by rcases ha with rfl | rfl <;> decide
  have htyped : JournalCall.Typed (.ack e.op e.clientOrderId (some [a]) 0) :=
    ⟨he.op, he.clientOrderId, by decide, fun b hb => by rw [List.mem_singleton.mp hb, hblank]⟩
  have hagrees := (hrestores.after [.ack e.op e.clientOrderId (some [a]) 0] fun b hb =>
    List.mem_singleton.mp hb ▸ htyped).venueOrderId e.op e.clientOrderId
  obtain ⟨e', hvenue, hentry, hfile⟩ := ack_of_findOrCreate hfind [a] 0
  have hrun : (j.crash c n).run [.ack e.op e.clientOrderId (some [a]) 0] =
      (j.crash c n).ack e.op e.clientOrderId [a] 0 true := rfl
  have hvenue' : e'.venueOrderId = [a] := hvenue
  have hknown : ((j.crash c n).ack e.op e.clientOrderId [a] 0 true |>.lookup e.op
      e.clientOrderId).venueOrderId = [a] := by
    rw [lookup_eq, hentry]
    simp only [JournalEntry.decision, Option.map_some, Option.getD_some, hvenue']
    rfl
  rw [hrun, hknown, hfile, hcrashFile] at hagrees
  have hsame := hagrees.resolve_right fun hempty => by cases hempty.1
  -- the restart finds what the crash had left, or a record with another venue order id
  have htext : e'.venueText = [a] := by rw [JournalEntry.venueText, hvenue', if_pos (by simp)]
  have hcrash : (IdempotencyJournal.load (es.flatMap JournalEntry.line ++ e.line.take n)).entries =
      (j.crash c n).entries := by
    rw [← hcrashFile]
    rfl
  have hmerged := entries_load_merged he hwf hpos hn hblank hdigit htext
  simp only [hcrash] at hmerged
  rcases hmerged with hleft | ⟨r, hr, hleft⟩
  · rw [lookup_eq, hleft, ← lookup_eq] at hsame
    exact hfresh hsame
  · rw [lookup_eq, hleft] at hsame
    rcases JournalTable.entryOf_applyRecord (j.crash c n).entries r e.op e.clientOrderId with
      hold | hnew
    · rw [hold, ← lookup_eq] at hsame
      exact hfresh hsame
    · rw [hnew] at hsame
      exact hr (strncpyBuf_singleton (strncpyBuf_singleton hsame))

/-- **Every record survives a crash** and what follows it exactly when the process stops between two
records. -/
theorem restores_iff {calls : List JournalCall} (hcalls : ∀ c ∈ calls, c.Typed) (hc : c.Typed) :
    ((load []).run calls).Restores c n ↔
      n = 0 ∨ (((load []).run calls).appended c).length ≤ n := by
  have h : ((load []).run calls).Mirrored := mirrored_load_nil.run hcalls
  constructor
  · intro hrestores
    by_contra hwithin
    obtain ⟨hpos, hn⟩ := not_or.mp hwithin
    exact h.not_restores hc (Nat.pos_of_ne_zero hpos) (not_le.mp hn) hrestores
  · exact h.restores hc

/-- A submission that is begun, and the ack of it. -/
def begunOrder : List JournalCall := [.begin .submit 1 0]

def ackOfOrder : JournalCall := .ack .submit 1 (some "V1".toList) 0

/-- Nothing is lost when all bytes of the ack are in the file. -/
theorem ackOfOrder_restores :
    ((load []).run begunOrder).Restores ackOfOrder 15 :=
  (restores_iff (by simp [begunOrder, JournalCall.Typed]; decide)
    (by simp [ackOfOrder, JournalCall.Typed]; decide)).mpr (Or.inr (by decide +kernel))

/-- When two bytes of the ack are in the file, an order that is acked later is not found again. -/
theorem tornAck_not_restores : ¬ ((load []).run begunOrder).Restores ackOfOrder 2 :=
  (mirrored_load_nil.run (by simp [begunOrder, JournalCall.Typed]; decide)).not_restores
    (by simp [ackOfOrder, JournalCall.Typed]; decide) (by decide) (by decide +kernel)

end IdempotencyJournal

end TradingInfrastructure
