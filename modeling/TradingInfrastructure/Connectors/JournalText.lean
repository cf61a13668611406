import TradingInfrastructure.Connectors.IdempotencyJournal

/-!
# The journal file is read back

A file made of the lines of well-formed entries is read back record by record: `recover` builds
the table that applying the records in turn to an empty one gives (`recover_lines`). So what holds
of every record of the file, and is kept by applying one, holds of the table that is recovered.
-/

namespace TradingInfrastructure

open Fields (NoBlank readNumeral readNumeral_append readNumeral_blank readWord readWord_append
  readWord_blank)

theorem saturatingAdd_lt {n : ℕ} (h : n < 2 ^ 64) : saturatingAdd n 1 < 2 ^ 64 := by
  unfold saturatingAdd
  split <;> omega

namespace JournalEntry

/-- The entry fits the fields of its line. -/
structure WellFormed (e : JournalEntry) : Prop where
  op : JournalOperation.ofCode e.op.code = e.op ∧ e.op.code < 256
  state : JournalState.ofCode e.state.code = e.state ∧ e.state.code < 256
  clientOrderId : e.clientOrderId < 2 ^ 64
  relatedClientOrderId : e.relatedClientOrderId < 2 ^ 64
  attempt : e.attempt < 2 ^ 64
  noBlank : NoBlank e.venueOrderId
  length_lt : e.venueOrderId.length < 64

theorem wellFormed_default : WellFormed {} := by
  refine ⟨by decide, by decide, by decide, by decide, by decide, by decide, by decide⟩

section WellFormed

variable {e : JournalEntry} {related : ℕ}

/-- An entry that takes one of the states of the code. -/
theorem WellFormed.withState (h : e.WellFormed) {state : JournalState}
    (hstate : JournalState.ofCode state.code = state ∧ state.code < 256)
    (hrelated : related < 2 ^ 64) :
    WellFormed { e with state := state, relatedClientOrderId := related } :=
  { h with state := hstate, relatedClientOrderId := hrelated }

/-- An entry that is sent to the venue. -/
theorem WellFormed.sent (h : e.WellFormed) (hrelated : related < 2 ^ 64) :
    WellFormed { e with
      state := .inFlight, attempt := saturatingAdd e.attempt 1,
      relatedClientOrderId := related } :=
  { h with
    state := ⟨rfl, show 1 < 256 by decide⟩
    attempt := saturatingAdd_lt h.attempt
    relatedClientOrderId := hrelated }

/-- An entry that is acked with a venue order id. -/
theorem WellFormed.acked (h : e.WellFormed) (hrelated : related < 2 ^ 64) {v : CString}
    (hv : NoBlank v) :
    WellFormed { e with
      state := .acked, relatedClientOrderId := related, venueOrderId := strncpyBuf 64 v } :=
  { h with
    state := ⟨rfl, show 2 < 256 by decide⟩
    relatedClientOrderId := hrelated
    noBlank := fun c hc => hv c (List.mem_of_mem_take hc)
    length_lt := by simp only [strncpyBuf, List.length_take]; omega }

end WellFormed

/-- The record that the line of an entry holds. -/
def record (e : JournalEntry) : JournalRecord where
  version := 1
  op := e.op.code
  clientOrderId := e.clientOrderId
  relatedClientOrderId := e.relatedClientOrderId
  attempt := e.attempt
  state := e.state.code
  venueOrderId := e.venueText

variable {e : JournalEntry}

theorem venueText_ne_nil (e : JournalEntry) : e.venueText ≠ [] := by
  unfold venueText
  split
  · assumption
  · exact List.cons_ne_nil _ _

theorem WellFormed.noBlank_venueText (h : e.WellFormed) : NoBlank e.venueText := by
  unfold venueText
  split
  · exact h.noBlank
  · decide

theorem WellFormed.length_venueText (h : e.WellFormed) : e.venueText.length < 64 := by
  unfold venueText
  split
  · exact h.length_lt
  · decide

theorem readNumeral_field {bound n : ℕ} (hn : n < bound) (rest : CString) :
    readNumeral bound (field n ++ rest) = some (n, ' ' :: rest) := by
  rw [field, List.append_assoc, List.singleton_append]
  exact readNumeral_append hn rfl

/-- **A line is read back**, up to the end of the line. -/
theorem readRecord_line (h : e.WellFormed) (rest : CString) :
    readRecord (e.line ++ rest) = some (e.record, '\n' :: rest) := by
  have hop := h.op.2
  have hstate := h.state.2
  have hblank : ∀ {bound text}, readNumeral bound (' ' :: text) = readNumeral bound text :=
    readNumeral_blank rfl
  have hword : readWord (' ' :: (e.venueText ++ '\n' :: rest)) =
    some (e.venueText, '\n' :: rest) := by
    rw [readWord_blank rfl]
    exact readWord_append e.venueText_ne_nil h.noBlank_venueText rfl
  simp only [readRecord, line, List.append_assoc, List.singleton_append, hblank,
    Option.bind_eq_bind,
    readNumeral_field (show 1 < 2 ^ 32 by decide), Option.bind_some,
    readNumeral_field (show e.op.code < 2 ^ 32 by omega), readNumeral_field h.clientOrderId,
    readNumeral_field h.relatedClientOrderId, readNumeral_field h.attempt,
    readNumeral_field (show e.state.code < 2 ^ 32 by omega), hword]
  rfl

theorem length_line_pos (e : JournalEntry) : 0 < e.line.length := by
  simp [line]

end JournalEntry

namespace JournalTable

/-- What the end of a line leaves does not stop the next record from being read. -/
theorem readRecord_newline (text : CString) : readRecord ('\n' :: text) = readRecord text := by
  simp only [readRecord, readNumeral_blank (c := '\n') rfl]

/-- The lines of well-formed entries are read one after another, up to what follows them. -/
theorem recoverLoop_lines (tail : CString) {es : List JournalEntry} (hwf : ∀ e ∈ es, e.WellFormed)
    (m : ℕ) (t : JournalTable) {start : CString} (hstart : start = [] ∨ start = ['\n']) :
    ∃ start', (start' = [] ∨ start' = ['\n']) ∧
      recoverLoop (es.length + m) (start ++ (es.flatMap JournalEntry.line ++ tail)) t =
        recoverLoop m (start' ++ tail) (es.foldl (fun t e => t.applyRecord e.record) t) := by
  induction es generalizing t start with
  | nil => exact ⟨start, hstart, by simp⟩
  | cons e es ih =>
    have hread : readRecord (start ++ ((e :: es).flatMap JournalEntry.line ++ tail)) =
        some (e.record, '\n' :: (es.flatMap JournalEntry.line ++ tail)) := by
      have hline := JournalEntry.readRecord_line (hwf e (by simp))
        (es.flatMap JournalEntry.line ++ tail)
      rcases hstart with rfl | rfl
      · simpa using hline
      · simpa [readRecord_newline] using hline
    have hversion : e.record.version = 1 := rfl
    obtain ⟨start', hstart', hrest⟩ := ih (fun a ha => hwf a (by simp [ha]))
      (t.applyRecord e.record) (Or.inr rfl)
    refine ⟨start', hstart', ?_⟩
    rw [List.length_cons, Nat.add_right_comm, recoverLoop, hread]
    simp only [reduceCtorEq, hversion, ne_eq, not_true_eq_false, if_false]
    exact hrest

/-- A file that starts with lines of well-formed entries. -/
theorem recover_lines_append {es : List JournalEntry} (h : ∀ e ∈ es, e.WellFormed)
    (tail : CString) :
    ∃ m start, (start = [] ∨ start = ['\n']) ∧
      recover (es.flatMap JournalEntry.line ++ tail) =
        recoverLoop m (start ++ tail) (es.foldl (fun t e => t.applyRecord e.record) empty) := by
  have hlength : es.length ≤ (es.flatMap JournalEntry.line ++ tail).length := by
    clear h
    induction es with
    | nil => simp
    | cons e es ih =>
      have := e.length_line_pos
      simp only [List.length_cons, List.flatMap_cons, List.length_append] at ih ⊢
      omega
  obtain ⟨m, hm⟩ := Nat.exists_eq_add_of_le hlength
  obtain ⟨start, hstart, hloop⟩ := recoverLoop_lines tail h m empty (Or.inl rfl)
  refine ⟨m, start, hstart, ?_⟩
  rw [recover, hm]
  exact hloop

/-- **The file is read back**: recovering the lines of well-formed entries applies their records in
turn. -/
theorem recover_lines {es : List JournalEntry} (h : ∀ e ∈ es, e.WellFormed) :
    recover (es.flatMap JournalEntry.line) =
      es.foldl (fun t e => t.applyRecord e.record) empty := by
  obtain ⟨m, start, hstart, hrecover⟩ := recover_lines_append h []
  rw [List.append_nil, List.append_nil] at hrecover
  rw [hrecover]
  cases m with
  | zero => rfl
  | succ m => rcases hstart with rfl | rfl <;> rfl

end JournalTable

end TradingInfrastructure
