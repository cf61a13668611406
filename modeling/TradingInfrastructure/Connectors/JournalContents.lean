import TradingInfrastructure.Connectors.JournalSteps
import TradingInfrastructure.Foundations.Runs

/-!
# What a journal holds

A property of the entries that are written to a journal is one of every entry of its table and of
every line of its file (`Holds`), so it is one of every entry that is read back (`Holds.load`).
-/

namespace TradingInfrastructure

open Fields (NoBlank)

namespace IdempotencyJournal

variable {P : JournalEntry → Prop} {j j' : IdempotencyJournal} {op : JournalOperation} {k : ℕ}
  {e : JournalEntry} {opened : Bool}

/-- Every entry in use, and every line of the file, is well formed and has the property. -/
structure Holds (P : JournalEntry → Prop) (j : IdempotencyJournal) : Prop where
  entries : ∀ e ∈ j.entries, e.WellFormed ∧ (e.used = true → P e)
  idle : ∀ e ∈ j.entries, e.used = false → e = {}
  file : ∃ es : List JournalEntry, j.file = es.flatMap JournalEntry.line ∧
    ∀ e ∈ es, e.WellFormed ∧ P e

/-- The property does not depend on the sign that the file has for an empty venue order id. -/
def Readable (P : JournalEntry → Prop) : Prop :=
  ∀ e, P e → P { e with used := true, venueOrderId := e.venueText }

theorem Holds.of_eq (h : j.Holds P) (hentries : j'.entries = j.entries) (hfile : j'.file = j.file) :
    j'.Holds P := by
  obtain ⟨es, hes, hall⟩ := h.file
  exact ⟨hentries ▸ h.entries, hentries ▸ h.idle, es, hfile.trans hes, hall⟩

/-- **An entry with the property** may be put into the journal. -/
theorem Holds.puts (h : j.Holds P) (hputs : Puts j j' op k opened e) (hwf : e.WellFormed)
    (hused : e.used = true) (hP : P e) : j'.Holds P := by
  obtain ⟨es, hfile, hes⟩ := h.file
  refine ⟨fun a ha => ?_, fun a ha hidle => ?_, ?_⟩
  · rcases hputs.writes.mem a ha with ha | rfl
    · exact h.entries a ha
    · exact ⟨hwf, fun _ => hP⟩
  · rcases hputs.writes.mem a ha with ha | rfl
    · exact h.idle a ha hidle
    · rw [hused] at hidle
      cases hidle
  · cases opened with
    | true =>
      refine ⟨es ++ [e], by rw [hputs.file_eq, hfile]; simp, fun a ha => ?_⟩
      rcases List.mem_append.mp ha with ha | ha
      · exact hes a ha
      · rw [List.mem_singleton.mp ha]
        exact ⟨hwf, hP⟩
    | false => exact ⟨es, by rw [hputs.file_eq, hfile]; simp, hes⟩

/-- **The journal that is read from the file** holds the same. -/
theorem Holds.load (h : j.Holds P) (hread : Readable P) :
    (IdempotencyJournal.load j.file).Holds P := by
  obtain ⟨es, hfile, hes⟩ := h.file
  -- the records of the file are applied one by one
  have hstep : ∀ (t : JournalTable) (e : JournalEntry),
      (∀ a ∈ t, (a.WellFormed ∧ (a.used = true → P a)) ∧ (a.used = false → a = {})) →
      (e.WellFormed ∧ P e) →
      ∀ a ∈ t.applyRecord e.record,
        (a.WellFormed ∧ (a.used = true → P a)) ∧ (a.used = false → a = {}) := by
    intro t e ht he
    obtain ⟨hwf, hP⟩ := he
    rcases JournalTable.applyRecord_cases hwf t with hsame | hwrites
    · rwa [hsame]
    · intro a ha
      rcases hwrites.mem a ha with ha | rfl
      · exact ht a ha
      · refine ⟨⟨?_, fun _ => hread e hP⟩, fun hidle => absurd hidle (by simp)⟩
        exact { hwf with noBlank := hwf.noBlank_venueText, length_lt := hwf.length_venueText }
  have htable : (IdempotencyJournal.load j.file).entries =
      es.foldl (fun t e => t.applyRecord e.record) .empty := by
    rw [hfile]
    exact JournalTable.recover_lines fun e he => (hes e he).1
  have hempty : ∀ a ∈ JournalTable.empty,
      (a.WellFormed ∧ (a.used = true → P a)) ∧ (a.used = false → a = {}) := by
    intro a ha
    rw [List.eq_of_mem_replicate ha]
    exact ⟨⟨JournalEntry.wellFormed_default, fun hused => absurd hused (by decide)⟩, fun _ => rfl⟩
  have hall := foldl_induction hstep hempty hes
  rw [← htable] at hall
  exact ⟨fun e he => (hall e he).1, fun e he => (hall e he).2, es, hfile, hes⟩

theorem holds_load_nil (P : JournalEntry → Prop) : (load []).Holds P := by
  have hentries : (load []).entries = .empty :=
    JournalTable.recover_lines fun _ he => absurd he List.not_mem_nil
  refine ⟨fun e he => ?_, fun e he _ => ?_, [], rfl, fun _ he => absurd he List.not_mem_nil⟩
  · rw [hentries] at he
    rw [List.eq_of_mem_replicate he]
    exact ⟨JournalEntry.wellFormed_default, fun hused => absurd hused (by decide)⟩
  · rw [hentries] at he
    exact List.eq_of_mem_replicate he

/-- The property holds of every entry of the operation on the order. -/
def Allows (P : JournalEntry → Prop) (op : JournalOperation) (k : ℕ) : Prop :=
  ∀ e, e.op = op → e.clientOrderId = k → P e

section Operations

variable {related : ℕ} (hP : Allows P op k)

include hP

theorem Holds.begin (h : j.Holds P) (hop : JournalOperation.ofCode op.code = op ∧ op.code < 256)
    (hk : k < 2 ^ 64) (hrelated : related < 2 ^ 64) : (j.begin op k related opened).2.Holds P := by
  rcases begin_cases h.idle op k related opened with ⟨-, heq⟩ | ⟨e, -, -, -, hentries, hfile⟩ |
    ⟨-, e, hmem, hused, heop, hek, -, hputs⟩
  · rw [heq]
    exact h
  · exact h.of_eq hentries hfile
  · have hwf : e.WellFormed := by
      rcases hmem with hmem | rfl
      · exact (h.entries e hmem).1
      · exact { JournalEntry.wellFormed_default with op := hop, clientOrderId := hk }
    exact h.puts hputs (hwf.sent hrelated) hused (hP _ heop hek)

theorem Holds.ack (h : j.Holds P) (he : j.entries.entryOf op k = some e) {v : CString}
    (hv : NoBlank v) (hrelated : related < 2 ^ 64) : (j.ack op k v related opened).Holds P := by
  obtain ⟨hmem, hused, hop, hk⟩ := JournalTable.entryOf_eq_some he
  exact h.puts (ack_puts he v related opened) ((h.entries e hmem).1.acked hrelated hv) hused
    (hP _ hop hk)

theorem Holds.fail (h : j.Holds P) (he : j.entries.entryOf op k = some e)
    (hrelated : related < 2 ^ 64) : (j.fail op k related opened).Holds P := by
  obtain ⟨hmem, hused, hop, hk⟩ := JournalTable.entryOf_eq_some he
  exact h.puts (fail_puts he related opened)
    ((h.entries e hmem).1.withState ⟨rfl, show 3 < 256 by decide⟩ hrelated) hused (hP _ hop hk)

end Operations

end IdempotencyJournal

end TradingInfrastructure
