import TradingInfrastructure.Connectors.JournalReplay
import TradingInfrastructure.Foundations.Fields

/-!
# A record that is cut off

The process may stop when a part of a record has been written. The part at the end of the file is
dropped when the file is read (`recoverLoop_torn`), and it stays in the file. The next record is
appended to it, on the same line, and is read as a part of another one. Nothing that was written
later is found after that (`readRecord_torn`). So no record is lost exactly when the process stops
between two records (`restores_iff`).
-/

namespace TradingInfrastructure

open Fields

/-! ## Lines in fields -/

namespace JournalEntry

/-- The numerals of the line. -/
def numerals (e : JournalEntry) : List CString :=
  [1, e.op.code, e.clientOrderId, e.relatedClientOrderId, e.attempt, e.state.code].map
    (Nat.toDigits 10)

theorem line_eq (e : JournalEntry) :
    e.line = spaced e.numerals ++ (e.venueText ++ ['\n']) := by
  simp [line, field, numerals]

theorem isNumeral_of_mem (e : JournalEntry) : ∀ w ∈ e.numerals, IsNumeral w := by
  intro w hw
  obtain ⟨n, -, rfl⟩ := List.mem_map.mp hw
  exact isNumeral_toDigits n

@[simp] theorem length_numerals (e : JournalEntry) : e.numerals.length = 6 := rfl

/-- **A part of a line**: some of its numerals, and a part of the field that follows. -/
theorem take_line (e : JournalEntry) {n : ℕ} (hn : n < e.line.length) :
    ∃ pre x, e.line.take n = spaced pre ++ x ∧ pre <+: e.numerals ∧
      ((pre.length < 6 ∧ (∀ c ∈ x, c.isDigit = true) ∧ (pre = [] → x <+: ['1'])) ∨
        (pre = e.numerals ∧ x <+: e.venueText)) := by
  rw [e.line_eq] at hn ⊢
  rcases take_spaced e.numerals (e.venueText ++ ['\n']) n with
    ⟨pre, w, post, x, hsplit, hx, htake⟩ | ⟨m, rfl, htake⟩
  · refine ⟨pre, x, htake, ⟨w :: post, hsplit.symm⟩, Or.inl ⟨?_, fun c hc => ?_, ?_⟩⟩
    · have hlength := congrArg List.length hsplit
      simp only [length_numerals, List.length_append, List.length_cons] at hlength
      omega
    · exact (e.isNumeral_of_mem w (hsplit ▸ by simp)).2 c (hx.subset hc)
    · rintro rfl
      have hw : w = ['1'] := (List.cons.inj hsplit).1.symm
      exact hw ▸ hx
  · refine ⟨e.numerals, e.venueText.take m, ?_, List.prefix_refl _,
      Or.inr ⟨rfl, List.take_prefix m _⟩⟩
    have hm : m ≤ e.venueText.length := by
      simp only [List.length_append, List.length_singleton] at hn
      omega
    rw [htake, List.take_append_of_le_length hm]

end JournalEntry

/-- The bounds of the numerals of a record. -/
def recordBounds : List ℕ := [2 ^ 32, 2 ^ 32, 2 ^ 64, 2 ^ 64, 2 ^ 64, 2 ^ 32]

theorem length_recordBounds : recordBounds.length = 6 := rfl

/-- A record that is read starts with six numerals, and a word follows them. -/
theorem readRecord_some {text rest : CString} {r : JournalRecord}
    (h : readRecord text = some (r, rest)) :
    ∃ ns text', readNumerals recordBounds text = some (ns, text') ∧
      readWord text' = some (r.venueOrderId, rest) ∧ ns.head? = some r.version := by
  simp only [readRecord, Option.bind_eq_bind, Option.bind_eq_some_iff, Option.pure_def,
    Option.some.injEq, Prod.mk.injEq] at h
  obtain ⟨⟨version, t₁⟩, h₁, ⟨op, t₂⟩, h₂, ⟨k, t₃⟩, h₃, ⟨related, t₄⟩, h₄, ⟨attempt, t₅⟩, h₅,
    ⟨state, t₆⟩, h₆, ⟨w, t₇⟩, h₇, rfl, rfl⟩ := h
  refine ⟨[version, op, k, related, attempt, state], t₆, ?_, h₇, rfl⟩
  simp only at h₂ h₃ h₄ h₅ h₆
  simp only [readNumerals, recordBounds, h₁, h₂, h₃, h₄, h₅, h₆, Option.bind_eq_bind,
    Option.bind_some, Option.pure_def]

theorem readRecord_eq_none {text : CString} (h : readNumerals recordBounds text = none) :
    readRecord text = none := by
  cases hread : readRecord text with
  | none => rfl
  | some answer =>
    obtain ⟨ns, text', hns, -⟩ := readRecord_some hread
    rw [h] at hns
    cases hns

/-- A blank before a record is skipped. -/
theorem readRecord_blank {text rest : CString} {r : JournalRecord}
    (h : readRecord text = some (r, rest)) :
    ∃ ns text', readNumerals recordBounds (' ' :: text) = some (ns, text') ∧
      readWord text' = some (r.venueOrderId, rest) ∧ ns.head? = some r.version := by
  obtain ⟨ns, text', hns, hword, hversion⟩ := readRecord_some h
  refine ⟨ns, text', ?_, hword, hversion⟩
  rw [recordBounds, readNumerals_blank (by decide)]
  exact hns

/-- A word at the end of the text is read to the end. -/
theorem readWord_end {w v rest : CString} (hw : NoBlank w) (h : readWord w = some (v, rest)) :
    rest = [] := by
  have hskip : w.dropWhile isBlank = w := by
    rw [List.dropWhile_eq_self_iff]
    intro hpos hblank
    rw [hw _ (List.getElem_mem hpos)] at hblank
    cases hblank
  simp only [readWord, hskip] at h
  split at h
  · cases h
  · rw [← (Prod.mk.inj (Option.some.inj h)).2, List.dropWhile_eq_nil_iff]
    intro c hc
    simp [hw c hc]

/-! ## Parts of lines -/

section Torn

variable {e e' : JournalEntry} {n : ℕ}

/-- A part of a line at the end of the file is read to the end, if it is read. -/
theorem readRecord_take (he : e.WellFormed) (hn : n < e.line.length) {r : JournalRecord}
    {rest : CString} (h : readRecord (e.line.take n) = some (r, rest)) : rest = [] := by
  obtain ⟨pre, x, htake, hpre, hcases⟩ := e.take_line hn
  rw [htake] at h
  obtain ⟨ns, text, hns, hword, -⟩ := readRecord_blank h
  have hnumerals : ∀ w ∈ pre, IsNumeral w := fun w hw => e.isNumeral_of_mem w (hpre.subset hw)
  rcases hcases with ⟨hlt, hx, -⟩ | ⟨rfl, hx⟩
  · obtain rfl := readNumerals_end hnumerals (hlt.trans_eq length_recordBounds.symm) hx hns
    simp [readWord] at hword
  · obtain rfl := readNumerals_rest hnumerals rfl hns
    rw [readWord_blank (by decide)] at hword
    exact readWord_end (fun c hc => he.noBlank_venueText c (hx.subset hc)) hword

/-- **A part of a line is dropped** at the end of the file. -/
theorem recoverLoop_torn (he : e.WellFormed) (hn : n < e.line.length) (m : ℕ) (t : JournalTable)
    {start : CString} (hstart : start = [] ∨ start = ['\n']) :
    JournalTable.recoverLoop m (start ++ e.line.take n) t = t := by
  have hread : readRecord (start ++ e.line.take n) = readRecord (e.line.take n) := by
    rcases hstart with rfl | rfl
    · rfl
    · exact JournalTable.readRecord_newline _
  cases m with
  | zero => rfl
  | succ m =>
    rw [JournalTable.recoverLoop, hread]
    cases hrecord : readRecord (e.line.take n) with
    | none => rfl
    | some answer =>
      obtain ⟨r, rest⟩ := answer
      simp only [readRecord_take he hn hrecord, if_true]

/-- Six numerals, a word, fewer numerals, and something else. -/
theorem readRecord_shifted {pre post : List CString} {w v rest : CString} {r : JournalRecord}
    (hpre : ∀ w ∈ pre, IsNumeral w) (hlength : pre.length = 6) (hw : w ≠ []) (hblank : NoBlank w)
    (hpost : ∀ w ∈ post, IsNumeral w) (hshort : post.length < 6) {c : Char} (hc : isBlank c = false)
    (hdigit : c.isDigit = false)
    (h : readRecord (spaced (pre ++ w :: post) ++ c :: v) = some (r, rest)) :
    r.venueOrderId = w ∧ readRecord rest = none := by
  obtain ⟨ns, text, hns, hword, -⟩ := readRecord_blank h
  rw [spaced_append, List.append_assoc] at hns
  obtain rfl := readNumerals_rest hpre (hlength.trans length_recordBounds.symm) hns
  rw [readWord_blank (by decide), spaced_cons, List.append_assoc, List.cons_append,
    readWord_append hw hblank (by decide)] at hword
  obtain ⟨rfl, rfl⟩ := Prod.mk.inj (Option.some.inj hword)
  exact ⟨rfl, readRecord_eq_none (readNumerals_eq_none hpost hshort hc hdigit)⟩

/-- Too many numerals before the word: the word is read as one of them. -/
theorem readRecord_tooMany {ws : List CString} {c : Char} {v w rest : CString} {r : JournalRecord}
    (hws : ∀ w ∈ ws, IsNumeral w) (hmore : 6 < ws.length) (hless : ws.length < 13)
    (hc : isBlank c = false) (hdigit : c.isDigit = false)
    (h : readRecord (spaced ws ++ c :: v) = some (r, rest)) :
    r.venueOrderId ≠ c :: w ∧ readRecord rest = none := by
  obtain ⟨u, post, hdrop⟩ : ∃ u post, ws.drop 6 = u :: post := by
    cases hd : ws.drop 6 with
    | nil =>
      have hle := List.drop_eq_nil_iff.mp hd
      omega
    | cons u post => exact ⟨u, post, rfl⟩
  have hsplit : ws = ws.take 6 ++ u :: post := by rw [← hdrop, List.take_append_drop]
  have hpost : post.length < 6 := by
    have hle := congrArg List.length hdrop
    simp only [List.length_drop, List.length_cons] at hle
    omega
  rw [hsplit] at h hws
  have hword := hws u (by simp)
  obtain ⟨hvenue, hnone⟩ := readRecord_shifted (fun w hw => hws w (by simp [hw])) (by simp; omega)
    hword.1 hword.noBlank (fun w hw => hws w (by simp [hw])) hpost hc hdigit h
  refine ⟨?_, hnone⟩
  rw [hvenue]
  rintro rfl
  rw [hword.2 c (by simp)] at hdigit
  cases hdigit

/-- A version with another digit before it is eleven. -/
theorem readRecord_eleven {tail : List CString} {v rest : CString} {r : JournalRecord}
    (htail : ∀ w ∈ tail, IsNumeral w) (hlength : tail.length = 5) (hv : v ≠ []) (hblank : NoBlank v)
    (h : readRecord (spaced (['1', '1'] :: tail) ++ (v ++ ['\n'])) = some (r, rest)) :
    r.version ≠ 1 ∧ readRecord rest = none := by
  have hone : ∀ a ∈ ['1'], a.isDigit = true := List.forall_mem_singleton.mpr (by decide)
  have hdigits : IsNumeral ['1', '1'] := isNumeral_concat hone (by decide)
  have hall : ∀ w ∈ ['1', '1'] :: tail, IsNumeral w := List.forall_mem_cons.mpr ⟨hdigits, htail⟩
  obtain ⟨ns, text, hns, hword, hversion⟩ := readRecord_blank h
  have hsix : (['1', '1'] :: tail).length = recordBounds.length := by
    simp [hlength, recordBounds]
  obtain rfl := readNumerals_rest hall hsix hns
  rw [recordBounds, readNumerals_blank (by decide)] at hns
  obtain ⟨m, ms, text, hm, -, rfl⟩ := readNumerals_cons hns
  have heleven : readNumeral (2 ^ 32) (spaced (['1', '1'] :: tail) ++ (v ++ ['\n'])) =
      some (11, ' ' :: (spaced tail ++ (v ++ ['\n']))) := by
    rw [spaced_cons, List.append_assoc, List.cons_append]
    exact readNumeral_append (n := 11) (by norm_num) (by decide)
  rw [heleven] at hm
  obtain ⟨rfl, -⟩ := Prod.mk.inj (Option.some.inj hm)
  rw [readWord_blank (by decide), readWord_append hv hblank (by decide)] at hword
  obtain ⟨-, rfl⟩ := Prod.mk.inj (Option.some.inj hword)
  constructor
  · rw [← Option.some.inj hversion]
    decide
  · refine readRecord_eq_none ?_
    simp [recordBounds, readNumerals, readNumeral_blank (c := '\n') rfl, readNumeral_nil]

/-- **A line after a part of another one** is lost: what is read does not have its venue order id,
or is of another version, and nothing is read after it. -/
theorem readRecord_torn (he : e.WellFormed) (hpos : 0 < n) (hn : n < e.line.length) {c : Char}
    {v : CString} (hc : isBlank c = false) (hv : ∀ a ∈ c :: v, a.isDigit = false)
    (hblank : NoBlank (c :: v)) (he' : e'.venueText = c :: v) {r : JournalRecord} {rest : CString}
    (h : readRecord (e.line.take n ++ e'.line) = some (r, rest)) :
    (r.version ≠ 1 ∨ r.venueOrderId ≠ c :: v) ∧ readRecord rest = none := by
  obtain ⟨pre, x, htake, hpre, hcases⟩ := e.take_line hn
  -- the first field of the line continues the part
  obtain ⟨tail, hnumerals⟩ : ∃ tail, e'.numerals = ['1'] :: tail := ⟨_, rfl⟩
  have htail : ∀ w ∈ tail, IsNumeral w := fun w hw =>
    e'.isNumeral_of_mem w (hnumerals ▸ by simp [hw])
  have hlength : tail.length = 5 := by
    have := congrArg List.length hnumerals
    simp only [JournalEntry.length_numerals, List.length_cons] at this
    omega
  have htext : e.line.take n ++ e'.line =
      spaced (pre ++ (x ++ ['1']) :: tail) ++ c :: (v ++ ['\n']) := by
    rw [htake, e'.line_eq, hnumerals, he']
    simp
  rw [htext] at h
  have hpreNumerals : ∀ w ∈ pre, IsNumeral w := fun w hw => e.isNumeral_of_mem w (hpre.subset hw)
  have hdigit : c.isDigit = false := hv c (by simp)
  rcases hcases with ⟨hlt, hx, hfirst⟩ | ⟨rfl, hx⟩
  · by_cases hnil : pre = []
    · -- the version is eleven
      subst hnil
      have hne : x ≠ [] := by
        rintro rfl
        have hempty := congrArg List.length htake
        simp only [spaced_nil, List.append_nil, List.length_nil, List.length_take] at hempty
        omega
      obtain rfl : x = ['1'] := (hfirst rfl).eq_of_length_le (List.length_pos_of_ne_nil hne)
      obtain ⟨hversion, hnone⟩ := readRecord_eleven htail hlength (List.cons_ne_nil c v) hblank h
      exact ⟨Or.inl hversion, hnone⟩
    · -- the fields are read in each other's places
      have hpreLength : 0 < pre.length := List.length_pos_of_ne_nil hnil
      have hjoined : IsNumeral (x ++ ['1']) := isNumeral_concat hx (by decide)
      have hall : ∀ w ∈ pre ++ (x ++ ['1']) :: tail, IsNumeral w :=
        List.forall_mem_append.mpr ⟨hpreNumerals, List.forall_mem_cons.mpr ⟨hjoined, htail⟩⟩
      obtain ⟨hvenue, hnone⟩ :=
        readRecord_tooMany hall (by simp; omega) (by simp; omega) hc hdigit h
      exact ⟨Or.inr hvenue, hnone⟩
  · have hpart : NoBlank x := fun a ha => he.noBlank_venueText a (hx.subset ha)
    have hjoined : NoBlank (x ++ ['1']) :=
      List.forall_mem_append.mpr ⟨hpart, List.forall_mem_singleton.mpr (by decide)⟩
    obtain ⟨hvenue, hnone⟩ := readRecord_shifted hpreNumerals rfl (by simp) hjoined htail
      (by omega) hc hdigit h
    refine ⟨Or.inr ?_, hnone⟩
    rw [hvenue]
    intro heq
    have hmem : '1' ∈ c :: v := heq ▸ by simp
    exact absurd (hv '1' hmem) (by decide)

end Torn

end TradingInfrastructure
