import Mathlib.Data.List.TakeWhile
import Mathlib.Tactic

/-!
# Fields of a text

A text of fields with blanks between them, read from the left as a stream does: `readWord` and
`readNumeral` skip the blanks and take the field that follows, and give back the text after it.

A word without blanks and a numeral in decimal digits are read back as they were written, whatever
stands after the blank that ends them (`readWord_append`, `readNumeral_append`).

A text may be cut off at any character. The cut leaves whole fields and a part of the next one
(`take_spaced`), and what is appended afterwards continues that part. `readNumerals` reads some
numerals in a row; the lemmas say what it leaves of a text with enough numerals, with too few of
them, and of one that ends in a part of a numeral.
-/

namespace TradingInfrastructure

namespace Fields

/-- The characters that end a field. -/
def isBlank (c : Char) : Bool :=
  c == ' ' || c == '\t' || c == '\n' || c == '\x0b' || c == '\x0c' || c == '\r'

/-- No blank stands in the word. -/
def NoBlank (w : List Char) : Prop := ∀ c ∈ w, isBlank c = false

instance (w : List Char) : Decidable (NoBlank w) := List.decidableBAll _ w

/-- The next word, and what follows it. -/
def readWord (text : List Char) : Option (List Char × List Char) :=
  let text := text.dropWhile isBlank
  let word := text.takeWhile fun c => !isBlank c
  if word = [] then none else some (word, text.dropWhile fun c => !isBlank c)

/-- The next decimal numeral, if it is below the bound, and what follows it. -/
def readNumeral (bound : ℕ) (text : List Char) : Option (ℕ × List Char) :=
  let text := text.dropWhile isBlank
  let digits := text.takeWhile Char.isDigit
  if digits = [] ∨ bound ≤ Nat.ofDigitChars 10 digits 0 then none
  else some (Nat.ofDigitChars 10 digits 0, text.dropWhile Char.isDigit)

variable {p : Char → Bool} {w rest : List Char} {c : Char}

/-- What a predicate takes of a text, when the first character that fails it is known. -/
theorem takeWhile_append_cons (hw : ∀ a ∈ w, p a = true) (hc : p c = false) :
    (w ++ c :: rest).takeWhile p = w := by
  rw [List.takeWhile_append_of_pos hw, List.takeWhile_cons_of_neg (by simp [hc]), List.append_nil]

theorem dropWhile_append_cons (hw : ∀ a ∈ w, p a = true) (hc : p c = false) :
    (w ++ c :: rest).dropWhile p = c :: rest := by
  rw [List.dropWhile_append_of_pos hw, List.dropWhile_cons_of_neg (by simp [hc])]

/-- A blank before a field is skipped. -/
theorem readWord_blank (hc : isBlank c = true) : readWord (c :: rest) = readWord rest := by
  simp only [readWord, List.dropWhile_cons_of_pos hc]

theorem readNumeral_blank {bound : ℕ} (hc : isBlank c = true) :
    readNumeral bound (c :: rest) = readNumeral bound rest := by
  simp only [readNumeral, List.dropWhile_cons_of_pos hc]

theorem isBlank_of_isDigit (h : c.isDigit = true) : isBlank c = false := by
  by_contra hb
  rw [Bool.not_eq_false] at hb
  simp only [isBlank, Bool.or_eq_true, beq_iff_eq] at hb
  rcases hb with ((((rfl | rfl) | rfl) | rfl) | rfl) | rfl <;> exact absurd h (by decide)

theorem isDigit_of_isBlank (h : isBlank c = true) : c.isDigit = false := by
  by_contra hd
  rw [Bool.not_eq_false] at hd
  rw [isBlank_of_isDigit hd] at h
  cases h

/-- A text that starts with something other than a blank has nothing to skip. -/
theorem dropWhile_isBlank_append (hne : w ≠ []) (hw : NoBlank w) :
    (w ++ rest).dropWhile isBlank = w ++ rest := by
  cases w with
  | nil => exact absurd rfl hne
  | cons a w =>
    rw [List.cons_append, List.dropWhile_cons_of_neg]
    simp [hw a (by simp)]

/-- **A word is read back.** -/
theorem readWord_append (hne : w ≠ []) (hw : NoBlank w) (hc : isBlank c = true) :
    readWord (w ++ c :: rest) = some (w, c :: rest) := by
  have hword : ∀ a ∈ w, (!isBlank a) = true := fun a ha => by simp [hw a ha]
  have hblank : (!isBlank c) = false := by simp [hc]
  simp only [readWord, dropWhile_isBlank_append hne hw, takeWhile_append_cons hword hblank,
    dropWhile_append_cons hword hblank, hne, if_false]

theorem noBlank_toDigits (n : ℕ) : NoBlank (Nat.toDigits 10 n) := fun _ ha =>
  isBlank_of_isDigit (Nat.isDigit_of_mem_toDigits (by decide) le_rfl ha)

/-- **A numeral below the bound is read back.** -/
theorem readNumeral_append {bound n : ℕ} (hn : n < bound) (hc : isBlank c = true) :
    readNumeral bound (Nat.toDigits 10 n ++ c :: rest) = some (n, c :: rest) := by
  have hdigits : ∀ a ∈ Nat.toDigits 10 n, a.isDigit = true := fun a ha =>
    Nat.isDigit_of_mem_toDigits (by decide) le_rfl ha
  have hcd := isDigit_of_isBlank hc
  simp only [readNumeral, dropWhile_isBlank_append Nat.toDigits_ne_nil (noBlank_toDigits n),
    takeWhile_append_cons hdigits hcd, dropWhile_append_cons hdigits hcd,
    Nat.ofDigitChars_ten_toDigits, Nat.toDigits_ne_nil, false_or, not_le.mpr hn, if_false]

/-! ## Texts that are cut off -/

section Torn

/-- Words with a blank after each of them. -/
def spaced (ws : List (List Char)) : List Char := ws.flatMap (· ++ [' '])

@[simp] theorem spaced_nil : spaced [] = [] := rfl

@[simp] theorem spaced_cons (w : List Char) (ws : List (List Char)) :
    spaced (w :: ws) = w ++ ' ' :: spaced ws := by
  simp [spaced]

@[simp] theorem spaced_append (ws ws' : List (List Char)) :
    spaced (ws ++ ws') = spaced ws ++ spaced ws' := by
  simp [spaced]

/-- A numeral in decimal digits. -/
def IsNumeral (w : List Char) : Prop := w ≠ [] ∧ ∀ c ∈ w, c.isDigit = true

/-- Digits with one more after them. -/
theorem isNumeral_concat {w : List Char} (hw : ∀ c ∈ w, c.isDigit = true) {c : Char}
    (hc : c.isDigit = true) : IsNumeral (w ++ [c]) :=
  ⟨List.concat_ne_nil c w, List.forall_mem_append.mpr ⟨hw, List.forall_mem_singleton.mpr hc⟩⟩

theorem isNumeral_toDigits (n : ℕ) : IsNumeral (Nat.toDigits 10 n) :=
  ⟨Nat.toDigits_ne_nil, fun _ hc => Nat.isDigit_of_mem_toDigits (by decide) le_rfl hc⟩

/-- Numerals below their bounds, and what follows them. -/
def readNumerals : List ℕ → List Char → Option (List ℕ × List Char)
  | [], text => some ([], text)
  | b :: bs, text => do
    let (n, text) ← readNumeral b text
    let (ns, text) ← readNumerals bs text
    return (n :: ns, text)

variable {tail : List Char} {b : ℕ} {bs : List ℕ} {ws : List (List Char)}

theorem IsNumeral.noBlank (h : IsNumeral w) : NoBlank w := fun c hc => isBlank_of_isDigit (h.2 c hc)

/-- A blank before a text is skipped by whatever is read first. -/
theorem readNumerals_blank {text : List Char} (hc : isBlank c = true) :
    readNumerals (b :: bs) (c :: text) = readNumerals (b :: bs) text := by
  simp only [readNumerals, readNumeral_blank hc]

/-- A numeral that is read leaves what stands after it. -/
theorem readNumeral_rest (hw : IsNumeral w) (hc : c.isDigit = false) {n : ℕ} {text : List Char}
    (h : readNumeral b (w ++ c :: rest) = some (n, text)) : text = c :: rest := by
  simp only [readNumeral, dropWhile_isBlank_append hw.1 hw.noBlank, takeWhile_append_cons hw.2 hc,
    dropWhile_append_cons hw.2 hc] at h
  split at h
  · cases h
  · exact (Prod.mk.inj (Option.some.inj h)).2.symm

/-- Nothing is read at a character that is neither a blank nor a digit, or at the end. -/
theorem readNumeral_of_not_isDigit (hb : isBlank c = false) (hc : c.isDigit = false) :
    readNumeral b (c :: rest) = none := by
  simp [readNumeral, hb, hc]

theorem readNumeral_nil : readNumeral b [] = none := by
  simp [readNumeral]

/-- A part of a numeral at the end of the text is read to the end. -/
theorem readNumeral_end (hw : ∀ c ∈ w, c.isDigit = true) {n : ℕ} {text : List Char}
    (h : readNumeral b w = some (n, text)) : text = [] := by
  have hskip : w.dropWhile isBlank = w := by
    rw [List.dropWhile_eq_self_iff]
    intro hpos hblank
    rw [isBlank_of_isDigit (hw _ (List.getElem_mem hpos))] at hblank
    cases hblank
  simp only [readNumeral, hskip] at h
  split at h
  · cases h
  · have hrest := (Prod.mk.inj (Option.some.inj h)).2
    rw [← hrest, List.dropWhile_eq_nil_iff]
    exact hw

/-- One more numeral. -/
theorem readNumerals_cons {ns : List ℕ} {text : List Char}
    (h : readNumerals (b :: bs) tail = some (ns, text)) :
    ∃ n ms text', readNumeral b tail = some (n, text') ∧ readNumerals bs text' = some (ms, text) ∧
      ns = n :: ms := by
  simp only [readNumerals, Option.bind_eq_bind, Option.bind_eq_some_iff, Option.pure_def,
    Option.some.injEq, Prod.mk.injEq] at h
  obtain ⟨⟨n, text'⟩, hn, ⟨ms, text''⟩, hms, hns, htext⟩ := h
  exact ⟨n, ms, text', hn, htext ▸ hms, hns.symm⟩

/-- **Enough numerals**: what follows them is left. -/
theorem readNumerals_rest (hw : ∀ w ∈ ws, IsNumeral w) (hlen : ws.length = bs.length) {ns : List ℕ}
    {text : List Char} (h : readNumerals bs (' ' :: (spaced ws ++ tail)) = some (ns, text)) :
    text = ' ' :: tail := by
  induction ws generalizing bs ns with
  | nil =>
    obtain rfl := List.eq_nil_of_length_eq_zero hlen.symm
    exact (Prod.mk.inj (Option.some.inj h)).2.symm
  | cons w ws ih =>
    cases bs with
    | nil => cases hlen
    | cons b bs =>
      rw [readNumerals_blank (by decide)] at h
      obtain ⟨n, ms, text', hn, hms, -⟩ := readNumerals_cons h
      rw [spaced_cons, List.append_assoc, List.cons_append] at hn
      obtain rfl := readNumeral_rest (hw w (by simp)) (by decide) hn
      exact ih (fun w hw' => hw w (by simp [hw'])) (Nat.succ.inj hlen) hms

/-- **Too few numerals** before something else: nothing is read. -/
theorem readNumerals_eq_none (hw : ∀ w ∈ ws, IsNumeral w) (hlen : ws.length < bs.length)
    (hb : isBlank c = false) (hc : c.isDigit = false) :
    readNumerals bs (' ' :: (spaced ws ++ c :: tail)) = none := by
  rw [Option.eq_none_iff_forall_not_mem]
  intro answer h
  obtain ⟨ns, text⟩ := answer
  rw [Option.mem_def] at h
  induction ws generalizing bs ns with
  | nil =>
    cases bs with
    | nil => cases hlen
    | cons b bs =>
      rw [readNumerals_blank (by decide)] at h
      obtain ⟨n, ms, text', hn, -⟩ := readNumerals_cons h
      rw [spaced_nil, List.nil_append, readNumeral_of_not_isDigit hb hc] at hn
      cases hn
  | cons w ws ih =>
    cases bs with
    | nil => cases hlen
    | cons b bs =>
      rw [readNumerals_blank (by decide)] at h
      obtain ⟨n, ms, text', hn, hms, -⟩ := readNumerals_cons h
      rw [spaced_cons, List.append_assoc, List.cons_append] at hn
      obtain rfl := readNumeral_rest (hw w (by simp)) (by decide) hn
      exact ih (fun w hw' => hw w (by simp [hw'])) (Nat.lt_of_succ_lt_succ hlen) ms hms

/-- **Too few numerals** before the end, with a part of one more: everything is read, if
anything. -/
theorem readNumerals_end (hw : ∀ w ∈ ws, IsNumeral w) (hlen : ws.length < bs.length)
    (htail : ∀ c ∈ tail, c.isDigit = true) {ns : List ℕ} {text : List Char}
    (h : readNumerals bs (' ' :: (spaced ws ++ tail)) = some (ns, text)) : text = [] := by
  induction ws generalizing bs ns with
  | nil =>
    cases bs with
    | nil => cases hlen
    | cons b bs =>
      rw [readNumerals_blank (by decide)] at h
      obtain ⟨n, ms, text', hn, hms, -⟩ := readNumerals_cons h
      obtain rfl := readNumeral_end htail hn
      cases bs with
      | nil => exact (Prod.mk.inj (Option.some.inj hms)).2.symm
      | cons b bs =>
        obtain ⟨n, ms, text', hn, -⟩ := readNumerals_cons hms
        rw [readNumeral_nil] at hn
        cases hn
  | cons w ws ih =>
    cases bs with
    | nil => cases hlen
    | cons b bs =>
      rw [readNumerals_blank (by decide)] at h
      obtain ⟨n, ms, text', hn, hms, -⟩ := readNumerals_cons h
      rw [spaced_cons, List.append_assoc, List.cons_append] at hn
      obtain rfl := readNumeral_rest (hw w (by simp)) (by decide) hn
      exact ih (fun w hw' => hw w (by simp [hw'])) (Nat.lt_of_succ_lt_succ hlen) hms

/-- **Where a text of fields is cut**: in one of its words, or in what follows them. -/
theorem take_spaced (ws : List (List Char)) (tail : List Char) (n : ℕ) :
    (∃ pre w post x, ws = pre ++ w :: post ∧ x <+: w ∧
      (spaced ws ++ tail).take n = spaced pre ++ x) ∨
    ∃ m, n = (spaced ws).length + m ∧ (spaced ws ++ tail).take n = spaced ws ++ tail.take m := by
  induction ws generalizing n with
  | nil => exact Or.inr ⟨n, by simp, rfl⟩
  | cons w ws ih =>
    by_cases hn : n ≤ w.length
    · refine Or.inl ⟨[], w, ws, w.take n, rfl, List.take_prefix n w, ?_⟩
      rw [spaced_cons, List.append_assoc, List.take_append_of_le_length hn]
      rfl
    · obtain ⟨m, rfl⟩ : ∃ m, n = (w ++ [' ']).length + m :=
        Nat.exists_eq_add_of_le (by simpa using not_le.mp hn)
      have hcut : (spaced (w :: ws) ++ tail).take ((w ++ [' ']).length + m) =
          (w ++ [' ']) ++ (spaced ws ++ tail).take m := by
        rw [← List.take_length_add_append]
        simp
      rw [hcut]
      rcases ih m with ⟨pre, w', post, x, rfl, hx, htake⟩ | ⟨m', rfl, htake⟩
      · exact Or.inl ⟨w :: pre, w', post, x, rfl, hx, by rw [htake]; simp⟩
      · exact Or.inr ⟨m', by simp; omega, by rw [htake]; simp⟩

end Torn

end Fields

end TradingInfrastructure
