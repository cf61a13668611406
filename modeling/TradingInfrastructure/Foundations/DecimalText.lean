import TradingInfrastructure.Foundations.Fields
import Mathlib.Data.Int.Log
import Mathlib.Data.List.DropRight

/-!
# Decimal texts of numbers

What the conversions of `printf` write for a rational: a fixed number of decimals (`fixedText`), or
a number of significant digits, as a plain decimal or with an exponent (`generalText`). Both round
to the nearest, ties to even, and the zeros at the end may be trimmed (`trimZeros`).

A plain decimal is read back as one number (`PlainDecimal.unique`). A text with significant digits
is plain exactly when the number that it is rounded to is not below a ten thousandth
(`plain_generalText_iff`), and a number within half a unit of the 53rd binary digit of a decimal of
at most fifteen digits is rounded to that decimal (`roundedTo_near`), as a double is.
-/

namespace TradingInfrastructure

namespace DecimalText

open Fields (IsNumeral isNumeral_toDigits)

/-! ## Rounding -/

/-- The nearest integer, and the even one of two. -/
def roundHalfEven (x : ℚ) : ℤ :=
  if x - ⌊x⌋ < 1 / 2 then ⌊x⌋
  else if 1 / 2 < x - ⌊x⌋ then ⌊x⌋ + 1
  else if ⌊x⌋ % 2 = 0 then ⌊x⌋ else ⌊x⌋ + 1

theorem abs_sub_roundHalfEven_le (x : ℚ) : |x - roundHalfEven x| ≤ 1 / 2 := by
  have hlow := Int.floor_le x
  have hhigh := Int.lt_floor_add_one x
  unfold roundHalfEven
  split_ifs with hdown hup heven
  · rw [abs_of_nonneg (by linarith)]
    exact hdown.le
  · push_cast
    rw [abs_of_nonpos (by linarith)]
    linarith
  · rw [abs_of_nonneg (by linarith)]
    exact not_lt.mp hup
  · push_cast
    rw [abs_of_nonpos (by linarith)]
    linarith [not_lt.mp hdown]

/-- What is nearer than a half is what it is rounded to. -/
theorem roundHalfEven_of_near {x : ℚ} {n : ℤ} (h : |x - n| < 1 / 2) : roundHalfEven x = n := by
  have hround := abs_sub_roundHalfEven_le x
  have hlt : |((roundHalfEven x - n : ℤ) : ℚ)| < 1 := by
    push_cast
    calc |(roundHalfEven x : ℚ) - n| = |(x - n) - (x - roundHalfEven x)| := by ring_nf
      _ ≤ |x - n| + |x - roundHalfEven x| := abs_sub _ _
      _ < 1 := by linarith
  have hzero : |roundHalfEven x - n| < 1 := by exact_mod_cast hlt
  have := Int.abs_lt_one_iff.mp hzero
  omega

theorem le_roundHalfEven {x : ℚ} {n : ℤ} (h : (n : ℚ) ≤ x) : n ≤ roundHalfEven x := by
  have hround := (abs_le.mp (abs_sub_roundHalfEven_le x)).2
  have hlt : (n : ℚ) < (roundHalfEven x : ℚ) + 1 := by linarith
  have : n < roundHalfEven x + 1 := by exact_mod_cast hlt
  omega

theorem roundHalfEven_le {x : ℚ} {n : ℤ} (h : x ≤ n) : roundHalfEven x ≤ n := by
  have hround := (abs_le.mp (abs_sub_roundHalfEven_le x)).1
  have hlt : (roundHalfEven x : ℚ) < (n : ℚ) + 1 := by linarith
  have : roundHalfEven x < n + 1 := by exact_mod_cast hlt
  omega

/-! ## Texts -/

/-- The last digits of a number, so many of them. -/
def lastDigits : ℕ → ℕ → List Char
  | 0, _ => []
  | d + 1, m => lastDigits d (m / 10) ++ [Nat.digitChar (m % 10)]

/-- The text of `m / 10 ^ d`, with `d` decimals. -/
def decimalText (m d : ℕ) : List Char :=
  Nat.toDigits 10 (m / 10 ^ d) ++ if d = 0 then [] else '.' :: lastDigits d m

/-- Without the zeros at the end, and without a point that is at the end then. -/
def trimZeros (s : List Char) : List Char :=
  let s := s.rdropWhile (· == '0')
  if s.getLast? = some '.' then s.dropLast else s

/-- The text of a nonnegative number with `d` decimals. -/
def fixedText (d : ℕ) (v : ℚ) : List Char := decimalText (roundHalfEven (v * 10 ^ d)).toNat d

/-- The `p` significant digits of a positive number, and the exponent of the first one. -/
def significant (p : ℕ) (v : ℚ) : ℕ × ℤ :=
  let e := Int.log 10 v
  let m := (roundHalfEven (v * 10 ^ ((p : ℤ) - 1 - e))).toNat
  if m = 10 ^ p then (10 ^ (p - 1), e + 1) else (m, e)

/-- A positive number, rounded to `p` significant digits. -/
def roundedTo (p : ℕ) (v : ℚ) : ℚ :=
  (significant p v).1 * 10 ^ ((significant p v).2 - ((p : ℤ) - 1))

/-- The zeros of a fraction are trimmed, those of a whole number are not. -/
def trimFraction (s : List Char) : List Char := if '.' ∈ s then trimZeros s else s

/-- An exponent, with its sign and at least two digits. -/
def exponentText (x : ℤ) : List Char :=
  'e' :: (if x < 0 then '-' else '+') ::
    ((if x.natAbs < 10 then ['0'] else []) ++ Nat.toDigits 10 x.natAbs)

/-- The text of a positive number with at most `p` significant digits. -/
def generalText (p : ℕ) (v : ℚ) : List Char :=
  let (m, x) := significant p v
  if -4 ≤ x ∧ x < p then trimFraction (decimalText m ((p : ℤ) - 1 - x).toNat)
  else trimFraction (decimalText m (p - 1)) ++ exponentText x

/-- A number with its sign. -/
def signed (text : ℚ → List Char) (v : ℚ) : List Char :=
  if v < 0 then '-' :: text (-v) else text v

/-! ## Plain decimals -/

/-- Digits with an optional fraction, that denote a number. -/
def PlainDecimal (s : List Char) (q : ℚ) : Prop :=
  ∃ whole frac, IsNumeral whole ∧ (∀ c ∈ frac, c.isDigit = true) ∧
    s = whole ++ (if frac = [] then [] else '.' :: frac) ∧
    q = Nat.ofDigitChars 10 (whole ++ frac) 0 / 10 ^ frac.length

variable {s : List Char} {q q' : ℚ} {c : Char}

/-- **A plain decimal denotes one number.** -/
theorem PlainDecimal.unique (h : PlainDecimal s q) (h' : PlainDecimal s q') : q = q' := by
  -- the whole part and the fraction can be told from the text
  have hparts : ∀ {q}, PlainDecimal s q →
      q = Nat.ofDigitChars 10 (s.takeWhile Char.isDigit ++ (s.dropWhile Char.isDigit).tail) 0 /
        10 ^ (s.dropWhile Char.isDigit).tail.length := by
    rintro q ⟨whole, frac, ⟨-, hwhole⟩, -, rfl, hq⟩
    by_cases hfrac : frac = []
    · subst hfrac
      have htake : whole.takeWhile Char.isDigit = whole := List.takeWhile_eq_self_iff.mpr hwhole
      have hdrop : whole.dropWhile Char.isDigit = [] := List.dropWhile_eq_nil_iff.mpr hwhole
      simpa [htake, hdrop] using hq
    · rw [if_neg hfrac, Fields.takeWhile_append_cons hwhole (by decide),
        Fields.dropWhile_append_cons hwhole (by decide), List.tail_cons]
      exact hq
  rw [hparts h, hparts h']

/-- Its characters are digits and a point. -/
theorem PlainDecimal.mem (h : PlainDecimal s q) (hc : c ∈ s) : c.isDigit = true ∨ c = '.' := by
  obtain ⟨whole, frac, ⟨-, hwhole⟩, hfrac, rfl, -⟩ := h
  rcases List.mem_append.mp hc with hc | hc
  · exact Or.inl (hwhole c hc)
  · split_ifs at hc
    · cases hc
    · rcases List.mem_cons.mp hc with rfl | hc
      · exact Or.inr rfl
      · exact Or.inl (hfrac c hc)

theorem PlainDecimal.not_mem (h : PlainDecimal s q) (hdigit : c.isDigit = false)
    (hpoint : c ≠ '.') :
    c ∉ s := by
  intro hc
  rcases h.mem hc with hc | hc
  · rw [hdigit] at hc
    cases hc
  · exact hpoint hc

theorem isDigit_digitChar {n : ℕ} (hn : n < 10) : (Nat.digitChar n).isDigit = true := by
  interval_cases n <;> rfl

theorem isDigit_lastDigits (d m : ℕ) : ∀ c ∈ lastDigits d m, c.isDigit = true := by
  induction d generalizing m with
  | zero => exact fun c hc => absurd hc List.not_mem_nil
  | succ d ih =>
    refine List.forall_mem_append.mpr ⟨ih (m / 10), List.forall_mem_singleton.mpr ?_⟩
    exact isDigit_digitChar (Nat.mod_lt m (by omega))

@[simp] theorem length_lastDigits (d m : ℕ) : (lastDigits d m).length = d := by
  induction d generalizing m with
  | zero => rfl
  | succ d ih => simp [lastDigits, ih]

theorem ofDigitChars_concat (s : List Char) {n : ℕ} (hn : n < 10) (init : ℕ) :
    Nat.ofDigitChars 10 (s ++ [Nat.digitChar n]) init = 10 * Nat.ofDigitChars 10 s init + n := by
  rw [Nat.ofDigitChars_append, Nat.ofDigitChars_cons_digitChar_of_lt_ten hn, Nat.ofDigitChars_nil]

theorem ofDigitChars_lastDigits (d m init : ℕ) :
    Nat.ofDigitChars 10 (lastDigits d m) init = init * 10 ^ d + m % 10 ^ d := by
  induction d generalizing m with
  | zero => simp [lastDigits, Nat.mod_one]
  | succ d ih =>
    rw [lastDigits, ofDigitChars_concat _ (Nat.mod_lt m (by omega)), ih, pow_succ', Nat.mod_mul]
    ring

/-- **The text with decimals denotes its number.** -/
theorem plain_decimalText (m d : ℕ) : PlainDecimal (decimalText m d) (m / 10 ^ d) := by
  refine ⟨Nat.toDigits 10 (m / 10 ^ d), lastDigits d m, isNumeral_toDigits _,
    isDigit_lastDigits d m, ?_, ?_⟩
  · cases d with
    | zero => rfl
    | succ d => simp [decimalText, lastDigits]
  · rw [Nat.ofDigitChars_append, Nat.ofDigitChars_ten_toDigits, ofDigitChars_lastDigits,
      length_lastDigits, Nat.div_add_mod']

/-- **Trimming does not change what a decimal with a point denotes.** -/
theorem PlainDecimal.trimZeros (h : PlainDecimal s q) (hpoint : '.' ∈ s) :
    PlainDecimal (trimZeros s) q := by
  obtain ⟨whole, frac, hwhole, hfrac, rfl, hq⟩ := h
  have hnonempty : frac ≠ [] := by
    rintro rfl
    simp only [if_true, List.append_nil] at hpoint
    exact absurd (hwhole.2 _ hpoint) (by decide)
  rw [if_neg hnonempty]
  clear hpoint hnonempty
  -- one digit of the fraction after the other, from its end
  induction frac using List.reverseRecOn generalizing q with
  | nil =>
    refine ⟨whole, [], hwhole, hfrac, ?_, hq⟩
    have hdrop : (whole ++ ['.']).rdropWhile (· == '0') = whole ++ ['.'] :=
      List.rdropWhile_concat_neg _ _ _ (by decide)
    simp [DecimalText.trimZeros, hdrop]
  | append_singleton frac c ih =>
    have hc : c.isDigit = true := hfrac c (by simp)
    have hfrac' : ∀ c ∈ frac, c.isDigit = true := fun c hc => hfrac c (by simp [hc])
    have hassoc : whole ++ '.' :: (frac ++ [c]) = (whole ++ '.' :: frac) ++ [c] := by simp
    by_cases hzero : c = '0'
    · subst hzero
      have htrim : DecimalText.trimZeros (whole ++ '.' :: (frac ++ ['0'])) =
          DecimalText.trimZeros (whole ++ '.' :: frac) := by
        rw [hassoc, DecimalText.trimZeros, List.rdropWhile_concat_pos _ _ _ (by decide)]
        rfl
      rw [htrim]
      refine ih hfrac' (hq.trans ?_)
      have hten : Nat.ofDigitChars 10 (whole ++ (frac ++ ['0'])) 0 =
          10 * Nat.ofDigitChars 10 (whole ++ frac) 0 := by
        rw [← List.append_assoc]
        exact ofDigitChars_concat _ (by decide : 0 < 10) 0
      rw [hten, List.length_append, List.length_singleton, pow_succ]
      push_cast
      field_simp
    · have htrim : DecimalText.trimZeros (whole ++ '.' :: (frac ++ [c])) =
          whole ++ '.' :: (frac ++ [c]) := by
        have hpoint : c ≠ '.' := by
          rintro rfl
          exact absurd hc (by decide)
        rw [hassoc, DecimalText.trimZeros, List.rdropWhile_concat_neg _ _ _ (by simpa using hzero)]
        simp only [List.getLast?_concat, Option.some.injEq, hpoint, if_false]
      rw [htrim]
      exact ⟨whole, frac ++ [c], hwhole, hfrac, by rw [if_neg (List.concat_ne_nil c frac)], hq⟩

theorem PlainDecimal.trimFraction (h : PlainDecimal s q) : PlainDecimal (trimFraction s) q := by
  unfold DecimalText.trimFraction
  split_ifs with hpoint
  · exact h.trimZeros hpoint
  · exact h

theorem point_mem_decimalText {m d : ℕ} (hd : 0 < d) : '.' ∈ decimalText m d := by
  simp [decimalText, hd.ne']

/-! ## Significant digits -/

variable {p n : ℕ} {v : ℚ}

/-- **The significant digits** are as many as were asked for. -/
theorem significant_bounds (hp : 0 < p) (hv : 0 < v) :
    10 ^ (p - 1) ≤ (significant p v).1 ∧ (significant p v).1 < 10 ^ p := by
  have hpow : (0 : ℚ) < 10 ^ ((p : ℤ) - 1 - Int.log 10 v) := by positivity
  have hlow : ((10 : ℤ) ^ (p - 1) : ℤ) ≤
      roundHalfEven (v * 10 ^ ((p : ℤ) - 1 - Int.log 10 v)) := by
    refine le_roundHalfEven ?_
    have hlog := Int.zpow_log_le_self (b := 10) (by norm_num) hv
    calc (((10 : ℤ) ^ (p - 1) : ℤ) : ℚ) = 10 ^ (Int.log 10 v) *
      10 ^ ((p : ℤ) - 1 - Int.log 10 v) := by
          rw [← zpow_add₀ (by norm_num)]
          push_cast
          rw [← zpow_natCast]
          congr 1
          omega
      _ ≤ v * 10 ^ ((p : ℤ) - 1 - Int.log 10 v) := by
          exact mul_le_mul_of_nonneg_right hlog hpow.le
  have hhigh : roundHalfEven (v * 10 ^ ((p : ℤ) - 1 - Int.log 10 v)) ≤ ((10 : ℤ) ^ p : ℤ) := by
    refine roundHalfEven_le ?_
    have hlog := Int.lt_zpow_succ_log_self (b := 10) (by norm_num) v
    calc v * 10 ^ ((p : ℤ) - 1 - Int.log 10 v) ≤
          10 ^ (Int.log 10 v + 1) * 10 ^ ((p : ℤ) - 1 - Int.log 10 v) :=
          mul_le_mul_of_nonneg_right hlog.le hpow.le
      _ = (((10 : ℤ) ^ p : ℤ) : ℚ) := by
          rw [← zpow_add₀ (by norm_num)]
          push_cast
          rw [← zpow_natCast]
          congr 1
          omega
  have hcast : ((roundHalfEven (v * 10 ^ ((p : ℤ) - 1 - Int.log 10 v))).toNat : ℤ) =
      roundHalfEven (v * 10 ^ ((p : ℤ) - 1 - Int.log 10 v)) :=
    Int.toNat_of_nonneg (le_trans (by positivity) hlow)
  have hstep : 10 ^ (p - 1) < 10 ^ p := Nat.pow_lt_pow_right (by norm_num) (by omega)
  unfold significant
  dsimp only
  split_ifs with hcarry
  · exact ⟨le_rfl, hstep⟩
  · refine ⟨by exact_mod_cast hcast ▸ hlow, lt_of_le_of_ne ?_ hcarry⟩
    exact_mod_cast hcast ▸ hhigh

/-- The exponent is that of the number that is rounded to. -/
theorem roundedTo_bounds (hp : 0 < p) (hv : 0 < v) :
    (10 : ℚ) ^ (significant p v).2 ≤ roundedTo p v ∧
      roundedTo p v < (10 : ℚ) ^ ((significant p v).2 + 1) := by
  obtain ⟨hlow, hhigh⟩ := significant_bounds hp hv
  have hpow : (0 : ℚ) < 10 ^ ((significant p v).2 - ((p : ℤ) - 1)) := by positivity
  have hlow' : (10 : ℚ) ^ (p - 1) ≤ (significant p v).1 := by exact_mod_cast hlow
  have hhigh' : ((significant p v).1 : ℚ) < 10 ^ p := by exact_mod_cast hhigh
  constructor
  · calc (10 : ℚ) ^ (significant p v).2 =
          10 ^ (p - 1) * 10 ^ ((significant p v).2 - ((p : ℤ) - 1)) := by
          rw [← zpow_natCast, ← zpow_add₀ (by norm_num)]
          congr 1
          omega
      _ ≤ roundedTo p v := mul_le_mul_of_nonneg_right hlow' hpow.le
  · calc roundedTo p v < 10 ^ p * 10 ^ ((significant p v).2 - ((p : ℤ) - 1)) :=
          mul_lt_mul_of_pos_right hhigh' hpow
      _ = (10 : ℚ) ^ ((significant p v).2 + 1) := by
          rw [← zpow_natCast, ← zpow_add₀ (by norm_num)]
          congr 1
          omega

/-- **When the text with significant digits is plain**: it denotes a number below `10 ^ p` exactly
when that is what is rounded to, and not below a ten thousandth. -/
theorem plain_generalText_iff (hp : 0 < p) (hv : 0 < v) (hq : q < 10 ^ p) :
    PlainDecimal (generalText p v) q ↔ roundedTo p v = q ∧ 1 / 10 ^ 4 ≤ q := by
  obtain ⟨hlow, hhigh⟩ := roundedTo_bounds hp hv
  by_cases hrange : -4 ≤ (significant p v).2 ∧ (significant p v).2 < p
  · have hplain : PlainDecimal (generalText p v) (roundedTo p v) := by
      have htext : generalText p v = trimFraction (decimalText (significant p v).1
          ((p : ℤ) - 1 - (significant p v).2).toNat) := if_pos hrange
      have hvalue : roundedTo p v = ((significant p v).1 : ℚ) /
          10 ^ ((p : ℤ) - 1 - (significant p v).2).toNat := by
        rw [roundedTo, ← zpow_natCast, Int.toNat_of_nonneg (by omega), div_eq_mul_inv, ← zpow_neg]
        congr 2
        omega
      rw [htext, hvalue]
      exact (plain_decimalText _ _).trimFraction
    have hpos : (1 : ℚ) / 10 ^ 4 ≤ 10 ^ (significant p v).2 := by
      have hexponent : (1 : ℚ) / 10 ^ 4 = 10 ^ (-4 : ℤ) := by norm_num
      rw [hexponent]
      exact zpow_le_zpow_right₀ (by norm_num) hrange.1
    constructor
    · intro h
      obtain rfl := hplain.unique h
      exact ⟨rfl, hpos.trans hlow⟩
    · rintro ⟨rfl, -⟩
      exact hplain
  · -- the text has an exponent
    refine iff_of_false (fun h => ?_) ?_
    · have hmem : 'e' ∈ generalText p v := by
        have htext : generalText p v = trimFraction (decimalText (significant p v).1 (p - 1)) ++
            exponentText (significant p v).2 := if_neg hrange
        simp [htext, exponentText]
      exact h.not_mem (by decide) (by decide) hmem
    · rintro ⟨rfl, hsmall⟩
      refine hrange ⟨?_, ?_⟩
      · have hlt : (10 : ℚ) ^ (-4 : ℤ) < 10 ^ ((significant p v).2 + 1) := by
          refine lt_of_le_of_lt ?_ hhigh
          norm_num at hsmall ⊢
          exact hsmall
        have := (zpow_lt_zpow_iff_right₀ (by norm_num : (1 : ℚ) < 10)).mp hlt
        omega
      · have hlt : (10 : ℚ) ^ (significant p v).2 < 10 ^ (p : ℤ) := by
          rw [zpow_natCast]
          exact lt_of_le_of_lt hlow hq
        exact (zpow_lt_zpow_iff_right₀ (by norm_num : (1 : ℚ) < 10)).mp hlt

/-! ## Doubles -/

/-- The number is within half a unit of the 53rd binary digit of another one, as the double of a
decimal is. -/
def NearDouble (v q : ℚ) : Prop := |v - q| ≤ q / 2 ^ 53

instance (v q : ℚ) : Decidable (NearDouble v q) := inferInstanceAs (Decidable (_ ≤ _))

theorem NearDouble.pos (h : NearDouble v q) (hq : 0 < q) : 0 < v := by
  have := (abs_le.mp h).1
  have : q / 2 ^ 53 < q := div_lt_self hq (by norm_num)
  linarith

/-- Scaled to a whole number below `2 ^ 52`, it is rounded to that number. -/
theorem NearDouble.round {scale : ℚ} {k : ℕ} (h : NearDouble v q) (hscale : 0 < scale)
    (hq : q * scale = k) (hk : k < 2 ^ 52) : (roundHalfEven (v * scale)).toNat = k := by
  have hround : roundHalfEven (v * scale) = (k : ℤ) := by
    refine roundHalfEven_of_near ?_
    have hk' : (k : ℚ) < 2 ^ 52 := by exact_mod_cast hk
    calc |v * scale - ((k : ℤ) : ℚ)| = |v - q| * scale := by
          rw [Int.cast_natCast, ← hq, ← sub_mul, abs_mul, abs_of_pos hscale]
      _ ≤ q / 2 ^ 53 * scale := mul_le_mul_of_nonneg_right h hscale.le
      _ = k / 2 ^ 53 := by rw [← hq]; ring
      _ < 1 / 2 := by
          rw [div_lt_iff₀ (by norm_num)]
          linarith
  rw [hround, Int.toNat_natCast]

/-- The digits of a number, when its exponent and the whole number that it is rounded to are
known. -/
theorem significant_of_near {e : ℤ} {m : ℕ} (h : NearDouble v q) (hlow : (10 : ℚ) ^ e ≤ v)
    (hhigh : v < (10 : ℚ) ^ (e + 1)) (hm : q * 10 ^ ((p : ℤ) - 1 - e) = m) (hlt : m < 2 ^ 52) :
    significant p v = if m = 10 ^ p then (10 ^ (p - 1), e + 1) else (m, e) := by
  have hv : 0 < v := lt_of_lt_of_le (by positivity) hlow
  have hle : e ≤ Int.log 10 v := (Int.zpow_le_iff_le_log (by norm_num) hv).mp hlow
  have hlt' : Int.log 10 v < e + 1 := (Int.lt_zpow_iff_log_lt (by norm_num) hv).mp hhigh
  have hlog : Int.log 10 v = e := by omega
  have hround := h.round (by positivity : (0 : ℚ) < 10 ^ ((p : ℤ) - 1 - e)) hm hlt
  simp only [significant, hlog, hround]

/-- **A double is rounded to its decimal** of at most fifteen digits. -/
theorem roundedTo_near {k : ℤ} (hn : 0 < n) (hlt : n < 10 ^ 15) (h : NearDouble v (n * 10 ^ k)) :
    roundedTo 15 v = n * 10 ^ k := by
  have hten : (0 : ℚ) < 10 ^ k := by positivity
  obtain ⟨hbelow, habove⟩ := abs_le.mp h
  have hn53 : (n : ℚ) < 2 ^ 53 := by
    have : (n : ℚ) < 10 ^ 15 := by exact_mod_cast hlt
    exact this.trans (by norm_num)
  have hsmall : (n : ℚ) * 10 ^ k / 2 ^ 53 < 10 ^ k := by
    rw [div_lt_iff₀ (by norm_num), mul_comm]
    exact mul_lt_mul_of_pos_left hn53 hten
  -- the digits of the decimal
  obtain ⟨d, hd, hdigits⟩ : ∃ d, d ≤ 14 ∧ 10 ^ d ≤ n ∧ n < 10 ^ (d + 1) := by
    refine ⟨Nat.log 10 n, ?_, Nat.pow_log_le_self 10 hn.ne',
      Nat.lt_pow_succ_log_self (by norm_num) n⟩
    exact Nat.lt_succ_iff.mp ((Nat.log_lt_iff_lt_pow (by norm_num) hn.ne').mpr hlt)
  obtain ⟨hdlow, hdhigh⟩ := hdigits
  have hsplit : ∀ a : ℕ, (10 : ℚ) ^ ((a : ℤ) + k) = ((10 ^ a : ℕ) : ℚ) * 10 ^ k := by
    intro a
    rw [zpow_add₀ (by norm_num), zpow_natCast]
    push_cast
    rfl
  by_cases hdecade : (10 : ℚ) ^ ((d : ℤ) + k) ≤ v
  · have hhigh : v < (10 : ℚ) ^ ((d : ℤ) + k + 1) := by
      have hnext : (d : ℤ) + k + 1 = ((d + 1 : ℕ) : ℤ) + k := by push_cast; ring
      have hle : (n : ℚ) + 1 ≤ ((10 ^ (d + 1) : ℕ) : ℚ) := by exact_mod_cast hdhigh
      rw [hnext, hsplit]
      calc v < (n + 1) * 10 ^ k := by linarith
        _ ≤ ((10 ^ (d + 1) : ℕ) : ℚ) * 10 ^ k := mul_le_mul_of_nonneg_right hle hten.le
    have hbound : n * 10 ^ (14 - d) < 10 ^ 15 := by
      calc n * 10 ^ (14 - d) < 10 ^ (d + 1) * 10 ^ (14 - d) :=
            Nat.mul_lt_mul_of_pos_right hdhigh (by positivity)
        _ = 10 ^ 15 := by rw [← pow_add]; congr 1; omega
    have hm : (n : ℚ) * 10 ^ k * 10 ^ (((15 : ℕ) : ℤ) - 1 - ((d : ℤ) + k)) =
        ((n * 10 ^ (14 - d) : ℕ) : ℚ) := by
      push_cast
      rw [mul_assoc, ← zpow_add₀ (by norm_num), ← zpow_natCast]
      congr 2
      omega
    have hsignificant := significant_of_near h hdecade hhigh hm (hbound.trans (by norm_num))
    rw [if_neg hbound.ne] at hsignificant
    rw [roundedTo, hsignificant, ← hm, mul_assoc, ← zpow_add₀ (by norm_num)]
    norm_num
  · -- the double is just below a power of ten
    have hlt' := not_le.mp hdecade
    rw [hsplit] at hlt'
    have hpower : n = 10 ^ d := by
      refine le_antisymm (not_lt.mp fun hmore => ?_) hdlow
      have hmore' : ((10 ^ d : ℕ) : ℚ) + 1 ≤ n := by exact_mod_cast hmore
      have := mul_le_mul_of_nonneg_right hmore' hten.le
      linarith
    subst hpower
    have hlow : (10 : ℚ) ^ ((d : ℤ) + k - 1) ≤ v := by
      have htenth : (10 : ℚ) ^ ((d : ℤ) + k - 1) = ((10 ^ d : ℕ) : ℚ) * 10 ^ k / 10 := by
        rw [zpow_sub₀ (by norm_num), hsplit, zpow_one]
      have hpos : (0 : ℚ) < ((10 ^ d : ℕ) : ℚ) * 10 ^ k := by positivity
      rw [htenth]
      linarith
    have hm : ((10 ^ d : ℕ) : ℚ) * 10 ^ k * 10 ^ (((15 : ℕ) : ℤ) - 1 - ((d : ℤ) + k - 1)) =
        ((10 ^ 15 : ℕ) : ℚ) := by
      have hexponent : (d : ℤ) + k + (((15 : ℕ) : ℤ) - 1 - ((d : ℤ) + k - 1)) = 15 := by
        push_cast
        ring
      rw [← hsplit, ← zpow_add₀ (by norm_num), hexponent]
      norm_num
    have hsignificant := significant_of_near h hlow (by rw [sub_add_cancel, hsplit]; exact hlt') hm
      (by norm_num)
    rw [if_pos rfl, sub_add_cancel] at hsignificant
    have hfirst : ((10 ^ (15 - 1) : ℕ) : ℚ) = 10 ^ (14 : ℤ) := by norm_num
    rw [roundedTo, hsignificant, ← hsplit, hfirst, ← zpow_add₀ (by norm_num)]
    congr 1
    push_cast
    ring

/-- A plain decimal of `m / 10 ^ d` denotes what is just that. -/
theorem PlainDecimal.iff {d m : ℕ} (h : PlainDecimal s (m / 10 ^ d)) :
    PlainDecimal s q ↔ q * 10 ^ d = m := by
  constructor
  · intro h'
    rw [h'.unique h]
    field_simp
  · intro hq
    have hvalue : q = m / 10 ^ d := by
      rw [← hq]
      field_simp
    exact hvalue ▸ h

/-! ## The parts of a text -/

variable {a b w x : List Char}

/-- A text is told from the first delimiter on. -/
theorem append_cons_inj_first (hw : c ∉ w) (hx : c ∉ x) (h : w ++ c :: a = x ++ c :: b) :
    w = x ∧ a = b := by
  have hother : ∀ {w : List Char}, c ∉ w → ∀ d ∈ w, (d != c) = true := fun hw d hd =>
    bne_iff_ne.mpr fun hdc => hw (hdc ▸ hd)
  have htake := congrArg (List.takeWhile (· != c)) h
  have hdrop := congrArg (List.dropWhile (· != c)) h
  rw [Fields.takeWhile_append_cons (hother hw) (by simp),
    Fields.takeWhile_append_cons (hother hx) (by simp)] at htake
  rw [Fields.dropWhile_append_cons (hother hw) (by simp),
    Fields.dropWhile_append_cons (hother hx) (by simp)] at hdrop
  exact ⟨htake, (List.cons.inj hdrop).2⟩

/-- A text is told up to the last delimiter. -/
theorem append_cons_inj_last (hw : c ∉ w) (hx : c ∉ x) (h : a ++ c :: w = b ++ c :: x) :
    a = b ∧ w = x := by
  have hreverse : w.reverse ++ c :: a.reverse = x.reverse ++ c :: b.reverse := by
    have := congrArg List.reverse h
    simpa using this
  obtain ⟨htail, hhead⟩ := append_cons_inj_first (by simpa using hw) (by simpa using hx) hreverse
  exact ⟨List.reverse_injective hhead, List.reverse_injective htail⟩

end DecimalText

end TradingInfrastructure
