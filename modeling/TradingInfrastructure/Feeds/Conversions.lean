import TradingInfrastructure.Feeds.Json

/-!
# What the conversions accept

A computation `Returns` when no exception escapes from it. Each conversion of a message gets the
condition under which it does, in terms of the value or the text that it is given, and a computation
in parts returns when each part does on what the parts before it have left (`returns_bind`).
-/

namespace TradingInfrastructure

/-- No exception escapes. -/
def Returns {α : Type} (x : Except CxxException α) : Prop := ∃ a, x = .ok a

section

variable {α β : Type}

@[simp] theorem returns_ok (a : α) : Returns (.ok a : Except CxxException α) := ⟨a, rfl⟩

@[simp] theorem returns_pure (a : α) : Returns (pure a : Except CxxException α) := ⟨a, rfl⟩

@[simp] theorem not_returns_error (e : CxxException) :
    ¬ Returns (.error e : Except CxxException α) := by
  rintro ⟨a, h⟩
  cases h

theorem returns_bind {x : Except CxxException α} {f : α → Except CxxException β} :
    Returns (x >>= f) ↔ ∃ a, x = .ok a ∧ Returns (f a) := by
  constructor
  · rintro ⟨b, h⟩
    obtain ⟨a, ha, hb⟩ := of_bind_eq_ok h
    exact ⟨a, ha, b, hb⟩
  · rintro ⟨a, rfl, h⟩
    exact h

/-- The rest does not depend on the value. -/
theorem returns_bind_of_forall {x : Except CxxException α}
    {f : α → Except CxxException β} {P : Prop}
    (h : ∀ a, x = .ok a → (Returns (f a) ↔ P)) : Returns (x >>= f) ↔ Returns x ∧ P := by
  rw [returns_bind]
  constructor
  · rintro ⟨a, hx, hf⟩
    exact ⟨⟨a, hx⟩, (h a hx).mp hf⟩
  · rintro ⟨⟨a, hx⟩, hp⟩
    exact ⟨a, hx, (h a hx).mpr hp⟩

/-- The rest always returns. -/
theorem returns_bind_of_total {x : Except CxxException α} {f : α → Except CxxException β}
    (h : ∀ a, Returns (f a)) : Returns (x >>= f) ↔ Returns x :=
  (returns_bind_of_forall fun a _ => iff_of_true (h a) trivial).trans (and_iff_left trivial)

/-- The rest, given what it starts from. -/
theorem returns_bind_iff {x : Except CxxException α} {f : α → Except CxxException β} {P : α → Prop}
    (h : ∀ a, x = .ok a → (Returns (f a) ↔ P a)) :
    Returns (x >>= f) ↔ Returns x ∧ ∀ a, x = .ok a → P a := by
  rw [returns_bind]
  constructor
  · rintro ⟨a, hx, hf⟩
    exact ⟨⟨a, hx⟩, fun b hb => Except.ok.inj (hx.symm.trans hb) ▸ (h a hx).mp hf⟩
  · rintro ⟨⟨a, hx⟩, hp⟩
    exact ⟨a, hx, (h a hx).mpr (hp a hx)⟩

end

/-- A condition on the value that is there. -/
theorem forall_mem_some {α : Type} {a : α} {P : α → Prop} : (∀ b ∈ some a, P b) ↔ P a :=
  ⟨fun h => h a rfl, fun h _ hb => Option.some.inj hb ▸ h⟩

/-! ## Numerals -/

/-- A numeral that `std::stoull` accepts. -/
def IsUnsignedNumeral (text : CString) : Prop :=
  ∃ negative n, readDigits text = .ok (negative, n) ∧ n < 2 ^ 64

/-- A numeral that `std::stoll` accepts. -/
def IsSignedNumeral (text : CString) : Prop :=
  ∃ negative n, readDigits text = .ok (negative, n) ∧
    -2 ^ 63 ≤ (if negative then -(n : ℤ) else n) ∧ (if negative then -(n : ℤ) else n) < 2 ^ 63

theorem returns_stoull {text : CString} : Returns (stoull text) ↔ IsUnsignedNumeral text := by
  rw [stoull, returns_bind]
  constructor
  · rintro ⟨⟨negative, n⟩, hdigits, hrest⟩
    refine ⟨negative, n, hdigits, ?_⟩
    by_contra hlarge
    rw [not_lt] at hlarge
    simp only [hlarge, if_true] at hrest
    exact not_returns_error _ hrest
  · rintro ⟨negative, n, hdigits, hsmall⟩
    refine ⟨(negative, n), hdigits, ?_⟩
    simp only [not_le.mpr hsmall, if_false]
    exact returns_pure _

theorem returns_stoll {text : CString} : Returns (stoll text) ↔ IsSignedNumeral text := by
  rw [stoll, returns_bind]
  constructor
  · rintro ⟨⟨negative, n⟩, hdigits, hrest⟩
    refine ⟨negative, n, hdigits, ?_⟩
    by_contra hout
    rw [not_and_or, not_le, not_lt] at hout
    simp only [hout, if_true] at hrest
    exact not_returns_error _ hrest
  · rintro ⟨negative, n, hdigits, hlow, hhigh⟩
    refine ⟨(negative, n), hdigits, ?_⟩
    simp only [not_or.mpr ⟨not_lt.mpr hlow, not_le.mpr hhigh⟩, if_false]
    exact returns_pure _

/-! ## Members -/

namespace Json

/-- The value is a string. -/
def IsString (json : Json) : Prop := ∃ text, json = string text

/-- The value is a number. -/
def IsNumber (json : Json) : Prop := json.toInt?.isSome

/-- The member at a key is a string, if it is there. -/
def StringAt (json : Json) (key : CString) : Prop := ∀ member ∈ json.find key, member.IsString

/-- What a loop over `value(key, array())` goes through. -/
def elementsAt (json : Json) (key : CString) : List Json :=
  ((json.find key).getD (array [])).items

/-- The sequence number at a key can be read: a numeral in a string, a number, or nothing. -/
def SequenceReadable (json : Json) (key : CString) : Prop :=
  ∀ member ∈ json.find key,
    (∀ text, member = string text → IsUnsignedNumeral text) ∧ (¬ member.IsString → member.IsNumber)

variable {json : Json} {key : CString}

theorem returns_getString : Returns json.getString ↔ json.IsString := by
  cases json with
  | string text => exact iff_of_true (returns_ok text) ⟨text, rfl⟩
  | _ =>
    refine iff_of_false (not_returns_error _) ?_
    rintro ⟨text, h⟩
    cases h

/-- A computation on the string of a value. -/
theorem returns_getString_bind {β : Type} {f : CString → Except CxxException β} :
    Returns (json.getString >>= f) ↔ ∃ text, json = string text ∧ Returns (f text) := by
  rw [returns_bind]
  refine exists_congr fun text => and_congr_left fun _ => ⟨fun h => ?_, fun h => by rw [h]; rfl⟩
  cases json with
  | string s =>
    cases h
    rfl
  | _ => cases h

theorem returns_getUInt64 : Returns json.getUInt64 ↔ json.IsNumber := by
  rw [getUInt64, IsNumber]
  cases json.toInt? with
  | none => exact iff_of_false (not_returns_error _) Bool.false_ne_true
  | some n => exact iff_of_true (returns_ok _) rfl

theorem returns_getInt64 : Returns json.getInt64 ↔ json.IsNumber := by
  rw [getInt64, IsNumber]
  cases json.toInt? with
  | none => exact iff_of_false (not_returns_error _) Bool.false_ne_true
  | some n => exact iff_of_true (returns_ok _) rfl

theorem returns_getUInt32 : Returns json.getUInt32 ↔ json.IsNumber ∨ ∃ b, json = boolean b := by
  cases json with
  | boolean b => exact iff_of_true (returns_ok _) (.inr ⟨b, rfl⟩)
  | unsigned n => exact iff_of_true (returns_ok _) (.inl rfl)
  | integer n => exact iff_of_true (returns_ok _) (.inl rfl)
  | float x => exact iff_of_true (returns_ok _) (.inl rfl)
  | _ =>
    refine iff_of_false (not_returns_error _) ?_
    rintro (h | ⟨b, h⟩) <;> cases h

theorem returns_valueString {default : CString} :
    Returns (json.valueString key default) ↔ json.isObject = true ∧ json.StringAt key := by
  rw [valueString]
  by_cases hobject : json.isObject = true
  · rw [if_pos hobject, and_iff_right hobject, StringAt]
    cases hfind : json.find key with
    | none => exact iff_of_true (returns_ok _) fun member hmember => nomatch hmember
    | some member => exact returns_getString.trans forall_mem_some.symm
  · rw [if_neg hobject]
    exact iff_of_false (not_returns_error _) fun h => hobject h.1

theorem returns_valueArray : Returns (json.valueArray key) ↔ json.isObject = true := by
  rw [valueArray]
  by_cases hobject : json.isObject = true
  · rw [if_pos hobject]
    exact iff_of_true (returns_ok _) hobject
  · rw [if_neg hobject]
    exact iff_of_false (not_returns_error _) hobject

theorem returns_sequenceAt : Returns (json.sequenceAt key) ↔ json.SequenceReadable key := by
  rw [sequenceAt, SequenceReadable]
  cases hfind : json.find key with
  | none => exact iff_of_true (returns_ok _) fun member hmember => nomatch hmember
  | some member =>
    rw [forall_mem_some]
    cases member with
    | string text =>
      refine returns_stoull.trans ⟨fun h => ⟨fun t ht => ?_, fun hne => ?_⟩, fun h => h.1 text rfl⟩
      · cases ht
        exact h
      · exact absurd ⟨text, rfl⟩ hne
    | _ =>
      refine returns_getUInt64.trans ⟨fun h => ⟨fun t ht => ?_, fun _ => h⟩, fun h => h.2 ?_⟩
      · cases ht
      · rintro ⟨t, ht⟩
        cases ht

end Json

/-- A numeral in a string. -/
theorem returns_numberIn {lib : FeedLibrary} {json : Json} : Returns (lib.numberIn json) ↔
    ∃ text, json = .string text ∧ Returns (lib.stod text) := Json.returns_getString_bind

end TradingInfrastructure
