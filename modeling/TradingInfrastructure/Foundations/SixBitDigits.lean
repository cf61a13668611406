import Mathlib.Tactic

/-!
# Bytes as digits of six bits

Three bytes are four digits of six bits. One or two bytes at the end are two or three digits, the
last one filled up with zero bits. A list of digits that bytes do not have is refused, and the
digits of bytes are read back (`ofSixBits_toSixBits`).
-/

namespace TradingInfrastructure

/-- The digits of bytes. -/
def toSixBits : List UInt8 → List ℕ
  | [] => []
  | [a] => [a.toNat / 4, a.toNat % 4 * 16]
  | [a, b] => [a.toNat / 4, a.toNat % 4 * 16 + b.toNat / 16, b.toNat % 16 * 4]
  | a :: b :: c :: rest =>
    a.toNat / 4 :: (a.toNat % 4 * 16 + b.toNat / 16) :: (b.toNat % 16 * 4 + c.toNat / 64) ::
      c.toNat % 64 :: toSixBits rest

/-- The bytes of digits, where the bits that fill up the last one are zero. -/
def ofSixBits : List ℕ → Option (List UInt8)
  | [] => some []
  | [_] => none
  | [x, y] => if y % 16 = 0 then some [UInt8.ofNat (x * 4 + y / 16)] else none
  | [x, y, z] =>
    if z % 4 = 0 then
      some [UInt8.ofNat (x * 4 + y / 16), UInt8.ofNat (y % 16 * 16 + z / 4)]
    else none
  | x :: y :: z :: w :: rest => (ofSixBits rest).map fun bytes =>
    UInt8.ofNat (x * 4 + y / 16) :: UInt8.ofNat (y % 16 * 16 + z / 4) ::
      UInt8.ofNat (z % 4 * 64 + w) :: bytes

/-- The number of digits. -/
theorem length_toSixBits (data : List UInt8) :
    (toSixBits data).length = (4 * data.length + 2) / 3 := by
  fun_induction toSixBits data with
  | case1 | case2 | case3 => simp only [List.length_cons, List.length_nil]
  | case4 a b c rest ih =>
    simp only [List.length_cons, ih]
    omega

theorem lt_of_mem_toSixBits {data : List UInt8} {d : ℕ} (h : d ∈ toSixBits data) : d < 64 := by
  fun_induction toSixBits data with
  | case1 => cases h
  | case2 a =>
    have ha := a.toNat_lt
    simp only [List.mem_cons, List.not_mem_nil, or_false] at h
    omega
  | case3 a b =>
    have ha := a.toNat_lt
    have hb := b.toNat_lt
    simp only [List.mem_cons, List.not_mem_nil, or_false] at h
    omega
  | case4 a b c rest ih =>
    have ha := a.toNat_lt
    have hb := b.toNat_lt
    have hc := c.toNat_lt
    simp only [List.mem_cons] at h
    rcases h with h | h | h | h | h
    · omega
    · omega
    · omega
    · omega
    · exact ih h

/-- A byte from its value. -/
theorem ofNat_eq {a : UInt8} {n : ℕ} (h : n = a.toNat) : UInt8.ofNat n = a := by
  rw [h, UInt8.ofNat_toNat]

/-- **The digits of bytes are read back.** -/
theorem ofSixBits_toSixBits (data : List UInt8) : ofSixBits (toSixBits data) = some data := by
  fun_induction toSixBits data with
  | case1 => rfl
  | case2 a =>
    have ha : UInt8.ofNat (a.toNat / 4 * 4 + a.toNat % 4 * 16 / 16) = a := ofNat_eq (by omega)
    rw [ofSixBits, if_pos (by omega), ha]
  | case3 a b =>
    have ha : UInt8.ofNat (a.toNat / 4 * 4 + (a.toNat % 4 * 16 + b.toNat / 16) / 16) = a :=
      ofNat_eq (by have := b.toNat_lt; omega)
    have hb : UInt8.ofNat ((a.toNat % 4 * 16 + b.toNat / 16) % 16 * 16 + b.toNat % 16 * 4 / 4) = b :=
      ofNat_eq (by have := b.toNat_lt; omega)
    rw [ofSixBits, if_pos (by omega), ha, hb]
  | case4 a b c rest ih =>
    have ha : UInt8.ofNat (a.toNat / 4 * 4 + (a.toNat % 4 * 16 + b.toNat / 16) / 16) = a :=
      ofNat_eq (by have := b.toNat_lt; omega)
    have hb : UInt8.ofNat ((a.toNat % 4 * 16 + b.toNat / 16) % 16 * 16 +
        (b.toNat % 16 * 4 + c.toNat / 64) / 4) = b :=
      ofNat_eq (by have := b.toNat_lt; have := c.toNat_lt; omega)
    have hc : UInt8.ofNat ((b.toNat % 16 * 4 + c.toNat / 64) % 4 * 64 + c.toNat % 64) = c :=
      ofNat_eq (by have := c.toNat_lt; omega)
    rw [ofSixBits, ih, Option.map_some, ha, hb, hc]

/-! ## Bits -/

/-- Three bytes side by side. -/
theorem or_shiftLeft_eq {a b c : ℕ} (hb : b < 256) (hc : c < 256) :
    a <<< 16 ||| b <<< 8 ||| c = a * 65536 + b * 256 + c := by
  have hlow : 2 ^ 8 * b + c = 2 ^ 8 * b ||| c := Nat.two_pow_add_eq_or_of_lt hc b
  have hall : 2 ^ 16 * a + (2 ^ 8 * b + c) = 2 ^ 16 * a ||| (2 ^ 8 * b + c) :=
    Nat.two_pow_add_eq_or_of_lt (by omega) a
  rw [Nat.shiftLeft_eq, Nat.shiftLeft_eq, Nat.or_assoc, Nat.mul_comm a, Nat.mul_comm b, ← hlow,
    ← hall]
  omega

/-- Six bits of a number. -/
theorem shiftRight_and_eq (n k : ℕ) : (n >>> k) &&& 0x3F = n / 2 ^ k % 64 := by
  rw [Nat.shiftRight_eq_div_pow]
  exact Nat.and_two_pow_sub_one_eq_mod _ 6

end TradingInfrastructure
