import TradingInfrastructure.Common.Types
import TradingInfrastructure.Foundations.SixBitDigits

/-!
# Base64 for tokens

`base64url_encode` of `LiveConnectorBase`, and the copy of it in
`core/feeds/coinbase/coinbase_feed_handler.cpp`. The text of some bytes is their digits of six bits
(`base64urlGroups_eq`), so the standard decoder gives the bytes back
(`base64urlEncode_faithful`).
-/

namespace TradingInfrastructure

/-! ## The encoder -/

/-- `triple` of the group of bytes from `i` on. -/
def base64urlTriple (data : List UInt8) (i : ℕ) : ℕ :=
  let octetA := (data.getD i 0).toNat
  let octetB := if i + 1 < data.length then (data.getD (i + 1) 0).toNat else 0
  let octetC := if i + 2 < data.length then (data.getD (i + 2) 0).toNat else 0
  octetA <<< 16 ||| octetB <<< 8 ||| octetC

/-- What the loop puts out for a group. -/
def base64urlGroup (kChars : List Char) (data : List UInt8) (i : ℕ) : List Char :=
  let triple := base64urlTriple data i
  [kChars.getD (triple >>> 18 &&& 0x3F) '\x00', kChars.getD (triple >>> 12 &&& 0x3F) '\x00'] ++
    (if i + 1 < data.length then [kChars.getD (triple >>> 6 &&& 0x3F) '\x00'] else []) ++
    if i + 2 < data.length then [kChars.getD (triple &&& 0x3F) '\x00'] else []

/-- The loop of both copies, for a table of characters. -/
def base64urlGroups (kChars : List Char) (data : List UInt8) : List Char :=
  (List.range ((data.length + 2) / 3)).flatMap fun k => base64urlGroup kChars data (3 * k)

namespace LiveConnectorBase

/-- `k_chars` of `base64url_encode`. -/
def base64urlChars : List Char :=
  "ABCDEFGHIJKLMNOPQRSTUVWXYZabcdefghijklmnopqrstuvwxyz0123456789-_".toList

/-- `base64url_encode`. -/
def base64urlEncode (data : List UInt8) : List Char := base64urlGroups base64urlChars data

end LiveConnectorBase

namespace CoinbaseFeedHandler

/-- `k_chars` of the copy of `base64url_encode`. -/
def base64urlChars : List Char :=
  "ABCDEFGHIJKLMNOPQRSTUVWXYZabcdefghijklmnopqrstuvwxyz0123456789-_".toList

/-- The copy of `base64url_encode`. -/
def base64urlEncode (data : List UInt8) : List Char := base64urlGroups base64urlChars data

end CoinbaseFeedHandler

/-! ## The decoder -/

/-- The characters of the url-safe alphabet, in their order. -/
def urlSafeAlphabet : List Char :=
  (List.range 26).map (fun i => Char.ofNat ('A'.toNat + i)) ++
    (List.range 26).map (fun i => Char.ofNat ('a'.toNat + i)) ++
    (List.range 10).map (fun i => Char.ofNat ('0'.toNat + i)) ++ ['-', '_']

/-- The standard decoder without padding: it refuses other characters, a single one at the end, and
bits at the end that are not zero. -/
def base64urlDecode (text : List Char) : Option (List UInt8) :=
  (text.mapM fun ch => urlSafeAlphabet.idxOf? ch).bind ofSixBits

/-! ## The text is that of the digits -/

variable {kChars : List Char}

/-- The digits of a group of one, two or three bytes. -/
theorem base64urlTriple_digits {data : List UInt8} {i a b c : ℕ}
    (h : base64urlTriple data i = a <<< 16 ||| b <<< 8 ||| c) (ha : a < 256) (hb : b < 256)
    (hc : c < 256) :
    base64urlTriple data i >>> 18 &&& 0x3F = a / 4 ∧
      base64urlTriple data i >>> 12 &&& 0x3F = a % 4 * 16 + b / 16 ∧
      base64urlTriple data i >>> 6 &&& 0x3F = b % 16 * 4 + c / 64 ∧
      base64urlTriple data i &&& 0x3F = c % 64 := by
  have hlast : base64urlTriple data i &&& 0x3F = base64urlTriple data i % 64 :=
    Nat.and_two_pow_sub_one_eq_mod _ 6
  rw [shiftRight_and_eq, shiftRight_and_eq, shiftRight_and_eq, hlast, h, or_shiftLeft_eq hb hc]
  omega

/-- The groups after the first one are those of the rest. -/
theorem base64urlGroup_drop (a b c : UInt8) (rest : List UInt8) (k : ℕ) :
    base64urlGroup kChars (a :: b :: c :: rest) (3 * (k + 1)) =
      base64urlGroup kChars rest (3 * k) := by
  have hindex : 3 * (k + 1) = 3 * k + 3 := by ring
  have hlength : ∀ j, 3 * k + 3 + j < (a :: b :: c :: rest).length ↔ 3 * k + j < rest.length := by
    intro j
    simp only [List.length_cons]
    omega
  have hget : ∀ j, (a :: b :: c :: rest).getD (3 * k + 3 + j) 0 = rest.getD (3 * k + j) 0 := by
    intro j
    rw [show 3 * k + 3 + j = 3 * k + j + 1 + 1 + 1 by ring]
    rfl
  have htriple : base64urlTriple (a :: b :: c :: rest) (3 * k + 3) =
      base64urlTriple rest (3 * k) := by
    have hfirst := hget 0
    simp only [Nat.add_zero] at hfirst
    simp only [base64urlTriple, hlength, hget, hfirst]
  rw [hindex, base64urlGroup, base64urlGroup, htriple]
  simp only [hlength]

/-- **The text of bytes** is that of their digits. -/
theorem base64urlGroups_eq (data : List UInt8) :
    base64urlGroups kChars data = (toSixBits data).map fun d => kChars.getD d '\x00' := by
  fun_induction toSixBits data with
  | case1 => rfl
  | case2 a =>
    obtain ⟨h1, h2, -, -⟩ := base64urlTriple_digits
      (show base64urlTriple [a] 0 = a.toNat <<< 16 ||| 0 <<< 8 ||| 0 from rfl) a.toNat_lt
      (by omega) (by omega)
    have hone : base64urlGroups kChars [a] = base64urlGroup kChars [a] 0 := by
      simp [base64urlGroups]
    rw [hone, base64urlGroup]
    simp [h1, h2]
  | case3 a b =>
    obtain ⟨h1, h2, h3, -⟩ := base64urlTriple_digits
      (show base64urlTriple [a, b] 0 = a.toNat <<< 16 ||| b.toNat <<< 8 ||| 0 from rfl) a.toNat_lt
      b.toNat_lt (by omega)
    have hone : base64urlGroups kChars [a, b] = base64urlGroup kChars [a, b] 0 := by
      simp [base64urlGroups]
    rw [hone, base64urlGroup]
    simp [h1, h2, h3]
  | case4 a b c rest ih =>
    obtain ⟨h1, h2, h3, h4⟩ := base64urlTriple_digits
      (show base64urlTriple (a :: b :: c :: rest) 0 = _ from rfl) a.toNat_lt b.toNat_lt c.toNat_lt
    have hcount : ((a :: b :: c :: rest).length + 2) / 3 = (rest.length + 2) / 3 + 1 := by
      simp only [List.length_cons]
      omega
    have hsplit : base64urlGroups kChars (a :: b :: c :: rest) =
        base64urlGroup kChars (a :: b :: c :: rest) 0 ++ base64urlGroups kChars rest := by
      rw [base64urlGroups, hcount, List.range_succ_eq_map, List.flatMap_cons, List.flatMap_map,
        base64urlGroups]
      exact congrArg _ (List.flatMap_congr fun k _ => base64urlGroup_drop a b c rest k)
    rw [hsplit, ih, base64urlGroup]
    simp [h1, h2, h3, h4]

/-! ## The text is read back -/

/-- Both tables are the alphabet. -/
theorem base64urlChars_eq : LiveConnectorBase.base64urlChars = urlSafeAlphabet := by decide

/-- A character of the alphabet is read as its place. -/
theorem idxOf?_urlSafeAlphabet : ∀ d < 64,
    urlSafeAlphabet.getD d '\x00' ∈ urlSafeAlphabet ∧
      urlSafeAlphabet.idxOf? (urlSafeAlphabet.getD d '\x00') = some d := by decide

/-- What is read back item by item is read back. -/
theorem mapM_map_of_inverse {α β : Type*} {f : β → Option α} {g : α → β} {xs : List α}
    (h : ∀ x ∈ xs, f (g x) = some x) : (xs.map g).mapM f = some xs := by
  induction xs with
  | nil => rfl
  | cons x xs ih =>
    rw [List.map_cons, List.mapM_cons, h x List.mem_cons_self,
      ih fun y hy => h y (List.mem_cons_of_mem x hy)]
    rfl

theorem base64urlDecode_encode (data : List UInt8) :
    base64urlDecode (LiveConnectorBase.base64urlEncode data) = some data := by
  rw [LiveConnectorBase.base64urlEncode, base64urlGroups_eq, base64urlChars_eq, base64urlDecode,
    mapM_map_of_inverse fun d hd => (idxOf?_urlSafeAlphabet d (lt_of_mem_toSixBits hd)).2]
  exact ofSixBits_toSixBits data

/-- **`base64url_encode` is faithful**: url-safe characters, as many as there are digits, which the
standard decoder reads back, so no two byte strings have one text; and the two copies agree. -/
theorem base64urlEncode_faithful :
    Function.Injective LiveConnectorBase.base64urlEncode ∧ ∀ data,
      (∀ ch ∈ LiveConnectorBase.base64urlEncode data, ch ∈ urlSafeAlphabet) ∧
      (LiveConnectorBase.base64urlEncode data).length = (4 * data.length + 2) / 3 ∧
      base64urlDecode (LiveConnectorBase.base64urlEncode data) = some data ∧
      CoinbaseFeedHandler.base64urlEncode data = LiveConnectorBase.base64urlEncode data := by
  refine ⟨fun data data' h => ?_, fun data => ⟨fun ch hch => ?_, ?_,
    base64urlDecode_encode data, rfl⟩⟩
  · have hread := base64urlDecode_encode data
    rw [h, base64urlDecode_encode data'] at hread
    exact (Option.some_inj.1 hread).symm
  · rw [LiveConnectorBase.base64urlEncode, base64urlGroups_eq, base64urlChars_eq] at hch
    obtain ⟨d, hd, rfl⟩ := List.mem_map.1 hch
    exact (idxOf?_urlSafeAlphabet d (lt_of_mem_toSixBits hd)).1
  · rw [LiveConnectorBase.base64urlEncode, base64urlGroups_eq, List.length_map, length_toSixBits]

example : LiveConnectorBase.base64urlEncode [255, 254] = "__4".toList := by decide

end TradingInfrastructure
