import TradingInfrastructure.Foundations.SlotPool

/-!
# Gross and net totals

A book of postings, each of a signed amount. Its net total is the sum of the amounts and its gross
total the sum of their absolute values, so the one bounds the other (`abs_net_le_gross`).

When every posting has a key, the totals of the whole book are the sums of the totals by key, over
all keys of a finite type (`sum_gross_at`) or over the slots of a pool that has a slot for each
key in use (`sum_slots_under`).
-/

namespace TradingInfrastructure

namespace Exposure

variable {π κ α M : Type*} [AddCommGroup M]

/-- The net total of the postings. -/
def net (amount : π → M) (ps : List π) : M := (ps.map amount).sum

/-- The gross total of the postings. -/
def gross [LinearOrder M] (amount : π → M) (ps : List π) : M := (ps.map fun p => |amount p|).sum

/-- The postings under a key. -/
def under [DecidableEq κ] (key : π → κ) (k : κ) (ps : List π) : List π :=
  ps.filter fun p => key p = k

variable (amount : π → M)

@[simp] theorem net_nil : net amount [] = 0 := rfl

@[simp] theorem gross_nil [LinearOrder M] : gross amount [] = 0 := rfl

@[simp] theorem net_append_singleton (ps : List π) (p : π) :
    net amount (ps ++ [p]) = net amount ps + amount p := by
  simp [net]

@[simp] theorem gross_append_singleton [LinearOrder M] (ps : List π) (p : π) :
    gross amount (ps ++ [p]) = gross amount ps + |amount p| := by
  simp [gross]

/-- **The net total is no larger than the gross total.** -/
theorem abs_net_le_gross [LinearOrder M] [IsOrderedAddMonoid M] (ps : List π) :
    |net amount ps| ≤ gross amount ps := by
  induction ps with
  | nil => simp
  | cons p ps ih =>
    calc |amount p + net amount ps| ≤ |amount p| + |net amount ps| := abs_add_le _ _
      _ ≤ |amount p| + gross amount ps := add_le_add_right ih _

section Keys

variable [DecidableEq κ] (key : π → κ)

theorem under_append_of_eq {k : κ} {p : π} (h : key p = k) (ps : List π) :
    under key k (ps ++ [p]) = under key k ps ++ [p] := by
  simp [under, h]

theorem under_append_of_ne {k : κ} {p : π} (h : key p ≠ k) (ps : List π) :
    under key k (ps ++ [p]) = under key k ps := by
  simp [under, h]

theorem under_eq_nil {k : κ} {ps : List π} (h : ∀ p ∈ ps, key p ≠ k) : under key k ps = [] :=
  List.filter_eq_nil_iff.mpr fun p hp => by simpa using h p hp

/-- A sum over the postings under a key, as a sum over all. -/
theorem sum_map_under (f : π → M) (k : κ) (ps : List π) :
    ((under key k ps).map f).sum = (ps.map fun p => if key p = k then f p else 0).sum := by
  induction ps with
  | nil => rfl
  | cons p ps ih =>
    by_cases hp : key p = k
    · simp only [under, hp, decide_true, List.filter_cons_of_pos, List.map_cons, List.sum_cons,
        if_true] at ih ⊢
      rw [ih]
    · simp only [under, hp, decide_false, Bool.false_eq_true, not_false_eq_true,
        List.filter_cons_of_neg, List.map_cons, List.sum_cons, if_false, zero_add] at ih ⊢
      rw [ih]

/-- **The gross total is the sum of the gross totals by key.** -/
theorem sum_gross_at [LinearOrder M] [Fintype κ] (ps : List π) :
    ∑ k, gross amount (under key k ps) = gross amount ps := by
  simp only [gross, sum_map_under]
  induction ps with
  | nil => simp
  | cons p ps ih => simp [Finset.sum_add_distrib, ih]

/-- **A total over the postings is the sum of its parts over the slots.** -/
theorem sum_slots_under (f : π → M) {slotKey : α → Option κ} {slots : List α}
    (hunique : SlotPool.KeysUnique slotKey slots) {ps : List π}
    (hknown : ∀ p ∈ ps, SlotPool.HasKey slotKey slots (key p)) {part : α → M}
    (hpart : ∀ a ∈ slots, ∀ k, slotKey a = some k → part a = ((under key k ps).map f).sum)
    (hidle : ∀ a ∈ slots, slotKey a = none → part a = 0) :
    (slots.map part).sum = (ps.map f).sum := by
  have hshare : ∀ p ∈ ps, (∃ k₀, SlotPool.HasKey slotKey slots k₀ ∧
      ∀ k, (if key p = k then f p else 0) = if k = k₀ then f p else 0) ∨
        (f p = 0 ∧ ∀ k, (if key p = k then f p else 0) = 0) :=
    fun p hp => Or.inl ⟨key p, hknown p hp, fun k => by simp only [@eq_comm _ k]⟩
  exact hunique.sum_shares hshare
    (fun a ha k hk => (hpart a ha k hk).trans (sum_map_under key f k ps)) hidle

end Keys

end Exposure

end TradingInfrastructure
