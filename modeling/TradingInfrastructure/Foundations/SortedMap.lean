import Mathlib.Tactic

/-!
# Sorted maps

A map as the list of its entries in the order of the keys, with a first argument for the order. An
insertion walks to the place of its key and replaces the entry it finds there, so that what a
lookup finds afterwards does not depend on the order (`lookup_upsert`).
-/

namespace TradingInfrastructure

namespace SortedMap

variable {κ ν : Type*} [DecidableEq κ] (before : κ → κ → Prop) [DecidableRel before]

/-- The map with this value at the key. -/
def upsert (key : κ) (value : ν) : List (κ × ν) → List (κ × ν)
  | [] => [(key, value)]
  | entry :: rest =>
    if key = entry.1 then (key, value) :: rest
    else if before key entry.1 then (key, value) :: entry :: rest
    else entry :: upsert key value rest

/-- The map without the key. -/
def erase (key : κ) (m : List (κ × ν)) : List (κ × ν) := m.filter fun entry => entry.1 ≠ key

variable {key other : κ} {value : ν} {m : List (κ × ν)} {entry : κ × ν}

theorem lookup_cons (entry : κ × ν) (m : List (κ × ν)) :
    (entry :: m).lookup other = if other = entry.1 then some entry.2 else m.lookup other := by
  rw [List.lookup_cons]
  by_cases h : other = entry.1
  · rw [if_pos h, beq_iff_eq.mpr h]
  · rw [if_neg h, beq_eq_false_iff_ne.mpr h]

/-- An insertion is seen at its key, and nowhere else. -/
theorem lookup_upsert : (upsert before key value m).lookup other =
    if other = key then some value else m.lookup other := by
  induction m with
  | nil => exact lookup_cons (key, value) []
  | cons entry rest ih =>
    rw [upsert]
    by_cases heq : key = entry.1
    · rw [if_pos heq, lookup_cons, lookup_cons, heq]
      split_ifs <;> rfl
    · rw [if_neg heq]
      by_cases hbefore : before key entry.1
      · rw [if_pos hbefore, lookup_cons]
      · rw [if_neg hbefore, lookup_cons, ih, lookup_cons]
        split_ifs with hentry hkey
        · exact absurd (hkey.symm.trans hentry) heq
        · rfl
        · rfl
        · rfl

/-- An erasure is seen at its key, and nowhere else. -/
theorem lookup_erase : (erase key m).lookup other =
    if other = key then none else m.lookup other := by
  induction m with
  | nil => exact (ite_self none).symm
  | cons entry rest ih =>
    rw [erase, List.filter_cons]
    by_cases heq : entry.1 = key
    · rw [if_neg (by simpa using heq), ← erase, ih, lookup_cons, heq]
      split_ifs <;> rfl
    · rw [if_pos (by simpa using heq), lookup_cons, ← erase, ih, lookup_cons]
      split_ifs with hentry hkey
      · exact absurd (hentry.symm.trans hkey) heq
      · rfl
      · rfl
      · rfl

/-- The keys stand in order. -/
def Sorted (m : List (κ × ν)) : Prop := m.Pairwise fun a b => before a.1 b.1

variable {before}

theorem mem_upsert (h : entry ∈ upsert before key value m) :
    entry = (key, value) ∨ entry ∈ m := by
  induction m with
  | nil => exact .inl (List.mem_singleton.mp h)
  | cons head rest ih =>
    rw [upsert] at h
    split_ifs at h
    · exact (List.mem_cons.mp h).imp_right (List.mem_cons_of_mem head)
    · exact List.mem_cons.mp h
    · obtain rfl | hrest := List.mem_cons.mp h
      · exact .inr List.mem_cons_self
      · exact (ih hrest).imp_right (List.mem_cons_of_mem head)

/-- An insertion keeps the order, which is a strict order in which every two keys compare. -/
theorem Sorted.upsert [IsTrans κ before] (htotal : ∀ a b, a ≠ b → before a b ∨ before b a)
    (hm : Sorted before m) : Sorted before (upsert before key value m) := by
  induction m with
  | nil => exact List.pairwise_singleton _ _
  | cons head rest ih =>
    obtain ⟨hhead, hrest⟩ := List.pairwise_cons.mp hm
    rw [SortedMap.upsert]
    split_ifs with heq hbefore
    · exact List.pairwise_cons.mpr ⟨fun entry hentry => heq ▸ hhead entry hentry, hrest⟩
    · refine List.pairwise_cons.mpr ⟨fun entry hentry => ?_, hm⟩
      obtain rfl | hentry := List.mem_cons.mp hentry
      · exact hbefore
      · exact IsTrans.trans _ _ _ hbefore (hhead entry hentry)
    · refine List.pairwise_cons.mpr ⟨fun entry hentry => ?_, ih hrest⟩
      obtain rfl | hentry := mem_upsert hentry
      · exact (htotal key head.1 heq).resolve_left hbefore
      · exact hhead entry hentry

omit [DecidableRel before] in
theorem Sorted.erase (hm : Sorted before m) : Sorted before (erase key m) :=
    List.Pairwise.filter _ hm

end SortedMap

end TradingInfrastructure
