import Mathlib.Tactic
import Mathlib.Algebra.BigOperators.Group.List.Basic

/-!
# Pools of slots

A fixed array whose entries are searched for the first that satisfies a predicate and then
changed in place, as a list with `List.findIdx?` and `List.modify`. The index found plays the
part of the pointer the search returns.

The lemmas say what such a change does to the three things that are asked of a pool: a property
of every slot (`forall_mem_modify`), a total over the slots (`sum_map_modify`) and the
uniqueness of the keys of its used slots (`KeysUnique`). Two pools that agree slot by slot agree
after the same search and the same write (`findIdx?_eq_of_forall₂`, `forall₂_set`).
-/

namespace TradingInfrastructure

namespace SlotPool

variable {α κ : Type*}

/-- The slot a successful search returns. -/
theorem getElem?_of_findIdx? {p : α → Bool} {l : List α} {i : ℕ} (h : l.findIdx? p = some i) :
    ∃ a, l[i]? = some a ∧ p a = true ∧ a ∈ l := by
  obtain ⟨hi, hp, -⟩ := List.findIdx?_eq_some_iff_getElem.mp h
  exact ⟨l[i], List.getElem?_eq_getElem hi, hp, List.getElem_mem hi⟩

/-- A failed search: no slot satisfies the predicate. -/
theorem not_of_findIdx?_eq_none {p : α → Bool} {l : List α} (h : l.findIdx? p = none) {a : α}
    (ha : a ∈ l) : p a = false := by
  simpa using List.findIdx?_eq_none_iff.mp h a ha

theorem exists_findIdx? {p : α → Bool} {l : List α} {a : α} (ha : a ∈ l) (hp : p a = true) :
    ∃ i, l.findIdx? p = some i := by
  cases h : l.findIdx? p with
  | some i => exact ⟨i, rfl⟩
  | none => exact absurd hp (by simp [not_of_findIdx?_eq_none h ha])

/-- A slot of the changed pool is an old slot at another index, or the changed one. -/
theorem getElem?_modify_cases {l : List α} {i j : ℕ} {f : α → α} {b : α}
    (h : (l.modify i f)[j]? = some b) :
    (i ≠ j ∧ l[j]? = some b) ∨ (i = j ∧ ∃ a, l[j]? = some a ∧ b = f a) := by
  by_cases hij : i = j
  · subst hij
    right
    cases ha : l[i]? with
    | none => simp [ha] at h
    | some a =>
      simp only [List.getElem?_modify_eq, ha, Option.map_eq_map, Option.map_some] at h
      exact ⟨rfl, a, rfl, (Option.some.inj h).symm⟩
  · left
    rw [List.getElem?_modify_ne f l hij] at h
    exact ⟨hij, h⟩

theorem mem_modify {l : List α} {i : ℕ} {f : α → α} {b : α} (h : b ∈ l.modify i f) :
    b ∈ l ∨ ∃ a, l[i]? = some a ∧ b = f a := by
  obtain ⟨j, hj⟩ := List.mem_iff_getElem?.mp h
  rcases getElem?_modify_cases hj with ⟨-, hb⟩ | ⟨rfl, a, ha, rfl⟩
  · exact Or.inl (List.mem_of_getElem? hb)
  · exact Or.inr ⟨a, ha, rfl⟩

/-- A change that does not move the changed slot in or out of the predicate leaves the search
where it was. -/
theorem findIdx?_modify_of_eq {p : α → Bool} {f : α → α} :
    ∀ {l : List α} {i : ℕ}, (∀ a, l[i]? = some a → p (f a) = p a) →
      (l.modify i f).findIdx? p = l.findIdx? p
  | [], _, _ => by simp
  | b :: l, 0, h => by simp [List.findIdx?_cons, h b rfl]
  | b :: l, i + 1, h => by
    rw [List.modify_succ_cons, List.findIdx?_cons, List.findIdx?_cons,
      findIdx?_modify_of_eq (l := l) (i := i) fun a ha => h a (by simpa using ha)]

/-- When no slot satisfied the predicate, the search finds the slot that is made to. -/
theorem findIdx?_modify_of_none {p : α → Bool} {f : α → α} :
    ∀ {l : List α} {i : ℕ} {a : α}, l.findIdx? p = none → l[i]? = some a → p (f a) = true →
      (l.modify i f).findIdx? p = some i
  | b :: l, 0, a, _, ha, hp => by
    obtain rfl : b = a := by simpa using ha
    simp [List.findIdx?_cons, hp]
  | b :: l, i + 1, a, h, ha, hp => by
    rw [List.findIdx?_cons] at h
    cases hb : p b with
    | true => simp [hb] at h
    | false =>
      simp only [hb, Bool.false_eq_true, if_false, Option.map_eq_none_iff] at h
      rw [List.modify_succ_cons, List.findIdx?_cons,
        findIdx?_modify_of_none h (by simpa using ha) hp]
      simp [hb]

/-- A change of the slot that stands after `pre`. -/
theorem modify_length_append (pre : List α) (a : α) (l : List α) (f : α → α) :
    (pre ++ a :: l).modify pre.length f = pre ++ f a :: l := by
  induction pre with
  | nil => simp
  | cons b pre ih => simp [ih]

/-- A property of every slot survives a change that keeps it at the changed slot. -/
theorem forall_mem_modify {P : α → Prop} {l : List α} {i : ℕ} {f : α → α} (h : ∀ a ∈ l, P a)
    (hf : ∀ a, l[i]? = some a → P (f a)) : ∀ b ∈ l.modify i f, P b := by
  intro b hb
  rcases mem_modify hb with hb | ⟨a, ha, rfl⟩
  · exact h b hb
  · exact hf a ha

/-- A total over the slots moves by what the changed slot contributes. -/
theorem sum_map_modify {M : Type*} [AddCommGroup M] {l : List α} {i : ℕ} {a : α}
    (h : l[i]? = some a) (f : α → α) (g : α → M) :
    ((l.modify i f).map g).sum = (l.map g).sum + (g (f a) - g a) := by
  induction l generalizing i with
  | nil => simp at h
  | cons b l ih =>
    cases i with
    | zero =>
      obtain rfl : b = a := by simpa using h
      simp only [List.modify_zero_cons, List.map_cons, List.sum_cons]
      abel
    | succ i =>
      simp only [List.getElem?_cons_succ] at h
      simp only [List.modify_succ_cons, List.map_cons, List.sum_cons, ih h]
      abel

/-- A count over the slots moves by the changed slot. -/
theorem countP_modify {p : α → Bool} {l : List α} {i : ℕ} {a : α} (h : l[i]? = some a) (f : α → α) :
    (l.modify i f).countP p + (if p a then 1 else 0) = l.countP p + if p (f a) then 1 else 0 := by
  induction l generalizing i with
  | nil => simp at h
  | cons b l ih =>
    cases i with
    | zero =>
      obtain rfl : b = a := by simpa using h
      simp only [List.modify_zero_cons, List.countP_cons]
      omega
    | succ i =>
      have hrest := ih (by simpa using h)
      simp only [List.modify_succ_cons, List.countP_cons]
      omega

/-! ## Sweeps -/

section Sweep

variable {σ : Type*}

/-- Visit every slot in turn, with a state that is handed on. -/
def sweep (f : σ → α → σ × α) : σ → List α → σ × List α
  | s, [] => (s, [])
  | s, a :: l => ((sweep f (f s a).1 l).1, (f s a).2 :: (sweep f (f s a).1 l).2)

variable {f : σ → α → σ × α}

@[simp] theorem length_sweep (s : σ) (l : List α) : (sweep f s l).2.length = l.length := by
  induction l generalizing s with
  | nil => rfl
  | cons a l ih => simp [sweep, ih]

/-- What every visit does to the state, up to composition, the sweep does. -/
theorem sweep_induction {R : σ → σ → Prop} (hrefl : ∀ s, R s s)
    (htrans : ∀ {s t u}, R s t → R t u → R s u) {l : List α}
    (h : ∀ s, ∀ a ∈ l, R s (f s a).1) (s : σ) : R s (sweep f s l).1 := by
  induction l generalizing s with
  | nil => exact hrefl s
  | cons a l ih =>
    exact htrans (h s a (by simp)) (ih (fun s b hb => h s b (by simp [hb])) (f s a).1)

/-- What the visits add to a part of the state, each whatever the state is, the sweep adds to it one
after the other. -/
theorem foldl_sweep {τ ρ : Type*} {view : σ → τ} {add : τ → ρ → τ} {part : α → ρ}
    (h : ∀ s a, view (f s a).1 = add (view s) (part a)) (s : σ) (l : List α) :
    view (sweep f s l).1 = (l.map part).foldl add (view s) := by
  induction l generalizing s with
  | nil => rfl
  | cons a l ih => rw [sweep, ih, h, List.map_cons, List.foldl_cons]

/-- What a visit leaves of a slot, whatever the state is, the sweep leaves of every slot. -/
theorem forall_sweep_iff {P Q : α → Prop} (h : ∀ s a, P (f s a).2 ↔ Q a) (s : σ) (l : List α) :
    (∀ b ∈ (sweep f s l).2, P b) ↔ ∀ a ∈ l, Q a := by
  induction l generalizing s with
  | nil => simp [sweep]
  | cons a l ih => rw [sweep, List.forall_mem_cons, List.forall_mem_cons, h, ih]

/-- What a visit keeps of the state and the whole pool, wherever the slot stands, the sweep
keeps. -/
theorem sweep_invariant {Inv : σ → List α → Prop}
    (h : ∀ s l i a, l[i]? = some a → Inv s l → Inv (f s a).1 (l.set i (f s a).2)) {s : σ}
    {l : List α} (hl : Inv s l) : Inv (sweep f s l).1 (sweep f s l).2 := by
  suffices hpre : ∀ pre, Inv s (pre ++ l) → Inv (sweep f s l).1 (pre ++ (sweep f s l).2) from
    hpre [] hl
  clear hl
  induction l generalizing s with
  | nil => exact fun _ hpre => hpre
  | cons a l ih =>
    intro pre hpre
    have hvisit := h s (pre ++ a :: l) pre.length a (by simp) hpre
    have hset : (pre ++ a :: l).set pre.length (f s a).2 = pre ++ [(f s a).2] ++ l := by simp
    rw [hset] at hvisit
    simpa [sweep] using ih (pre ++ [(f s a).2]) hvisit

variable {ρ : Type*}

/-- What the visits of a sweep write, each from the state that it finds. -/
def sweepLog (f : σ → α → σ × α) (g : σ → α → List ρ) : σ → List α → List ρ
  | _, [] => []
  | s, a :: l => g s a ++ sweepLog f g (f s a).1 l

/-- Visits that write nothing. -/
@[simp] theorem sweepLog_nil (s : σ) (l : List α) :
    sweepLog f (fun _ _ => ([] : List ρ)) s l = [] := by
  induction l generalizing s with
  | nil => rfl
  | cons a l ih => exact ih (f s a).1

end Sweep

/-! ## Keys -/

/-- No two slots with a key have the same one. Unused slots have no key. -/
def KeysUnique (key : α → Option κ) (l : List α) : Prop :=
  ∀ (i j : ℕ) a b k, l[i]? = some a → l[j]? = some b → key a = some k → key b = some k → i = j

/-- The keys stay unique when the changed slot loses its key, keeps it, or takes one that no
other slot has. -/
theorem KeysUnique.modify {key : α → Option κ} {l : List α} (h : KeysUnique key l) {i : ℕ}
    {f : α → α}
    (hf : ∀ a k, l[i]? = some a → key (f a) = some k →
      ∀ (j : ℕ) b, j ≠ i → l[j]? = some b → key b ≠ some k) :
    KeysUnique key (l.modify i f) := by
  intro m n a b k ha hb hka hkb
  rcases getElem?_modify_cases ha with ⟨hm, ha'⟩ | ⟨rfl, a', ha', rfl⟩ <;>
    rcases getElem?_modify_cases hb with ⟨hn, hb'⟩ | ⟨rfl, b', hb', rfl⟩
  · exact h m n a b k ha' hb' hka hkb
  · exact absurd hka (hf b' k hb' hkb m a (Ne.symm hm) ha')
  · exact absurd hkb (hf a' k ha' hka n b (Ne.symm hn) hb')
  · rfl

theorem KeysUnique.modify_of_key_eq {key : α → Option κ} {l : List α} (h : KeysUnique key l)
    {i : ℕ} {f : α → α} (hf : ∀ a, l[i]? = some a → key (f a) = key a ∨ key (f a) = none) :
    KeysUnique key (l.modify i f) := by
  refine h.modify fun a k ha hk j b hj hb hkb => ?_
  rcases hf a ha with he | he
  · exact hj (h j i b a k hb ha hkb (by rw [← he, hk]))
  · rw [he] at hk
    cases hk

/-- A pool whose slots all have keys has no more slots than there are keys to have. -/
theorem KeysUnique.length_le {key : α → Option κ} {l : List α} (h : KeysUnique key l)
    (hall : ∀ a ∈ l, key a ≠ none) {ks : List κ}
    (hks : ∀ a ∈ l, ∀ k, key a = some k → k ∈ ks) : l.length ≤ ks.length := by
  have hnodup : (l.map key).Nodup := by
    refine List.nodup_iff_getElem?_ne_getElem?.mpr fun i j hij hj heq => ?_
    rw [List.length_map] at hj
    have hi : i < l.length := hij.trans hj
    rw [List.getElem?_map, List.getElem?_map, List.getElem?_eq_getElem hi,
      List.getElem?_eq_getElem hj] at heq
    obtain ⟨k, hk⟩ := Option.ne_none_iff_exists'.mp (hall _ (List.getElem_mem hi))
    have hk' : key l[j] = some k := (Option.some.inj heq).symm.trans hk
    exact hij.ne (h i j _ _ k (List.getElem?_eq_getElem hi) (List.getElem?_eq_getElem hj) hk hk')
  have hsub : l.map key ⊆ ks.map some := by
    intro o ho
    obtain ⟨a, ha, rfl⟩ := List.mem_map.mp ho
    obtain ⟨k, hk⟩ := Option.ne_none_iff_exists'.mp (hall a ha)
    rw [hk]
    exact List.mem_map_of_mem (hks a ha k hk)
  simpa using (hnodup.subperm hsub).length_le

/-- Some slot carries the key. -/
def HasKey (key : α → Option κ) (l : List α) (k : κ) : Prop := ∃ a ∈ l, key a = some k

section HasKey

variable {key : α → Option κ} {l : List α} {i : ℕ} {a : α} {f : α → α} {k : κ}

theorem hasKey_iff_getElem? : HasKey key l k ↔ ∃ (j : ℕ) (b : α), l[j]? = some b ∧
    key b = some k := by
  constructor
  · rintro ⟨b, hb, hk⟩
    obtain ⟨j, hj⟩ := List.mem_iff_getElem?.mp hb
    exact ⟨j, b, hj, hk⟩
  · rintro ⟨j, b, hj, hk⟩
    exact ⟨b, List.mem_of_getElem? hj, hk⟩

/-- A changed slot that keeps its key. -/
theorem hasKey_modify_of_same (ha : l[i]? = some a) (hf : key (f a) = key a) :
    HasKey key (l.modify i f) k ↔ HasKey key l k := by
  simp only [hasKey_iff_getElem?]
  refine exists_congr fun j => ?_
  by_cases hij : i = j
  · subst hij
    simp [ha, hf]
  · rw [List.getElem?_modify_ne f l hij]

/-- A free slot that takes a key. -/
theorem hasKey_modify_of_take {k₀ : κ} (ha : l[i]? = some a) (hfree : key a = none)
    (hf : key (f a) = some k₀) :
    HasKey key (l.modify i f) k ↔ HasKey key l k ∨ k = k₀ := by
  simp only [hasKey_iff_getElem?]
  constructor
  · rintro ⟨j, b, hj, hk⟩
    rcases getElem?_modify_cases hj with ⟨-, hb⟩ | ⟨rfl, a', ha', rfl⟩
    · exact Or.inl ⟨j, b, hb, hk⟩
    · obtain rfl : a' = a := Option.some.inj (ha'.symm.trans ha)
      exact Or.inr (Option.some.inj (hk.symm.trans hf))
  · rintro (⟨j, b, hj, hk⟩ | rfl)
    · have hij : i ≠ j := by
        rintro rfl
        obtain rfl : b = a := Option.some.inj (hj.symm.trans ha)
        rw [hfree] at hk
        cases hk
      exact ⟨j, b, by rw [List.getElem?_modify_ne f l hij, hj], hk⟩
    · exact ⟨i, f a, by simp [ha], hf⟩

/-- A slot that gives its key up, which no other slot has. -/
theorem KeysUnique.hasKey_modify_of_drop (h : KeysUnique key l) {k₀ : κ} (ha : l[i]? = some a)
    (hk₀ : key a = some k₀) (hf : key (f a) = none) :
    HasKey key (l.modify i f) k ↔ HasKey key l k ∧ k ≠ k₀ := by
  simp only [hasKey_iff_getElem?]
  constructor
  · rintro ⟨j, b, hj, hk⟩
    rcases getElem?_modify_cases hj with ⟨hij, hb⟩ | ⟨rfl, a', ha', rfl⟩
    · refine ⟨⟨j, b, hb, hk⟩, ?_⟩
      rintro rfl
      exact hij (h i j a b k ha hb hk₀ hk)
    · obtain rfl : a' = a := Option.some.inj (ha'.symm.trans ha)
      rw [hf] at hk
      cases hk
  · rintro ⟨⟨j, b, hj, hk⟩, hne⟩
    have hij : i ≠ j := by
      rintro rfl
      obtain rfl : b = a := Option.some.inj (hj.symm.trans ha)
      exact hne (Option.some.inj (hk.symm.trans hk₀))
    exact ⟨j, b, by rw [List.getElem?_modify_ne f l hij, hj], hk⟩

/-- A quantity held by the one slot with a key. -/
theorem KeysUnique.sum_ite {M : Type*} [AddMonoid M] [DecidableEq κ] {l : List α}
    (h : KeysUnique key l) (hk : HasKey key l k) (q : M) :
    (l.map fun a => if key a = some k then q else 0).sum = q := by
  induction l with
  | nil =>
    obtain ⟨a, ha, -⟩ := hk
    cases ha
  | cons b l ih =>
    have htail : KeysUnique key l := fun i j a a' k' ha ha' hka hka' =>
      Nat.succ.inj (h (i + 1) (j + 1) a a' k' (by simpa using ha) (by simpa using ha') hka hka')
    rw [List.map_cons, List.sum_cons]
    by_cases hb : key b = some k
    · have hrest : (l.map fun a => if key a = some k then q else 0).sum = 0 := by
        refine List.sum_eq_zero fun x hx => ?_
        obtain ⟨a, ha, rfl⟩ := List.mem_map.mp hx
        obtain ⟨j, hj⟩ := List.mem_iff_getElem?.mp ha
        rw [if_neg]
        intro hka
        have := h 0 (j + 1) b a k rfl (by simpa using hj) hb hka
        omega
      rw [hrest, if_pos hb, add_zero]
    · have hk' : HasKey key l k := by
        obtain ⟨a, ha, hka⟩ := hk
        rcases List.mem_cons.mp ha with rfl | ha
        · exact absurd hka hb
        · exact ⟨a, ha, hka⟩
      rw [if_neg hb, zero_add, ih htail hk']

/-- **A total is the sum of what each slot holds of it**, when everything that adds to the total
is shared out to the one slot with some key, or adds nothing. -/
theorem KeysUnique.sum_shares {β M : Type*} [AddCommMonoid M] [DecidableEq κ] {l : List α}
    (h : KeysUnique key l) {ps : List β} {share : β → κ → M} {total : β → M}
    (hshare : ∀ p ∈ ps, (∃ k₀, HasKey key l k₀ ∧ ∀ k, share p k = if k = k₀ then total p else 0) ∨
      (total p = 0 ∧ ∀ k, share p k = 0))
    {part : α → M} (hpart : ∀ a ∈ l, ∀ k, key a = some k → part a = (ps.map (share · k)).sum)
    (hidle : ∀ a ∈ l, key a = none → part a = 0) : (l.map part).sum = (ps.map total).sum := by
  -- what one `p` adds to the slots
  have hone : ∀ p ∈ ps, (l.map fun a => (key a).elim 0 (share p)).sum = total p := by
    intro p hp
    rcases hshare p hp with ⟨k₀, hk₀, heq⟩ | ⟨htotal, heq⟩
    · rw [← h.sum_ite hk₀ (total p)]
      refine congrArg List.sum (List.map_congr_left fun a _ => ?_)
      cases key a with
      | none => simp
      | some k => simp [heq]
    · rw [htotal]
      refine List.sum_eq_zero fun x hx => ?_
      obtain ⟨a, -, rfl⟩ := List.mem_map.mp hx
      cases key a <;> simp [heq]
  have hparts : ∀ a ∈ l, part a = (ps.map fun p => (key a).elim 0 (share p)).sum := by
    intro a ha
    cases hk : key a with
    | none => simp [hidle a ha hk]
    | some k => simp [hpart a ha k hk]
  rw [List.map_congr_left hparts]
  clear hparts hpart hidle hshare
  induction ps with
  | nil => simp
  | cons p ps ih =>
    simp only [List.map_cons, List.sum_cons, List.sum_map_add]
    rw [hone p (by simp), ih fun q hq => hone q (by simp [hq])]

end HasKey

/-! ## Two pools side by side -/

section SideBySide

variable {β : Type*} {R : α → β → Prop} {l : List α} {l' : List β}

/-- Searches that agree slot by slot find the same slot. -/
theorem findIdx?_eq_of_forall₂ {p : α → Bool} {q : β → Bool} (h : List.Forall₂ R l l')
    (hpq : ∀ a b, R a b → p a = q b) : l.findIdx? p = l'.findIdx? q := by
  induction h with
  | nil => rfl
  | cons hab _ ih => rw [List.findIdx?_cons, List.findIdx?_cons, hpq _ _ hab, ih]

/-- The same slot written in both. -/
theorem forall₂_set {a : α} {b : β} (h : List.Forall₂ R l l') (hab : R a b) (i : ℕ) :
    List.Forall₂ R (l.set i a) (l'.set i b) := by
  induction h generalizing i with
  | nil => exact List.Forall₂.nil
  | cons hcd hrest ih =>
    cases i with
    | zero => exact List.Forall₂.cons hab hrest
    | succ i => exact List.Forall₂.cons hcd (ih i)

/-- The same slot read in both. -/
theorem forall₂_getD {a : α} {b : β} (h : List.Forall₂ R l l') (hab : R a b) (i : ℕ) :
    R (l.getD i a) (l'.getD i b) := by
  induction h generalizing i with
  | nil => exact hab
  | cons hcd _ ih =>
    cases i with
    | zero => exact hcd
    | succ i => exact ih i

end SideBySide

end SlotPool

end TradingInfrastructure
