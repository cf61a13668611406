import Mathlib.Data.List.GetD
import Mathlib.Tactic

/-!
# Records written and copied field by field, under a counter

A record is a value for each of its fields. A copy that proceeds field by field, in some order, has
at each point copied the fields it has been through (`copyFields_apply`); when it has been through
all of them it is the record (`copyFields_of_forall_mem`). Stores that all write what a record has
are a copy of it (`applyStores_eq_copyFields`).

A writer gives a value new contents, one version after another, and counts: the counter is odd while
a version is being written, and even, twice the number of the version, when it is complete
(`Versioned`). Who has found the counter even, and finds it the same later, has looked at a complete
version in between (`Glimpse.eq_version`): the counter only goes up, so the writer has not moved.
-/

namespace TradingInfrastructure

variable {F : Type*} [DecidableEq F] {V : F → Type*}

/-- One field copied. -/
def copyField (source : ∀ f, V f) (target : ∀ f, V f) (f : F) : ∀ f, V f :=
  Function.update target f (source f)

/-- What a field is when one has been copied of those that remain. -/
theorem copyField_cases {source target : ∀ f, V f} {f g : F} {rest : List F} (hg : g ∉ rest) :
    copyField source target f g = source g ∨
      g ∉ f :: rest ∧ copyField source target f g = target g := by
  rw [copyField]
  by_cases hgf : g = f
  · subst hgf
    exact .inl (Function.update_self ..)
  · exact .inr ⟨by simp [hgf, hg], Function.update_of_ne hgf ..⟩

/-- Fields copied in an order. -/
def copyFields (source : ∀ f, V f) (fields : List F) (target : ∀ f, V f) : ∀ f, V f :=
  fields.foldl (copyField source) target

variable {source target : ∀ f, V f} {fields rest : List F} {f : F}

@[simp] theorem copyFields_nil : copyFields source [] target = target := rfl

@[simp] theorem copyFields_cons :
    copyFields source (f :: rest) target = copyFields source rest (copyField source target f) := rfl

/-- **A field after a copy** is that of the source if the copy has been through it. -/
theorem copyFields_apply :
    copyFields source fields target f = if f ∈ fields then source f else target f := by
  induction fields generalizing target with
  | nil => rfl
  | cons g rest ih =>
    rw [copyFields_cons, ih]
    by_cases hrest : f ∈ rest
    · rw [if_pos hrest, if_pos (List.mem_cons_of_mem g hrest)]
    · rw [if_neg hrest, copyField]
      by_cases hfg : f = g
      · subst hfg
        rw [Function.update_self, if_pos List.mem_cons_self]
      · rw [Function.update_of_ne hfg, if_neg (by simp [hfg, hrest])]

/-- **A copy that has been through all fields.** -/
theorem copyFields_of_forall_mem (hall : ∀ f, f ∈ fields) :
    copyFields source fields target = source := by
  funext f
  rw [copyFields_apply, if_pos (hall f)]

/-! ## Stores -/

/-- A store of a value in a field. -/
def applyStore (target : ∀ f, V f) (store : Σ f, V f) : ∀ f, V f :=
  Function.update target store.1 store.2

/-- Stores in an order. -/
def applyStores (stores : List (Σ f, V f)) (target : ∀ f, V f) : ∀ f, V f :=
  stores.foldl applyStore target

variable {stores more : List (Σ f, V f)}

@[simp] theorem applyStores_nil : applyStores [] target = target := rfl

@[simp] theorem applyStores_cons {store : Σ f, V f} :
    applyStores (store :: stores) target = applyStores stores (applyStore target store) := rfl

theorem applyStores_append :
    applyStores (stores ++ more) target = applyStores more (applyStores stores target) :=
  List.foldl_append

/-- **Stores of what a record has** copy it. -/
theorem applyStores_eq_copyFields (hsource : ∀ store ∈ stores, store.2 = source store.1) :
    applyStores stores target = copyFields source (stores.map Sigma.fst) target := by
  induction stores generalizing target with
  | nil => rfl
  | cons store rest ih =>
    obtain ⟨hstore, hrest⟩ := List.forall_mem_cons.mp hsource
    rw [applyStores_cons, ih hrest, List.map_cons, copyFields_cons, applyStore, copyField, hstore]

/-- Stores in other fields. -/
theorem applyStores_of_forall_ne (hother : ∀ store ∈ stores, store.1 ≠ f) :
    applyStores stores target f = target f := by
  induction stores generalizing target with
  | nil => rfl
  | cons store rest ih =>
    obtain ⟨hstore, hrest⟩ := List.forall_mem_cons.mp hother
    rw [applyStores_cons, ih hrest, applyStore, Function.update_of_ne hstore.symm]

/-! ## Versions under a counter -/

section Versions

variable {α : Type*} {blank a : α} {done more : List α} {k : ℕ}

/-- The contents of a version: blank at first, then what has been completed. -/
def version (blank : α) (done : List α) (k : ℕ) : α := (blank :: done).getD k blank

/-- The version just completed. -/
theorem version_last : version blank (done ++ [a]) (done ++ [a]).length = a := by
  rw [version, List.length_append, List.length_singleton, List.getD_cons_succ,
    List.getD_append_right _ _ _ _ le_rfl, Nat.sub_self]
  rfl

/-- A version is blank or has been completed. -/
theorem version_mem (hk : k ≤ done.length) : version blank done k = blank ∨
    version blank done k ∈ done := by
  cases k with
  | zero => exact .inl rfl
  | succ k =>
    right
    rw [version, List.getD_cons_succ, List.getD_eq_getElem _ _ hk]
    exact List.getElem_mem hk

/-- The value under the counter: complete when the counter is even. -/
structure Versioned (blank : α) (done : List α) (counter : ℕ) (contents : α) : Prop where
  bound : counter ≤ 2 * done.length + 1
  complete : Even counter → counter = 2 * done.length ∧ contents = version blank done done.length

/-- What a reader knows that has found the counter even, at `start`: as long as the counter is the
same, what it has looked at since (`sees`) belongs to the version of the start. -/
structure Glimpse (blank : α) (done : List α) (counter start : ℕ) (sees : α → Prop) : Prop where
  even : Even start
  le : start ≤ counter
  sees : counter = start → sees (version blank done (start / 2))

variable {counter start : ℕ} {contents : α} {sees : α → Prop}

/-- The start: nothing has been looked at. -/
theorem Versioned.glimpse (heven : Even counter) (hsees : ∀ a, sees a) :
    Glimpse blank done counter counter sees :=
  ⟨heven, le_rfl, fun _ => hsees _⟩

/-- Another look at the contents, which finds what it finds. -/
theorem Glimpse.look {sees' : α → Prop} (h : Glimpse blank done counter start sees)
    (hv : Versioned blank done counter contents) (hlook : sees contents → sees' contents) :
    Glimpse blank done counter start sees' where
  even := h.even
  le := h.le
  sees heq := by
    obtain ⟨hcounter, hcontents⟩ := hv.complete (heq ▸ h.even)
    have hhalf : start / 2 = done.length := by omega
    have hsees := h.sees heq
    rw [hhalf, ← hcontents] at hsees ⊢
    exact hlook hsees

/-- The writer moves on. -/
theorem Glimpse.mono {counter' : ℕ} (h : Glimpse blank done counter start sees)
    (hle : counter ≤ counter') : Glimpse blank done counter' start sees where
  even := h.even
  le := h.le.trans hle
  sees heq := h.sees (le_antisymm (heq ▸ hle) h.le)

/-- The writer completes versions, and the counter is another. -/
theorem Glimpse.outdated {counter' : ℕ} {done' : List α}
    (h : Glimpse blank done counter start sees) (hlt : counter < counter') :
    Glimpse blank done' counter' start sees where
  even := h.even
  le := h.le.trans hlt.le
  sees heq := absurd (heq ▸ hlt) (not_lt.mpr h.le)

/-- **The counter is still the same**: what has been seen is a complete version. -/
theorem Glimpse.eq_version (h : Glimpse blank done counter start sees)
    (hbound : counter ≤ 2 * done.length + 1) (heq : counter = start) :
    ∃ a, sees a ∧ (a = blank ∨ a ∈ done) := by
  obtain ⟨k, hk⟩ := h.even
  exact ⟨_, h.sees heq, version_mem (by omega)⟩

end Versions

end TradingInfrastructure
