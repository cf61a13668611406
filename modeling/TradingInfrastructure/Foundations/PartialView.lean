import Mathlib.Tactic
import Mathlib.Logic.Function.Basic

/-!
# Views that forget

A store is written key by key; a view of it shows a part of the keys and may lose what it showed.
Some values are *live* (a level with a size), the others say that a key is empty.

* A view is `Sound` when every live value it shows is the last one written.
* A view `Covers` the store, for an order in which some keys come ahead of others, when every live
  key it has lost lies behind one it shows. Then the best key it shows is the best live key
  (`isBest_live_iff`), which is what a reader of the view wants to know.

The lemmas say what each kind of step (a write that the view shows, a write that it misses, a
change of what it shows) needs to keep the view sound and covering.
-/

namespace TradingInfrastructure

/-- The last value written for each key. -/
def lastWrite {κ α : Type*} [DecidableEq κ] (ws : List (κ × α)) : κ → Option α :=
  ws.foldl (fun m w => Function.update m w.1 (some w.2)) fun _ => none

section LastWrite

variable {κ α : Type*} [DecidableEq κ]

@[simp] theorem lastWrite_nil (k : κ) : lastWrite ([] : List (κ × α)) k = none := rfl

theorem lastWrite_append_singleton (ws : List (κ × α)) (k : κ) (v : α) :
    lastWrite (ws ++ [(k, v)]) = Function.update (lastWrite ws) k (some v) := by
  simp [lastWrite, List.foldl_append]

/-- A key that has been written is that of one of the writes. -/
theorem exists_of_lastWrite {ws : List (κ × α)} {k : κ} {v : α}
    (h : lastWrite ws k = some v) : ∃ w ∈ ws, w.1 = k := by
  induction ws using List.reverseRecOn with
  | nil => cases h
  | append_singleton ws w ih =>
    rw [show w = (w.1, w.2) from rfl, lastWrite_append_singleton] at h
    by_cases hk : k = w.1
    · exact ⟨w, by simp, hk.symm⟩
    · rw [Function.update_of_ne hk] at h
      obtain ⟨w', hw', hwk⟩ := ih h
      exact ⟨w', by simp [hw'], hwk⟩

end LastWrite

namespace PartialView

variable {κ α : Type*}

/-- The key is shown with a live value. -/
def Holds (live : α → Prop) (m : κ → Option α) (k : κ) : Prop := ∃ v, m k = some v ∧ live v

/-- Every live value shown is the last one written. -/
def Sound (live : α → Prop) (view last : κ → Option α) : Prop :=
  ∀ k v, view k = some v → live v → last k = some v

/-- A live key that the view does not show as live. -/
def Lost (live : α → Prop) (view last : κ → Option α) (k : κ) : Prop :=
  Holds live last k ∧ ¬ Holds live view k

/-- Every lost key lies behind a key that is shown. -/
def Covers (live : α → Prop) (ahead : κ → κ → Prop) (view last : κ → Option α) : Prop :=
  ∀ k, Lost live view last k → ∃ k', Holds live view k' ∧ ahead k' k

/-- The key that lies ahead of all others in a set. -/
def IsBest (ahead : κ → κ → Prop) (S : κ → Prop) (k : κ) : Prop :=
  S k ∧ ∀ k', S k' → k' = k ∨ ahead k k'

variable {live : α → Prop} {ahead : κ → κ → Prop} {view last : κ → Option α}

/-! ## Soundness -/

theorem Sound.holds (h : Sound live view last) {k : κ} (hk : Holds live view k) :
    Holds live last k := by
  obtain ⟨v, hv, hl⟩ := hk
  exact ⟨v, h k v hv hl, hl⟩

/-- A view that shows less, or shows emptied keys, stays sound. -/
theorem Sound.mono (h : Sound live view last) {view' : κ → Option α}
    (hv : ∀ k v, view' k = some v → live v → view k = some v) : Sound live view' last :=
  fun k v hk hl => h k v (hv k v hk hl) hl

variable [DecidableEq κ]

theorem Sound.write (h : Sound live view last) (k : κ) (v : α) :
    Sound live (Function.update view k (some v)) (Function.update last k (some v)) := by
  intro k' v' hk' hl
  by_cases hkk : k' = k
  · subst hkk
    simpa using hk'
  · rw [Function.update_of_ne hkk] at hk' ⊢
    exact h k' v' hk' hl

/-- A write of a key that the view does not reach. -/
theorem Sound.skip (h : Sound live view last) {k : κ} (hk : view k = none) (v : Option α) :
    Sound live view (Function.update last k v) := by
  intro k' v' hk' hl
  have hkk : k' ≠ k := by
    rintro rfl
    rw [hk] at hk'
    cases hk'
  rw [Function.update_of_ne hkk]
  exact h k' v' hk' hl

theorem holds_update_self {m : κ → Option α} {k : κ} {v : α} :
    Holds live (Function.update m k (some v)) k ↔ live v := by
  simp [Holds]

theorem holds_update_of_ne {m : κ → Option α} {k k' : κ} (h : k' ≠ k) (v : Option α) :
    Holds live (Function.update m k v) k' ↔ Holds live m k' := by
  simp [Holds, Function.update_of_ne h]

/-! ## Covering -/

omit [DecidableEq κ] in
/-- **A sound view that covers the store knows its best key**, and only then. -/
theorem isBest_live_iff [IsTrans κ ahead] (hs : Sound live view last) {k : κ}
    (hk : IsBest ahead (Holds live view) k) :
    IsBest ahead (Holds live last) k ↔ Covers live ahead view last := by
  constructor
  · rintro ⟨-, hbest⟩ k' ⟨hlive, hlost⟩
    rcases hbest k' hlive with rfl | ha
    · exact absurd hk.1 hlost
    · exact ⟨k, hk.1, ha⟩
  · intro hc
    refine ⟨hs.holds hk.1, fun k' hlive => ?_⟩
    by_cases hv : Holds live view k'
    · exact hk.2 k' hv
    · obtain ⟨k'', hk'', ha⟩ := hc k' ⟨hlive, hv⟩
      rcases hk.2 k'' hk'' with rfl | ha'
      · exact Or.inr ha
      · exact Or.inr (IsTrans.trans _ _ _ ha' ha)

omit [DecidableEq κ] in
/-- When the view shows nothing, it covers the store exactly when the store is empty. -/
theorem covers_of_empty (hv : ∀ k, ¬ Holds live view k) :
    Covers live ahead view last ↔ ∀ k, ¬ Holds live last k := by
  constructor
  · intro hc k hk
    obtain ⟨k', hk', -⟩ := hc k ⟨hk, hv k⟩
    exact hv k' hk'
  · intro hl k hk
    exact absurd hk.1 (hl k)

/-- A live write that the view shows keeps it covering. -/
theorem Covers.write (h : Covers live ahead view last) (k : κ) {v : α} (hv : live v) :
    Covers live ahead (Function.update view k (some v)) (Function.update last k (some v)) := by
  rintro k' ⟨hlive, hlost⟩
  have hkk : k' ≠ k := by
    rintro rfl
    exact hlost (holds_update_self.mpr hv)
  rw [holds_update_of_ne hkk] at hlive hlost
  obtain ⟨k'', hk'', ha⟩ := h k' ⟨hlive, hlost⟩
  by_cases hk : k'' = k
  · subst hk
    exact ⟨k'', holds_update_self.mpr hv, ha⟩
  · exact ⟨k'', (holds_update_of_ne hk _).mpr hk'', ha⟩

/-- A deletion that the view shows keeps it covering exactly when every lost key lies behind
another key than the deleted one. -/
theorem covers_delete_iff {k : κ} {v : α} (hv : ¬ live v) :
    Covers live ahead (Function.update view k (some v)) (Function.update last k (some v)) ↔
      ∀ k', k' ≠ k → Lost live view last k' →
        ∃ k'', k'' ≠ k ∧ Holds live view k'' ∧ ahead k'' k' := by
  constructor
  · intro hc k' hkk hlost
    obtain ⟨k'', hk'', ha⟩ := hc k' ⟨(holds_update_of_ne hkk _).mpr hlost.1,
      fun h => hlost.2 ((holds_update_of_ne hkk _).mp h)⟩
    have hne : k'' ≠ k := by
      rintro rfl
      exact hv (holds_update_self.mp hk'')
    exact ⟨k'', hne, (holds_update_of_ne hne _).mp hk'', ha⟩
  · rintro hc k' ⟨hlive, hlost⟩
    have hkk : k' ≠ k := by
      rintro rfl
      exact hv (holds_update_self.mp hlive)
    rw [holds_update_of_ne hkk] at hlive hlost
    obtain ⟨k'', hne, hk'', ha⟩ := hc k' hkk ⟨hlive, hlost⟩
    exact ⟨k'', (holds_update_of_ne hne _).mpr hk'', ha⟩

/-- A write that the view misses keeps it covering exactly when it is a deletion or lies behind a
key that is shown. -/
theorem Covers.skip_iff (h : Covers live ahead view last) {k : κ} (hk : view k = none) (v : α) :
    Covers live ahead view (Function.update last k (some v)) ↔
      (live v → ∃ k', Holds live view k' ∧ ahead k' k) := by
  have hlost : ¬ Holds live view k := by simp [Holds, hk]
  constructor
  · exact fun hc hv => hc k ⟨holds_update_self.mpr hv, hlost⟩
  · rintro hc k' ⟨hlive, hlost'⟩
    by_cases hkk : k' = k
    · subst hkk
      exact hc (holds_update_self.mp hlive)
    · exact h k' ⟨(holds_update_of_ne hkk _).mp hlive, hlost'⟩

/-- After any change of what is shown, a live write at the head of the view covers it, when the
view covered the store and the write lies ahead of all that was shown. -/
theorem Covers.write_head [IsTrans κ ahead] (h : Covers live ahead view last) {k : κ}
    {v : α} (hv : live v) (hhead : ∀ k', Holds live view k' → k' = k ∨ ahead k k')
    (view' : κ → Option α) :
    Covers live ahead (Function.update view' k (some v)) (Function.update last k (some v)) := by
  rintro k' ⟨hlive, hlost⟩
  have hkk : k' ≠ k := by
    rintro rfl
    exact hlost (holds_update_self.mpr hv)
  rw [holds_update_of_ne hkk] at hlive
  refine ⟨k, holds_update_self.mpr hv, ?_⟩
  by_cases hk' : Holds live view k'
  · exact (hhead k' hk').resolve_left hkk
  · obtain ⟨k'', hk'', ha⟩ := h k' ⟨hlive, hk'⟩
    rcases hhead k'' hk'' with rfl | ha'
    · exact ha
    · exact IsTrans.trans _ _ _ ha' ha

end PartialView

end TradingInfrastructure
