import Mathlib.Data.List.DropRight
import Mathlib.Tactic

/-!
# Runs of qualifying events

The run that a history ends with is its longest suffix of qualifying events, and `runLength` is its
length: a qualifying event makes it one longer, any other ends it (`runLength_concat`). A counter
that does the same is that length. Where a flag of a system decides which events qualify, what
counts is the part of the inputs since the flag last changed (`sinceSwitch`).

A counter that events raise and some of them reset is a count over the part of the history from the
last reset on (`sinceReset`). A stretch of the history without a reset behind its first event lies
in that part of the history up to its end (`suffix_sinceReset`), so a bound on the counter bounds
every such stretch.
-/

namespace TradingInfrastructure

variable {α σ : Type*}

/-! ## The run at the end -/

/-- The number of qualifying events that a history ends with. -/
def runLength (p : α → Bool) (history : List α) : ℕ := (history.rtakeWhile p).length

@[simp] theorem runLength_nil (p : α → Bool) : runLength p [] = 0 := by
  rw [runLength, List.rtakeWhile_nil, List.length_nil]

theorem runLength_concat (p : α → Bool) (history : List α) (a : α) :
    runLength p (history ++ [a]) = if p a then runLength p history + 1 else 0 := by
  rw [runLength, List.rtakeWhile_concat, runLength]
  split
  · rw [List.length_append, List.length_singleton]
  · rfl

/-- **A run of `n` events at the end** is a suffix of `n` qualifying events. -/
theorem le_runLength_iff (p : α → Bool) (n : ℕ) (history : List α) :
    n ≤ runLength p history ↔
      ∃ run, run <:+ history ∧ n ≤ run.length ∧ ∀ a ∈ run, p a = true := by
  constructor
  · intro h
    exact ⟨history.rtakeWhile p, List.rtakeWhile_suffix p history, h,
      fun a ha => List.mem_rtakeWhile_imp ha⟩
  · rintro ⟨run, hsuffix, hlength, hrun⟩
    induction history using List.reverseRecOn generalizing n run with
    | nil =>
      rw [List.suffix_nil.mp hsuffix] at hlength
      exact hlength.trans (Nat.zero_le _)
    | append_singleton history a ih =>
      rcases List.suffix_concat_iff.mp hsuffix with rfl | ⟨run, rfl, hrest⟩
      · exact hlength.trans (Nat.zero_le _)
      · rw [runLength_concat, if_pos (hrun a (by simp))]
        have := ih (n - 1) run hrest (by simp at hlength; omega)
          fun b hb => hrun b (List.mem_append_left _ hb)
        omega

/-! ## Since the flag last changed -/

variable (step : σ → α → σ) (flag : σ → Bool) (s : σ)

/-- The inputs of a run since a flag of the state last changed. -/
def sinceSwitch (inputs : List α) : List α :=
  (inputs.foldl (fun r a =>
    (step r.1 a, if flag (step r.1 a) = flag r.1 then r.2 ++ [a] else [])) (s, [])).2

@[simp] theorem sinceSwitch_nil : sinceSwitch step flag s [] = [] := rfl

theorem sinceSwitch_concat (inputs : List α) (a : α) :
    sinceSwitch step flag s (inputs ++ [a]) =
      if flag (step (inputs.foldl step s) a) = flag (inputs.foldl step s) then
        sinceSwitch step flag s inputs ++ [a]
      else [] := by
  have hstate : ∀ inputs : List α, (inputs.foldl (fun r a =>
      (step r.1 a, if flag (step r.1 a) = flag r.1 then r.2 ++ [a] else [])) (s, [])).1 =
      inputs.foldl step s := by
    intro inputs
    induction inputs using List.reverseRecOn with
    | nil => rfl
    | append_singleton inputs a ih => rw [List.foldl_concat, List.foldl_concat, ih]
  rw [sinceSwitch, List.foldl_concat, hstate]
  rfl

/-! ## Since the last reset -/

section SinceReset

variable {α : Type*} (reset : α → Bool)

/-- The part of a history from its last reset on, or all of it. -/
def sinceReset (history : List α) : List α :=
  history.foldl (fun window a => if reset a then [a] else window ++ [a]) []

@[simp] theorem sinceReset_nil : sinceReset reset ([] : List α) = [] := rfl

theorem sinceReset_append (history : List α) (a : α) :
    sinceReset reset (history ++ [a]) =
      if reset a then [a] else sinceReset reset history ++ [a] := by
  rw [sinceReset, List.foldl_append]
  rfl

/-- It starts with the last reset. -/
theorem sinceReset_of_reset {a : α} (h : reset a = true) (history : List α) :
    sinceReset reset (history ++ [a]) = [a] := by
  rw [sinceReset_append, if_pos h]

/-- Without a reset it grows. -/
theorem sinceReset_of_not_reset {a : α} (h : reset a = false) (history : List α) :
    sinceReset reset (history ++ [a]) = sinceReset reset history ++ [a] := by
  rw [sinceReset_append, h]
  rfl

/-- **A stretch without a reset** behind its first event lies in what has happened since the last
reset before its end. -/
theorem suffix_sinceReset {history stretch : List α} (h : stretch <:+ history)
    (hreset : ∀ a ∈ stretch.tail, reset a = false) : stretch <:+ sinceReset reset history := by
  induction history using List.reverseRecOn generalizing stretch with
  | nil => exact h
  | append_singleton history a ih =>
    rcases List.suffix_concat_iff.mp h with rfl | ⟨before, rfl, hbefore⟩
    · exact List.nil_suffix
    · cases ha : reset a with
      | true =>
        -- the last event is a reset, so it is the first of the stretch
        cases before with
        | nil => rw [sinceReset_of_reset reset ha, List.nil_append]
        | cons b before => exact absurd (hreset a (by simp)) (by simp [ha])
      | false =>
        rw [sinceReset_of_not_reset reset ha]
        refine List.suffix_concat_iff.mpr (Or.inr ⟨before, rfl, ih hbefore fun b hb => ?_⟩)
        refine hreset b ?_
        cases before with
        | nil => cases hb
        | cons c before => exact List.mem_append_left _ hb

end SinceReset

end TradingInfrastructure
