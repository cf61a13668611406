import TradingInfrastructure.Foundations.Runs
import TradingInfrastructure.Foundations.Streaks

/-!
# Fixed windows

A window of a width counts calls and admits the first of them, up to a limit. When it is over, the
next call that it counts starts it again. What is known of a call stands in a log (`WindowLog`),
which the window may share with others that do not count the same calls.

Between two starts no more than the limit are admitted (`countP_admitted_le`), so in an interval of
the width no more than twice as many (`countP_interval_le`), since two windows cover it; and what is
refused finds the limit counted (`limit_le_counted`).
-/

namespace TradingInfrastructure

/-- What a log says of a call: its time, whether the window counts it, whether it starts the window
again, and whether it is admitted. -/
structure WindowLog (α : Type*) where
  time : α → ℤ
  counted : α → Bool
  opens : α → Bool
  admitted : α → Bool

/-- A window: when it started, and how many calls it has counted. -/
structure FixedWindow where
  start : ℤ
  count : ℕ

namespace FixedWindow

variable {α : Type*}

/-- The window that counts a call at a time. -/
def current (width : ℤ) (w : FixedWindow) (now : ℤ) : FixedWindow :=
  if width ≤ now - w.start then ⟨now, 0⟩ else w

/-- The window after a call. -/
def after (r : WindowLog α) (width : ℤ) (w : FixedWindow) (a : α) : FixedWindow :=
  if r.counted a then
    ⟨(w.current width (r.time a)).start, (w.current width (r.time a)).count + 1⟩
  else w

/-- The log says of a call what the window does. -/
structure Logs (r : WindowLog α) (width : ℤ) (limit : ℕ) (w : FixedWindow) (a : α) : Prop where
  opens : r.opens a = (r.counted a && decide (width ≤ r.time a - w.start))
  admitted : r.admitted a =
    (r.counted a && decide ((w.current width (r.time a)).count < limit))

/-- **A log of what a window does**. -/
abbrev LogsAll (r : WindowLog α) (width : ℤ) (limit : ℕ) : FixedWindow → List α → Prop :=
  AllSteps (after r width) (Logs r width limit)

variable {r : WindowLog α} {width : ℤ} {limit : ℕ} {w : FixedWindow} {a : α} {log : List α}

/-! ## One call -/

/-- What a window does with a call: it does not count it, or counts it, or starts again with it. -/
inductive Step (r : WindowLog α) (width : ℤ) (limit : ℕ) (w : FixedWindow) (a : α) : Prop
  | passes (hcounted : r.counted a = false) (hopens : r.opens a = false)
      (hadmitted : r.admitted a = false) (hafter : w.after r width a = w)
  | counts (hcounted : r.counted a = true) (hopens : r.opens a = false)
      (hadmitted : r.admitted a = decide (w.count < limit)) (hnow : r.time a < w.start + width)
      (hafter : w.after r width a = ⟨w.start, w.count + 1⟩)
  | starts (hcounted : r.counted a = true) (hopens : r.opens a = true)
      (hadmitted : r.admitted a = decide (0 < limit)) (hnow : w.start + width ≤ r.time a)
      (hafter : w.after r width a = ⟨r.time a, 1⟩)

theorem Logs.step (h : Logs r width limit w a) : Step r width limit w a := by
  obtain ⟨hopens, hadmitted⟩ := h
  cases hcounted : r.counted a with
  | false =>
    rw [hcounted, Bool.false_and] at hopens hadmitted
    exact .passes hcounted hopens hadmitted (by simp [after, hcounted])
  | true =>
    rw [hcounted, Bool.true_and] at hopens hadmitted
    by_cases hover : width ≤ r.time a - w.start
    · have hcurrent : w.current width (r.time a) = ⟨r.time a, 0⟩ := if_pos hover
      rw [hcurrent] at hadmitted
      exact .starts hcounted (by simp [hopens, hover]) hadmitted (by omega)
        (by simp [after, hcounted, hcurrent])
    · have hcurrent : w.current width (r.time a) = w := if_neg hover
      rw [hcurrent] at hadmitted
      exact .counts hcounted (by simp [hopens, hover]) hadmitted (by omega)
        (by simp [after, hcounted, hcurrent])

/-! ## Between two starts -/

/-- The window has counted what came since its last start, and has admitted the first of it. -/
theorem LogsAll.counts (h : LogsAll r width limit w log) (hw : w.count = 0) :
    (sinceReset r.opens log).countP r.counted = (log.foldl (after r width) w).count ∧
      (sinceReset r.opens log).countP r.admitted =
        min (log.foldl (after r width) w).count limit := by
  induction log using List.reverseRecOn with
  | nil => simp [hw]
  | append_singleton log a ih =>
    obtain ⟨hlog, ha, -⟩ := allSteps_append.mp h
    obtain ⟨hcount, hpassed⟩ := ih hlog
    rw [List.foldl_append, List.foldl_cons, List.foldl_nil]
    cases ha.step with
    | passes hcounted hopens hadmitted hafter =>
      rw [hafter, sinceReset_of_not_reset r.opens hopens]
      simp [hcounted, hadmitted, hcount, hpassed]
    | counts hcounted hopens hadmitted _ hafter =>
      rw [hafter, sinceReset_of_not_reset r.opens hopens]
      simp only [List.countP_append, List.countP_singleton, hcounted, hadmitted, hcount, hpassed,
        if_true, decide_eq_true_eq, true_and]
      split <;> omega
    | starts hcounted hopens hadmitted _ hafter =>
      rw [hafter, sinceReset_of_reset r.opens hopens]
      simp only [List.countP_singleton, hcounted, hadmitted, if_true, decide_eq_true_eq, true_and]
      split <;> omega

/-- **Between two starts no more than the limit are admitted**. -/
theorem LogsAll.countP_admitted_le (h : LogsAll r width limit w log) (hw : w.count = 0)
    {stretch : List α} (hstretch : stretch <:+: log)
    (hopens : ∀ a ∈ stretch.tail, r.opens a = false) : stretch.countP r.admitted ≤ limit := by
  obtain ⟨before, rest, rfl⟩ := hstretch
  have hstretch : LogsAll r width limit w (before ++ stretch) := (allSteps_append.mp h).1
  have hpassed := (hstretch.counts hw).2
  have hsuffix := suffix_sinceReset r.opens (List.suffix_append before stretch) hopens
  exact hsuffix.sublist.countP_le.trans (hpassed.trans_le (min_le_right ..))

/-- **What is refused finds the limit counted** since the last start. -/
theorem LogsAll.limit_le_counted {before rest : List α}
    (h : LogsAll r width limit w (before ++ a :: rest)) (hw : w.count = 0)
    (hcounted : r.counted a = true) (hrefused : r.admitted a = false) :
    limit ≤ (sinceReset r.opens (before ++ [a])).dropLast.countP r.counted := by
  have hbefore : LogsAll r width limit w before := (allSteps_append.mp h).1
  obtain ⟨ha, -⟩ := (allSteps_append.mp h).2
  have hcount := (hbefore.counts hw).1
  cases ha.step with
  | passes hpasses => exact absurd (hcounted.symm.trans hpasses) (by decide)
  | counts _ hopens hadmitted =>
    rw [sinceReset_of_not_reset r.opens hopens, List.dropLast_concat, hcount]
    simpa [hadmitted] using hrefused
  | starts _ _ hadmitted =>
    have hzero : limit = 0 := by simpa [hadmitted] using hrefused
    exact hzero ▸ Nat.zero_le _

/-! ## In an interval -/

variable {t : ℤ}

/-- The number admitted when a call is added to the front. -/
theorem countP_admitted_cons (a : α) (log : List α) :
    (a :: log).countP r.admitted = log.countP r.admitted + if r.admitted a then 1 else 0 :=
  List.countP_cons

/-- A window that has started after `t` does not start again up to `t + width`. -/
theorem LogsAll.countP_le_of_started (h : LogsAll r width limit w log) (hstart : t < w.start)
    (hlog : ∀ a ∈ log, r.time a ≤ t + width) : log.countP r.admitted ≤ limit - w.count := by
  induction log generalizing w with
  | nil => simp
  | cons a log ih =>
    have hrest : ∀ b ∈ log, r.time b ≤ t + width := fun b hb => hlog b (by simp [hb])
    have ha := hlog a (by simp)
    obtain ⟨hfirst, hlater⟩ := h
    rw [countP_admitted_cons]
    cases hfirst.step with
    | passes _ _ hadmitted hafter =>
      rw [hafter] at hlater
      simpa [hadmitted] using ih hlater hstart hrest
    | counts _ _ hadmitted _ hafter =>
      rw [hafter] at hlater
      have hcount : log.countP r.admitted ≤ limit - (w.count + 1) := ih hlater hstart hrest
      simp only [hadmitted, decide_eq_true_eq]
      split <;> omega
    | starts _ _ _ hnow => omega

/-- A window that is not over at `t` starts at most once more up to `t + width`. -/
theorem LogsAll.countP_le_of_current (h : LogsAll r width limit w log)
    (hcurrent : t < w.start + width) (hlog : ∀ a ∈ log, r.time a ≤ t + width) :
    log.countP r.admitted ≤ (limit - w.count) + limit := by
  induction log generalizing w with
  | nil => simp
  | cons a log ih =>
    have hrest : ∀ b ∈ log, r.time b ≤ t + width := fun b hb => hlog b (by simp [hb])
    obtain ⟨hfirst, hlater⟩ := h
    rw [countP_admitted_cons]
    cases hfirst.step with
    | passes _ _ hadmitted hafter =>
      rw [hafter] at hlater
      simpa [hadmitted] using ih hlater hcurrent hrest
    | counts _ _ hadmitted _ hafter =>
      rw [hafter] at hlater
      have hcount : log.countP r.admitted ≤ (limit - (w.count + 1)) + limit :=
        ih hlater hcurrent hrest
      simp only [hadmitted, decide_eq_true_eq]
      split <;> omega
    | starts _ _ hadmitted hnow hafter =>
      rw [hafter] at hlater
      have hcount : log.countP r.admitted ≤ limit - 1 :=
        LogsAll.countP_le_of_started hlater (hcurrent.trans_le hnow) hrest
      simp only [hadmitted, decide_eq_true_eq]
      split <;> omega

/-- Calls that all come within a width are counted by two windows. -/
theorem LogsAll.countP_le_of_within (h : LogsAll r width limit w log) (hwidth : 0 < width)
    (hlow : ∀ a ∈ log, t ≤ r.time a) (hhigh : ∀ a ∈ log, r.time a ≤ t + width) :
    log.countP r.admitted ≤ 2 * limit := by
  induction log generalizing w with
  | nil => simp
  | cons a log ih =>
    have hrest : ∀ b ∈ log, r.time b ≤ t + width := fun b hb => hhigh b (by simp [hb])
    have ha := hlow a (by simp)
    obtain ⟨hfirst, hlater⟩ := h
    rw [countP_admitted_cons]
    cases hfirst.step with
    | passes _ _ hadmitted hafter =>
      rw [hafter] at hlater
      simpa [hadmitted] using ih hlater (fun b hb => hlow b (by simp [hb])) hrest
    | counts _ _ hadmitted hnow hafter =>
      -- the window is not over at the first call that it counts
      rw [hafter] at hlater
      have hcount : log.countP r.admitted ≤ (limit - (w.count + 1)) + limit :=
        LogsAll.countP_le_of_current hlater (ha.trans_lt hnow) hrest
      simp only [hadmitted, decide_eq_true_eq]
      split <;> omega
    | starts _ _ hadmitted hnow hafter =>
      rw [hafter] at hlater
      have hcount : log.countP r.admitted ≤ (limit - 1) + limit :=
        LogsAll.countP_le_of_current hlater (ha.trans_lt (lt_add_of_pos_right _ hwidth)) hrest
      simp only [hadmitted, decide_eq_true_eq]
      split <;> omega

/-- A log in the order of time, split at a time. -/
theorem exists_split {time : α → ℤ} (hsorted : log.Pairwise fun a b => time a ≤ time b) (t : ℤ) :
    ∃ early late, log = early ++ late ∧ (∀ a ∈ early, time a ≤ t) ∧ ∀ a ∈ late, t < time a := by
  induction log with
  | nil => exact ⟨[], [], rfl, by simp, by simp⟩
  | cons a log ih =>
    obtain ⟨hfirst, hlater⟩ := List.pairwise_cons.mp hsorted
    by_cases ha : time a ≤ t
    · obtain ⟨early, late, rfl, hearly, hlate⟩ := ih hlater
      exact ⟨a :: early, late, rfl, List.forall_mem_cons.mpr ⟨ha, hearly⟩, hlate⟩
    · refine ⟨[], a :: log, rfl, by simp, List.forall_mem_cons.mpr ⟨not_le.mp ha, ?_⟩⟩
      exact fun b hb => (not_le.mp ha).trans_le (hfirst b hb)

/-- **In an interval of the width no more than twice the limit are admitted**. -/
theorem LogsAll.countP_interval_le (h : LogsAll r width limit w log) (hwidth : 0 < width)
    (hsorted : log.Pairwise fun a b => r.time a ≤ r.time b) (t : ℤ) :
    log.countP (fun a => decide (t ≤ r.time a ∧ r.time a ≤ t + width) && r.admitted a) ≤
      2 * limit := by
  obtain ⟨before, rest, rfl, hbefore, hrest⟩ := exists_split hsorted (t - 1)
  have hsorted' := (List.pairwise_append.mp hsorted).2.1
  obtain ⟨within, behind, rfl, hwithin, hbehind⟩ := exists_split hsorted' (t + width)
  have hlogs : LogsAll r width limit (before.foldl (after r width) w) within :=
    (allSteps_append.mp (allSteps_append.mp h).2).1
  have hnone : ∀ part : List α, (∀ a ∈ part, ¬ (t ≤ r.time a ∧ r.time a ≤ t + width)) →
      part.countP (fun a => decide (t ≤ r.time a ∧ r.time a ≤ t + width) && r.admitted a) = 0 :=
    fun part hpart => List.countP_eq_zero.mpr fun a ha => by simp [hpart a ha]
  rw [List.countP_append, List.countP_append,
    hnone before fun a ha hin => absurd (hbefore a ha) (by omega),
    hnone behind fun a ha hin => absurd (hbehind a ha) (by omega), zero_add, add_zero]
  refine le_trans (List.countP_mono_left fun a _ hin => (Bool.and_eq_true_iff.mp hin).2) ?_
  exact hlogs.countP_le_of_within hwidth
    (fun a ha => by have := hrest a (by simp [ha]); omega) hwithin

end FixedWindow

end TradingInfrastructure
