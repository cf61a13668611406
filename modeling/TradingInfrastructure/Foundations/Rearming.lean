import TradingInfrastructure.Foundations.Runs
import TradingInfrastructure.Foundations.Streaks

/-!
# An alarm that has to be armed again

A run of bad inputs raises the alarm, which is disarmed by that and armed again by a run of good
inputs; any other input ends both runs. The alarm is raised by such a run only
(`le_runLength_of_raises`), as soon as there is one while it is armed (`raises_of_armed`), and not
again before a run of good inputs (`exists_rearming_run`).
-/

namespace TradingInfrastructure

/-- Which inputs are bad, which of the others are good, and how many in a row count. -/
structure RearmingAlarm (α : Type*) where
  bad : α → Bool
  good : α → Bool
  triggerRequired : ℕ
  rearmRequired : ℕ

/-- The two streaks, and whether the alarm is armed. -/
structure AlarmStreaks where
  bad : ℕ := 0
  good : ℕ := 0
  armed : Bool := true
  deriving DecidableEq

namespace RearmingAlarm

variable {α : Type*} (A : RearmingAlarm α)

/-- Whether an input raises the alarm. -/
def raises (s : AlarmStreaks) (a : α) : Bool :=
  A.bad a && s.armed && decide (A.triggerRequired ≤ s.bad + 1)

def step (s : AlarmStreaks) (a : α) : AlarmStreaks :=
  if A.bad a then
    if A.raises s a then ⟨0, 0, false⟩ else ⟨s.bad + 1, 0, s.armed⟩
  else if A.good a then ⟨0, s.good + 1, s.armed || decide (A.rearmRequired ≤ s.good + 1)⟩
  else ⟨0, 0, s.armed⟩

/-- After the inputs, from an armed alarm without streaks. -/
def after (inputs : List α) : AlarmStreaks := inputs.foldl A.step {}

theorem after_concat (inputs : List α) (a : α) :
    A.after (inputs ++ [a]) = A.step (A.after inputs) a :=
  List.foldl_concat ..

/-! ## One input -/

variable {A} {s : AlarmStreaks} {a : α}

/-- What an input does. -/
inductive Outcome (A : RearmingAlarm α) (s : AlarmStreaks) (a : α) : AlarmStreaks → Prop
  | raised (hraises : A.raises s a = true) : Outcome A s a ⟨0, 0, false⟩
  | counted (hbad : A.bad a = true) (hraises : A.raises s a = false) :
      Outcome A s a ⟨s.bad + 1, 0, s.armed⟩
  | healed (hbad : A.bad a = false) (hgood : A.good a = true) :
      Outcome A s a ⟨0, s.good + 1, s.armed || decide (A.rearmRequired ≤ s.good + 1)⟩
  | ended (hbad : A.bad a = false) (hgood : A.good a = false) : Outcome A s a ⟨0, 0, s.armed⟩

theorem outcome_step : Outcome A s a (A.step s a) := by
  unfold step
  split_ifs with hbad hraises hgood
  · exact .raised hraises
  · exact .counted hbad (by simpa using hraises)
  · exact .healed (by simpa using hbad) hgood
  · exact .ended (by simpa using hbad) (by simpa using hgood)

theorem raises_iff :
    A.raises s a = true ↔ A.bad a = true ∧ s.armed = true ∧ A.triggerRequired ≤ s.bad + 1 := by
  simp [raises, and_assoc]

/-! ## What raises the alarm -/

variable (A)

/-- The streak of bad inputs is no longer than their run. -/
theorem bad_after_le (inputs : List α) : (A.after inputs).bad ≤ runLength A.bad inputs := by
  induction inputs using List.reverseRecOn with
  | nil => exact le_rfl
  | append_singleton inputs a ih =>
    rw [after_concat, runLength_concat]
    generalize hnext : A.step (A.after inputs) a = next
    have houtcome : Outcome A (A.after inputs) a next := hnext ▸ outcome_step
    cases houtcome with
    | raised => exact Nat.zero_le _
    | counted hbad =>
      rw [if_pos hbad]
      exact Nat.succ_le_succ ih
    | healed => exact Nat.zero_le _
    | ended => exact Nat.zero_le _

/-- **An alarm ends a run of bad inputs**, as long as it takes. -/
theorem le_runLength_of_raises {inputs : List α} {a : α}
    (h : A.raises (A.after inputs) a = true) :
    A.triggerRequired ≤ runLength A.bad (inputs ++ [a]) := by
  obtain ⟨hbad, -, htrigger⟩ := raises_iff.mp h
  rw [runLength_concat, if_pos hbad]
  exact htrigger.trans (Nat.succ_le_succ (A.bad_after_le inputs))

/-- While the alarm is armed, the streak is the run, and too short. -/
theorem bad_after_of_armed (htrigger : 1 ≤ A.triggerRequired) (inputs : List α)
    (harmed : (A.after inputs).armed = true) :
    (A.after inputs).bad = runLength A.bad inputs ∧
      (A.after inputs).bad < A.triggerRequired := by
  induction inputs using List.reverseRecOn with
  | nil => exact ⟨rfl, htrigger⟩
  | append_singleton inputs a ih =>
    rw [after_concat] at harmed ⊢
    rw [runLength_concat]
    generalize hnext : A.step (A.after inputs) a = next at harmed ⊢
    have houtcome : Outcome A (A.after inputs) a next := hnext ▸ outcome_step
    cases houtcome with
    | raised => exact absurd harmed (by simp)
    | counted hbad hraises =>
      obtain ⟨hrun, -⟩ := ih harmed
      rw [if_pos hbad]
      refine ⟨congrArg (· + 1) hrun, not_le.mp fun hlong => ?_⟩
      have hraised : A.raises (A.after inputs) a = true := raises_iff.mpr ⟨hbad, harmed, hlong⟩
      exact absurd hraised (Bool.eq_false_iff.mp hraises)
    | healed hbad => exact ⟨by simp [hbad], htrigger⟩
    | ended hbad => exact ⟨by simp [hbad], htrigger⟩

/-- **An armed alarm is raised** by the input that completes a run. -/
theorem raises_of_armed (htrigger : 1 ≤ A.triggerRequired) {inputs : List α} {a : α}
    (harmed : (A.after inputs).armed = true)
    (hrun : A.triggerRequired ≤ runLength A.bad (inputs ++ [a])) :
    A.raises (A.after inputs) a = true := by
  obtain ⟨hbad, -⟩ := A.bad_after_of_armed htrigger inputs harmed
  rw [runLength_concat] at hrun
  split_ifs at hrun with ha
  · exact raises_iff.mpr ⟨ha, harmed, hbad ▸ hrun⟩
  · omega

/-! ## What arms it again -/

/-- A good input is what a run of them is made of, or the alarm is armed anyway. -/
def Proves (evidence : α → Bool) (s : AlarmStreaks) (a : α) : Prop :=
  s.armed = false → A.bad a = false → A.good a = true → evidence a = true

variable {A}

/-- From a disarmed alarm without streaks: it is armed after a run only, and until then its streak
of good inputs is no longer than theirs. -/
theorem armed_of_rearming_run {evidence : α → Bool} {bad : ℕ} (inputs : List α)
    (h : AllSteps A.step (A.Proves evidence) ⟨bad, 0, false⟩ inputs) :
    ((inputs.foldl A.step ⟨bad, 0, false⟩).armed = true →
        ∃ run, run <:+: inputs ∧ A.rearmRequired ≤ run.length ∧
          ∀ x ∈ run, evidence x = true) ∧
      ((inputs.foldl A.step ⟨bad, 0, false⟩).armed = false →
        (inputs.foldl A.step ⟨bad, 0, false⟩).good ≤ runLength evidence inputs) := by
  induction inputs using List.reverseRecOn with
  | nil => exact ⟨fun h => absurd h (by simp), fun _ => Nat.zero_le _⟩
  | append_singleton inputs a ih =>
    obtain ⟨hinputs, ha, -⟩ := allSteps_append.mp h
    obtain ⟨harmed, hdisarmed⟩ := ih hinputs
    rw [List.foldl_concat, runLength_concat]
    generalize inputs.foldl A.step ⟨bad, 0, false⟩ = s at ha harmed hdisarmed ⊢
    have hearlier : s.armed = true → ∃ run, run <:+: inputs ++ [a] ∧
        A.rearmRequired ≤ run.length ∧ ∀ x ∈ run, evidence x = true := by
      intro hs
      obtain ⟨run, hinside, hrun⟩ := harmed hs
      exact ⟨run, hinside.trans (List.prefix_append inputs [a]).isInfix, hrun⟩
    generalize hnext : A.step s a = next
    have houtcome : Outcome A s a next := hnext ▸ outcome_step
    cases houtcome with
    | raised => exact ⟨fun h => absurd h (by simp), fun _ => Nat.zero_le _⟩
    | counted => exact ⟨hearlier, fun _ => Nat.zero_le _⟩
    | ended => exact ⟨hearlier, fun _ => Nat.zero_le _⟩
    | healed hbad hgood =>
      cases hs : s.armed with
      | true => exact ⟨fun _ => hearlier hs, fun h => absurd h (by simp)⟩
      | false =>
        -- the input makes the run one longer, and may complete it
        have hevidence := ha hs hbad hgood
        have hle : s.good + 1 ≤ runLength evidence (inputs ++ [a]) := by
          rw [runLength_concat, if_pos hevidence]
          exact Nat.succ_le_succ (hdisarmed hs)
        refine ⟨fun hrearmed => ?_, fun _ => by rwa [runLength_concat] at hle⟩
        have hrequired : A.rearmRequired ≤ s.good + 1 := by simpa [hs] using hrearmed
        obtain ⟨run, hsuffix, hrun⟩ :=
          (le_runLength_iff evidence _ _).mp (hrequired.trans hle)
        exact ⟨run, hsuffix.isInfix, hrun⟩

/-- **Between two alarms lies a run of good inputs**, as long as it takes, and with whatever the
good inputs are evidence of while the alarm is disarmed. -/
theorem exists_rearming_run {evidence : α → Bool} {before mid : List α} {a b : α}
    (h : AllSteps A.step (A.Proves evidence) {} (before ++ a :: mid))
    (ha : A.raises (A.after before) a = true)
    (hb : A.raises (A.after (before ++ a :: mid)) b = true) :
    ∃ run, run <:+: mid ∧ A.rearmRequired ≤ run.length ∧ ∀ x ∈ run, evidence x = true := by
  obtain ⟨-, -, hmid⟩ := allSteps_append.mp h
  have hstep : A.step (before.foldl A.step {}) a = ⟨0, 0, false⟩ := by
    obtain ⟨hbad, -⟩ := raises_iff.mp ha
    rw [step, if_pos hbad]
    exact if_pos ha
  rw [hstep] at hmid
  obtain ⟨-, harmed, -⟩ := raises_iff.mp hb
  rw [after, List.foldl_append, List.foldl_cons, hstep] at harmed
  exact (armed_of_rearming_run mid hmid).1 harmed

end RearmingAlarm

end TradingInfrastructure
