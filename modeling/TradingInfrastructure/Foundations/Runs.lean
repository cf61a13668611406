import Mathlib.Tactic

/-!
# Runs and their invariants

A machine takes one input after another. `AllSteps` says that every step of a run meets a
condition on the input and on the state it starts from. The rules say what a property of the
states needs to hold along a run: that every step keeps it (`foldl_induction`), that every step
that meets the condition does (`AllSteps.foldl`), or that exactly those steps do
(`forall_prefix_iff_allSteps`). A step may also put something out (`transcript`).

A step may read memory that the code has not set. Two runs take the same inputs, each with what its
own memory holds in that step. When the steps that meet a condition on the two memories keep the
states alike and give the same output, a run of such steps gives the same outputs
(`outputs_congr`). The condition may be on the states of both runs (`outputs_congr_both`).
-/

namespace TradingInfrastructure

variable {σ ι : Type*}

/-- Every step of the run from `s` meets the condition in the state it starts from. -/
def AllSteps (step : σ → ι → σ) (ok : σ → ι → Prop) : σ → List ι → Prop
  | _, [] => True
  | s, x :: xs => ok s x ∧ AllSteps step ok (step s x) xs

instance decidableAllSteps (step : σ → ι → σ) (ok : σ → ι → Prop) [∀ s x, Decidable (ok s x)] :
    ∀ s xs, Decidable (AllSteps step ok s xs)
  | _, [] => isTrue trivial
  | s, x :: xs =>
    have := decidableAllSteps step ok (step s x) xs
    inferInstanceAs (Decidable (_ ∧ _))

variable {step : σ → ι → σ} {ok : σ → ι → Prop} {P : σ → Prop} {legal : ι → Prop}

/-- A run meets the condition when its two parts do. -/
theorem allSteps_append {xs ys : List ι} : ∀ {s : σ},
    AllSteps step ok s (xs ++ ys) ↔ AllSteps step ok s xs ∧
      AllSteps step ok (xs.foldl step s) ys := by
  induction xs with
  | nil => exact (and_iff_right trivial).symm
  | cons x xs ih => exact fun {s} => (and_congr_right fun _ => ih).trans and_assoc.symm

/-- A run that meets two conditions. -/
theorem AllSteps.and {ok' : σ → ι → Prop} {xs : List ι} : ∀ {s : σ}, AllSteps step ok s xs →
    AllSteps step ok' s xs → AllSteps step (fun s x => ok s x ∧ ok' s x) s xs := by
  induction xs with
  | nil => exact fun _ _ => trivial
  | cons x xs ih => exact fun h h' => ⟨⟨h.1, h'.1⟩, ih h.2 h'.2⟩

theorem allSteps_and {ok' : σ → ι → Prop} {xs : List ι} {s : σ} :
    AllSteps step (fun s x => ok s x ∧ ok' s x) s xs ↔
      AllSteps step ok s xs ∧ AllSteps step ok' s xs := by
  refine ⟨fun h => ?_, fun h => h.1.and h.2⟩
  induction xs generalizing s with
  | nil => exact ⟨trivial, trivial⟩
  | cons x xs ih =>
    obtain ⟨hxs, hxs'⟩ := ih h.2
    exact ⟨⟨h.1.1, hxs⟩, h.1.2, hxs'⟩

/-- What every legal step keeps, every legal run keeps. -/
theorem foldl_induction (hstep : ∀ s x, P s → legal x → P (step s x)) {xs : List ι} :
    ∀ {s : σ}, P s → (∀ x ∈ xs, legal x) → P (xs.foldl step s) := by
  induction xs with
  | nil => exact fun h _ => h
  | cons x xs ih =>
    intro s h hl
    exact ih (hstep s x h (hl x (by simp))) fun y hy => hl y (by simp [hy])

/-- What every legal step that meets the condition keeps, every run of such steps keeps. -/
theorem AllSteps.foldl_of_legal (hstep : ∀ s x, P s → legal x → ok s x → P (step s x))
    {xs : List ι} :
    ∀ {s : σ}, P s → (∀ x ∈ xs, legal x) → AllSteps step ok s xs → P (xs.foldl step s) := by
  induction xs with
  | nil => exact fun h _ _ => h
  | cons x xs ih =>
    intro s h hl hok
    exact ih (hstep s x h (hl x (by simp)) hok.1) (fun y hy => hl y (by simp [hy])) hok.2

/-- What every step that meets the condition keeps, every run of such steps keeps. -/
theorem AllSteps.foldl (hstep : ∀ s x, P s → ok s x → P (step s x)) {xs : List ι} {s : σ} (h : P s)
    (hok : AllSteps step ok s xs) : P (xs.foldl step s) :=
  hok.foldl_of_legal (fun s x h (_ : True) hx => hstep s x h hx) h fun _ _ => trivial

/-- One condition on the steps gives another. -/
theorem AllSteps.imp {ok' : σ → ι → Prop} (himp : ∀ s x, ok s x → ok' s x) {xs : List ι} :
    ∀ {s : σ}, AllSteps step ok s xs → AllSteps step ok' s xs := by
  induction xs with
  | nil => exact fun _ => trivial
  | cons x xs ih => exact fun h => ⟨himp _ x h.1, ih h.2⟩

/-- Along a run that keeps an invariant, one condition on the steps gives another. -/
theorem AllSteps.imp_of_invariant {ok' : σ → ι → Prop}
    (hstep : ∀ s x, P s → legal x → ok s x → P (step s x) ∧ ok' s x) {xs : List ι} :
    ∀ {s : σ}, AllSteps step ok s xs → P s → (∀ x ∈ xs, legal x) → AllSteps step ok' s xs := by
  induction xs with
  | nil => exact fun _ _ _ => trivial
  | cons x xs ih =>
    intro s hok h hl
    obtain ⟨hnext, hx⟩ := hstep s x h (hl x (by simp)) hok.1
    exact ⟨hx, ih hok.2 hnext fun y hy => hl y (by simp [hy])⟩

/-- Two conditions that agree wherever the invariant holds agree along a run that keeps it. -/
theorem allSteps_congr {ok' : σ → ι → Prop} (hstep : ∀ s x, P s → P (step s x))
    (hiff : ∀ s x, P s → (ok s x ↔ ok' s x)) {xs : List ι} :
    ∀ {s : σ}, P s → (AllSteps step ok s xs ↔ AllSteps step ok' s xs) := by
  induction xs with
  | nil => exact fun _ => Iff.rfl
  | cons x xs ih =>
    intro s h
    exact and_congr (hiff s x h) (ih (hstep s x h))

/-- A run meets a condition at every step, or it ends where steps lead that do not. -/
theorem allSteps_or_foldl {Late : σ → Prop} (hinv : ∀ s x, P s → P (step s x))
    (hlate : ∀ s x, P s → ¬ ok s x → Late (step s x))
    (hkeep : ∀ s x, P s → Late s → Late (step s x)) {xs : List ι} :
    ∀ {s : σ}, P s → AllSteps step ok s xs ∨ Late (xs.foldl step s) := by
  have hstays : ∀ (ys : List ι) (s : σ), P s → Late s → Late (ys.foldl step s) := fun ys s hs hl =>
    (foldl_induction (P := fun s => P s ∧ Late s)
      (fun s x h (_ : True) => ⟨hinv s x h.1, hkeep s x h.1 h.2⟩) ⟨hs, hl⟩ fun _ _ => trivial).2
  induction xs with
  | nil => exact fun _ => Or.inl trivial
  | cons x xs ih =>
    intro s hs
    by_cases hx : ok s x
    · exact (ih (hinv s x hs)).imp_left fun h => ⟨hx, h⟩
    · exact Or.inr (hstays xs _ (hinv s x hs) (hlate s x hs hx))

/-- A run whose inputs all meet a condition meets it at every step. -/
theorem allSteps_of_forall {xs : List ι} :
    ∀ {s : σ}, (∀ x ∈ xs, legal x) → AllSteps step (fun _ x => legal x) s xs := by
  induction xs with
  | nil => exact fun _ => trivial
  | cons x xs ih => exact fun h => ⟨h x (by simp), ih fun y hy => h y (by simp [hy])⟩

/-- The condition holds of every step of a run: wherever the run is split at a step. -/
theorem allSteps_iff_forall_split {xs : List ι} : ∀ {s : σ}, AllSteps step ok s xs ↔
    ∀ before x after, xs = before ++ x :: after → ok (before.foldl step s) x := by
  induction xs with
  | nil => exact fun {s} => iff_of_true trivial fun before x after h => by cases before <;> cases h
  | cons y xs ih =>
    intro s
    constructor
    · rintro ⟨hy, hxs⟩ before x after heq
      cases before with
      | nil =>
        obtain ⟨rfl, -⟩ := List.cons.inj heq
        exact hy
      | cons z before =>
        obtain ⟨rfl, htail⟩ := List.cons.inj heq
        exact ih.mp hxs before x after htail
    · intro h
      exact ⟨h [] y xs rfl, ih.mpr fun before x after heq =>
        h (y :: before) x after (by rw [heq]; rfl)⟩

/-- Along a run of legal steps, a property that exactly the steps with the condition keep holds in
every state exactly when it holds at the start and every step meets the condition. -/
theorem AllSteps.forall_prefix_iff {Inv : σ → Prop} {fair : σ → ι → Prop}
    (hinv : ∀ s x, Inv s → fair s x → Inv (step s x))
    (hstep : ∀ s x, Inv s → fair s x → P s → (P (step s x) ↔ ok s x)) {xs : List ι} :
    ∀ {s : σ}, Inv s → AllSteps step fair s xs →
      ((∀ pre, pre <+: xs → P (pre.foldl step s)) ↔ P s ∧ AllSteps step ok s xs) := by
  induction xs with
  | nil =>
    intro s _ _
    simp [AllSteps]
  | cons x xs ih =>
    rintro s hs ⟨hx, hfair⟩
    have htail := ih (hinv s x hs hx) hfair
    constructor
    · intro h
      have h0 : P s := h [] (List.nil_prefix)
      have h1 : P (step s x) := h [x] ⟨xs, rfl⟩
      refine ⟨h0, (hstep s x hs hx h0).mp h1, (htail.mp fun pre hpre => ?_).2⟩
      exact h (x :: pre) (List.cons_prefix_cons.mpr ⟨rfl, hpre⟩)
    · rintro ⟨h0, hok, hrest⟩ pre hpre
      rcases List.prefix_cons_iff.mp hpre with rfl | ⟨pre', rfl, hpre'⟩
      · exact h0
      · exact htail.mpr ⟨(hstep s x hs hx h0).mpr hok, hrest⟩ pre' hpre'

/-- The same for a run of legal inputs. -/
theorem forall_prefix_iff_allSteps {Inv : σ → Prop}
    (hinv : ∀ s x, Inv s → legal x → Inv (step s x))
    (hstep : ∀ s x, Inv s → legal x → P s → (P (step s x) ↔ ok s x)) {xs : List ι} {s : σ}
    (hs : Inv s) (hl : ∀ x ∈ xs, legal x) :
    (∀ pre, pre <+: xs → P (pre.foldl step s)) ↔ P s ∧ AllSteps step ok s xs :=
  (allSteps_of_forall hl).forall_prefix_iff hinv hstep hs

/-! ## Steps that may fail for good -/

section StepOrEnd

variable {ε : Type*} {f : σ → ι → Except ε σ}

/-- The step of a machine that ends for good when a step of it throws. -/
def stepOrEnd (f : σ → ι → Except ε σ) (s : Option σ) (x : ι) : Option σ :=
  s.bind fun s => (f s x).toOption

/-- What every step that meets the condition and does not throw keeps, a run of such steps keeps
that is not cut short. -/
theorem AllSteps.foldl_stepOrEnd (hstep : ∀ s x s', P s → ok s x → f s x = .ok s' → P s')
    {xs : List ι} {s t : σ} (hs : P s)
    (hok : AllSteps (stepOrEnd f) (fun o x => ∀ s ∈ o, ok s x) (some s) xs)
    (ht : xs.foldl (stepOrEnd f) (some s) = some t) : P t := by
  have hrun : ∀ u ∈ xs.foldl (stepOrEnd f) (some s), P u := by
    refine AllSteps.foldl (P := fun o => ∀ u ∈ o, P u) (fun o x ho hx => ?_) ?_ hok
    · intro s' hs'
      obtain ⟨s, rfl, hnext⟩ := Option.bind_eq_some_iff.mp hs'
      cases hf : f s x with
      | error e =>
        rw [hf] at hnext
        cases hnext
      | ok s'' =>
        rw [hf] at hnext
        cases hnext
        exact hstep s x s' (ho s rfl) (hx s rfl) hf
    · intro u hu
      exact Option.some.inj hu ▸ hs
  exact hrun t ht

end StepOrEnd

/-! ## Histories -/

section History

variable {α : Type*} {Q : List α → α → Prop} {history : List α} {a : α}

/-- Each item of the history has a property together with the items before it. -/
def AtEach (Q : List α → α → Prop) (history : List α) : Prop :=
  ∀ before x after, history = before ++ x :: after → Q before x

theorem atEach_nil : AtEach Q [] := fun before x after h => by cases before <;> cases h

/-- One more item. -/
theorem atEach_concat : AtEach Q (history ++ [a]) ↔ AtEach Q history ∧ Q history a := by
  constructor
  · intro h
    refine ⟨fun before x after heq => h before x (after ++ [a]) ?_, h history a [] rfl⟩
    rw [heq, List.append_assoc, List.cons_append]
  · rintro ⟨h, ha⟩ before x after heq
    rcases List.eq_nil_or_concat after with rfl | ⟨rest, last, rfl⟩
    · obtain ⟨rfl, hx⟩ := List.append_inj' heq rfl
      cases hx
      exact ha
    · rw [List.concat_eq_append, ← List.cons_append, ← List.append_assoc] at heq
      exact h before x rest (List.append_inj' heq rfl).1

/-- A history of what has been read off the items. -/
theorem atEach_map {β : Type*} (f : β → α) {items : List β} :
    AtEach Q (items.map f) ↔ AtEach (fun before x => Q (before.map f) (f x)) items := by
  induction items using List.reverseRecOn with
  | nil => exact iff_of_true atEach_nil atEach_nil
  | append_singleton items x ih =>
    rw [List.map_append, List.map_singleton, atEach_concat, atEach_concat, ih]

/-- One property of the items and of what is before them gives another. -/
theorem AtEach.imp {Q' : List α → α → Prop} (h : AtEach Q history)
    (himp : ∀ before x, Q before x → Q' before x) : AtEach Q' history :=
  fun before x after heq => himp before x (h before x after heq)

/-- The items that have a property together with the items before them, counted. -/
def countEach (p : List α → α → Bool) (history : List α) : ℕ :=
  (history.foldl (fun r a => (r.1 ++ [a], r.2 + (p r.1 a).toNat)) ([], 0)).2

@[simp] theorem countEach_nil (p : List α → α → Bool) : countEach p [] = 0 := rfl

/-- One more item. -/
theorem countEach_concat (p : List α → α → Bool) (history : List α) (a : α) :
    countEach p (history ++ [a]) = countEach p history + (p history a).toNat := by
  have hfst : ∀ history : List α, (history.foldl
      (fun (r : List α × ℕ) a => (r.1 ++ [a], r.2 + (p r.1 a).toNat)) ([], 0)).1 = history := by
    intro history
    induction history using List.reverseRecOn with
    | nil => rfl
    | append_singleton history a ih => rw [List.foldl_concat, ih]
  rw [countEach, List.foldl_concat, hfst]
  rfl

end History

/-! ## Neighbours in a list -/

section Neighbours

variable {α β : Type*}

/-- The pairs of an item and its successor. -/
def neighbours (items : List α) : List (α × α) := items.zip items.tail

theorem neighbours_concat (items : List α) (a : α) :
    neighbours (items ++ [a]) =
      neighbours items ++ (items.getLast?.map fun last => (last, a)).toList := by
  induction items with
  | nil => rfl
  | cons b items ih =>
    cases items with
    | nil => rfl
    | cons c items =>
      have hcons : neighbours (b :: c :: (items ++ [a])) =
          (b, c) :: neighbours (c :: items ++ [a]) := rfl
      rw [List.cons_append, List.cons_append, hcons, ih]
      rfl

/-- Leaving some items out of what is read off a list leaves nothing out exactly when none of them
is in the list. -/
theorem filterMap_eq_iff {f g : α → Option β} (h : ∀ a, g a = f a ∨ g a = none) {items : List α} :
    items.filterMap f = items.filterMap g ↔ ∀ a ∈ items, g a = f a := by
  have hle : ∀ items : List α, (items.filterMap g).length ≤ (items.filterMap f).length := by
    intro items
    induction items with
    | nil => exact le_rfl
    | cons a items ih =>
      rw [List.filterMap_cons, List.filterMap_cons]
      rcases h a with hsame | hnone
      · rw [hsame]
        cases f a <;> simpa using ih
      · rw [hnone]
        cases f a with
        | none => exact ih
        | some b => exact ih.trans (Nat.le_succ _)
  induction items with
  | nil => simp
  | cons a items ih =>
    rw [List.forall_mem_cons, List.filterMap_cons, List.filterMap_cons]
    rcases h a with hsame | hnone
    · rw [hsame]
      cases f a <;> simpa using ih
    · cases hf : f a with
      | none => simpa [hnone, hf] using ih
      | some b =>
        refine iff_of_false (fun heq => ?_) fun hall => by simp [hnone] at hall
        have := hle items
        rw [hnone] at heq
        have hlength : (items.filterMap f).length + 1 = (items.filterMap g).length :=
          congrArg List.length heq
        omega

end Neighbours

/-! ## Runs with outputs -/

section Transcript

variable {ο : Type*} {step : σ → ι → σ × ο}

/-- The state after a run, with what each step has put out. -/
def transcript (step : σ → ι → σ × ο) (s : σ) (xs : List ι) : σ × List ο :=
  xs.foldl (fun r x => ((step r.1 x).1, r.2 ++ [(step r.1 x).2])) (s, [])

@[simp] theorem transcript_nil (s : σ) : transcript step s [] = (s, []) := rfl

theorem transcript_concat (s : σ) (xs : List ι) (x : ι) :
    transcript step s (xs ++ [x]) =
      ((step (transcript step s xs).1 x).1,
        (transcript step s xs).2 ++ [(step (transcript step s xs).1 x).2]) :=
  List.foldl_concat ..

/-- What holds of the start and nothing, and is kept with the output of every legal step, holds of
every legal run. -/
theorem transcript_induction {P : σ → List ο → Prop}
    (hstep : ∀ s os x, P s os → legal x → P (step s x).1 (os ++ [(step s x).2])) {s : σ}
    (hs : P s []) {xs : List ι} (hl : ∀ x ∈ xs, legal x) :
    P (transcript step s xs).1 (transcript step s xs).2 := by
  induction xs using List.reverseRecOn with
  | nil => exact hs
  | append_singleton xs x ih =>
    rw [transcript_concat]
    exact hstep _ _ x (ih fun y hy => hl y (List.mem_append_left _ hy)) (hl x (by simp))

end Transcript

/-! ## Two runs on different memories -/

section TwoRuns

variable {μ ο : Type*}

/-- The outputs of a run, step by step. -/
def outputs (step : σ → μ → ι → σ × ο) : σ → List (μ × ι) → List ο
  | _, [] => []
  | s, x :: xs => (step s x.1 x.2).2 :: outputs step (step s x.1 x.2).1 xs

/-- The steps of the first of two runs. -/
def firstRun (xs : List (μ × μ × ι)) : List (μ × ι) := xs.map fun x => (x.1, x.2.2)

/-- The steps of the second of two runs. -/
def secondRun (xs : List (μ × μ × ι)) : List (μ × ι) := xs.map fun x => (x.2.1, x.2.2)

variable {step : σ → μ → ι → σ × ο} {alike : σ → σ → Prop} {ok : σ → μ → μ → ι → Prop}

/-- **Two runs that agree**: steps that meet the condition keep the states alike and have the same
output. -/
theorem outputs_congr
    (hstep : ∀ s t m n x, alike s t → ok s m n x →
      alike (step s m x).1 (step t n x).1 ∧ (step s m x).2 = (step t n x).2)
    {xs : List (μ × μ × ι)} {s t : σ} (h : alike s t)
    (hok : AllSteps (fun s x => (step s x.1 x.2.2).1) (fun s x => ok s x.1 x.2.1 x.2.2) s xs) :
    outputs step s (firstRun xs) = outputs step t (secondRun xs) := by
  induction xs generalizing s t with
  | nil => rfl
  | cons x xs ih =>
    obtain ⟨hnext, houtput⟩ := hstep s t x.1 x.2.1 x.2.2 h hok.1
    exact congrArg₂ List.cons houtput (ih hnext hok.2)

/-- Two runs side by side. -/
def bothStep (step : σ → μ → ι → σ × ο) (p : σ × σ) (x : μ × μ × ι) : σ × σ :=
  ((step p.1 x.1 x.2.2).1, (step p.2 x.2.1 x.2.2).1)

/-- **Two runs that agree**, by a condition on the states of both. -/
theorem outputs_congr_both {ok : σ → σ → μ → μ → ι → Prop}
    (hstep : ∀ s t m n x, alike s t → ok s t m n x →
      alike (step s m x).1 (step t n x).1 ∧ (step s m x).2 = (step t n x).2)
    {xs : List (μ × μ × ι)} {s t : σ} (h : alike s t)
    (hok : AllSteps (bothStep step) (fun p x => ok p.1 p.2 x.1 x.2.1 x.2.2) (s, t) xs) :
    outputs step s (firstRun xs) = outputs step t (secondRun xs) := by
  induction xs generalizing s t with
  | nil => rfl
  | cons x xs ih =>
    obtain ⟨hnext, houtput⟩ := hstep s t x.1 x.2.1 x.2.2 h hok.1
    exact congrArg₂ List.cons houtput (ih hnext hok.2)

end TwoRuns

end TradingInfrastructure
