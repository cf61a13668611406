import Mathlib.Tactic
import TradingInfrastructure.Foundations.Runs

/-!
# Messages in fragments

A receiver gets the fragments of messages, the last fragment of each flagged, on one connection
after another, and hands over what it has in its buffer at a last fragment. The buffer has a
capacity; a fragment that it has no room for empties it. A run of a receiver hands over exactly
the messages that fit, in order, when each message that fits is not empty and finds the buffer
empty, and each that does not fit has nothing left after the fragment that empties the buffer
(`handed_eq_due_iff`).
-/

namespace TradingInfrastructure

namespace Reassembly

variable {σ α : Type*} {cap : ℕ} {buf : List α} {d : List α} {ds : List (List α)}

/-! ## The buffer -/

/-- A fragment is added to the buffer, which is emptied when there is no room. -/
def push (cap : ℕ) (buf d : List α) : List α := if buf.length + d.length ≤ cap then buf ++ d else []

/-- The buffer after several fragments. -/
def pushAll (cap : ℕ) (buf : List α) (ds : List (List α)) : List α := ds.foldl (push cap) buf

/-- A fragment empties the buffer, and nothing follows it. -/
def DropsAll (cap : ℕ) (buf : List α) (ds : List (List α)) : Prop :=
  ∃ before d after, ds = before ++ d :: after ∧
    cap < (pushAll cap buf before).length + d.length ∧ after.flatten = []

theorem pushAll_cons (cap : ℕ) (buf d : List α) (ds : List (List α)) :
    pushAll cap buf (d :: ds) = pushAll cap (push cap buf d) ds := rfl

theorem pushAll_concat (cap : ℕ) (buf : List α) (ds : List (List α)) (d : List α) :
    pushAll cap buf (ds ++ [d]) = push cap (pushAll cap buf ds) d := by
  simp [pushAll]

theorem pushAll_of_fits (h : buf.length + ds.flatten.length ≤ cap) :
    pushAll cap buf ds = buf ++ ds.flatten := by
  induction ds generalizing buf with
  | nil => simp [pushAll]
  | cons d ds ih =>
    rw [List.flatten_cons, List.length_append] at h
    have hpush : push cap buf d = buf ++ d := if_pos (by omega)
    rw [pushAll_cons, hpush, ih (by rw [List.length_append]; omega), List.flatten_cons,
      List.append_assoc]

theorem length_pushAll_le (cap : ℕ) (buf : List α) (ds : List (List α)) :
    (pushAll cap buf ds).length ≤ buf.length + ds.flatten.length := by
  induction ds generalizing buf with
  | nil => exact Nat.le_add_right _ _
  | cons d ds ih =>
    have hpush : (push cap buf d).length ≤ buf.length + d.length := by
      unfold push
      split_ifs
      · rw [List.length_append]
      · exact Nat.zero_le _
    rw [List.flatten_cons, List.length_append]
    exact (ih (push cap buf d)).trans (by omega)

/-- What does not fit leaves less than came. -/
theorem length_pushAll_lt (hbuf : buf.length ≤ cap)
    (h : cap < buf.length + ds.flatten.length) :
    (pushAll cap buf ds).length < ds.flatten.length := by
  induction ds generalizing buf with
  | nil =>
    rw [List.flatten_nil, List.length_nil] at h
    omega
  | cons d ds ih =>
    rw [pushAll_cons]
    rw [List.flatten_cons, List.length_append] at h ⊢
    unfold push
    split_ifs with hroom
    · rw [← List.length_append] at hroom
      have hrest := ih hroom (by rw [List.length_append]; omega)
      omega
    · have hrest := length_pushAll_le cap ([] : List α) ds
      rw [List.length_nil] at hrest
      omega

/-- **The buffer is empty** after fragments that have nothing, or one of which empties it with
nothing after it. -/
theorem pushAll_eq_nil_iff :
    pushAll cap buf ds = [] ↔ (buf = [] ∧ ds.flatten = []) ∨ DropsAll cap buf ds := by
  induction ds using List.reverseRecOn with
  | nil =>
    refine ⟨fun h => Or.inl ⟨h, rfl⟩, ?_⟩
    rintro (h | ⟨before, d, after, h, -⟩)
    · exact h.1
    · cases before <;> cases h
  | append_singleton ds d ih =>
    rw [pushAll_concat, push, List.flatten_append, List.flatten_singleton]
    split_ifs with hroom
    · rw [List.append_eq_nil_iff, List.append_eq_nil_iff, ih]
      constructor
      · rintro ⟨⟨hbuf, hds⟩ | ⟨before, d', after, rfl, hover, hafter⟩, rfl⟩
        · exact Or.inl ⟨hbuf, hds, rfl⟩
        · exact Or.inr ⟨before, d', after ++ [[]], by simp, hover, by simp [hafter]⟩
      · rintro (⟨hbuf, hds, hd⟩ | ⟨before, d', after, heq, hover, hafter⟩)
        · exact ⟨Or.inl ⟨hbuf, hds⟩, hd⟩
        · rcases List.eq_nil_or_concat after with rfl | ⟨after', last, rfl⟩
          · -- the fragment that empties the buffer is not the last one, for which there is room
            obtain ⟨rfl, hd⟩ := List.append_inj' heq rfl
            obtain rfl : d = d' := List.cons.inj hd |>.1
            exact absurd hroom hover.not_ge
          · rw [List.concat_eq_append, ← List.cons_append, ← List.append_assoc] at heq
            obtain ⟨rfl, hd⟩ := List.append_inj' heq rfl
            obtain rfl : d = last := List.cons.inj hd |>.1
            rw [List.concat_eq_append, List.flatten_append, List.append_eq_nil_iff,
              List.flatten_singleton] at hafter
            exact ⟨Or.inr ⟨before, d', after', rfl, hover, hafter.1⟩, hafter.2⟩
    · refine iff_of_true rfl (Or.inr ⟨ds, d, [], rfl, not_le.mp hroom, rfl⟩)

/-! ## Messages and connections -/

/-- A message in fragments, at least one. -/
structure Message (α : Type*) where
  front : List (List α) := []
  last : List α

namespace Message

/-- All fragments. -/
def fragments (m : Message α) : List (List α) := m.front ++ [m.last]

/-- The message in one piece. -/
def whole (m : Message α) : List α := m.fragments.flatten

end Message

/-- What comes on a connection: complete messages, and the fragments of one that the connection
breaks in. -/
structure Connection (α : Type*) where
  messages : List (Message α) := []
  cut : List (List α) := []

/-- A connection is opened, a complete message comes, or a part of one. -/
inductive Event (α : Type*)
  | connect
  | message (m : Message α)
  | part (ds : List (List α))

/-- What a connection brings, in order. -/
def Connection.events (c : Connection α) : List (Event α) :=
  .connect :: c.messages.map .message ++ [.part c.cut]

/-- The strings that should be handed over: the complete messages that fit. -/
def Event.due (cap : ℕ) : Event α → List (List α)
  | .message m => if m.whole.length ≤ cap then [m.whole] else []
  | _ => []

/-! ## Receivers -/

/-- A session that gets fragments: what it does when a connection is opened, and with a fragment,
flagged as the last one or not, with what it hands over. -/
structure Receiver (σ α : Type*) where
  connect : σ → σ
  receive : σ → List α → Bool → σ × Option (List α)

/-- The session, with what it has handed over and what it should have. -/
structure Log (σ α : Type*) where
  session : σ
  handed : List (List α) := []
  due : List (List α) := []

namespace Receiver

variable (R : Receiver σ α)

/-- A fragment. -/
def fragment (isFinal : Bool) (l : Log σ α) (d : List α) : Log σ α :=
  { l with
    session := (R.receive l.session d isFinal).1
    handed := l.handed ++ (R.receive l.session d isFinal).2.toList }

/-- An event, with what it should hand over. -/
def step (cap : ℕ) (l : Log σ α) (event : Event α) : Log σ α :=
  let seen := match event with
    | .connect => { l with session := R.connect l.session }
    | .message m => R.fragment true (m.front.foldl (R.fragment false) l) m.last
    | .part ds => ds.foldl (R.fragment false) l
  { seen with due := l.due ++ event.due cap }

end Receiver

/-- The receiver has a buffer of the capacity: a fragment is pushed, and what is there at a last
fragment is handed over. -/
structure Buffers (R : Receiver σ α) (cap : ℕ) (content : σ → List α) : Prop where
  bound : ∀ s, (content s).length ≤ cap
  handed : ∀ s d isFinal, (R.receive s d isFinal).2 =
    if isFinal = true ∧ push cap (content s) d ≠ [] then some (push cap (content s) d) else none
  content : ∀ s d isFinal, content (R.receive s d isFinal).1 =
    if isFinal = true then [] else push cap (content s) d

variable {R : Receiver σ α} {content : σ → List α} {l : Log σ α}

/-- The fragments before the last one are pushed. -/
theorem Buffers.foldl_fragment (h : Buffers R cap content) (ds : List (List α)) (l : Log σ α) :
    content (ds.foldl (R.fragment false) l).session = pushAll cap (content l.session) ds ∧
      (ds.foldl (R.fragment false) l).handed = l.handed := by
  induction ds generalizing l with
  | nil => exact ⟨rfl, rfl⟩
  | cons d ds ih =>
    obtain ⟨hcontent, hhanded⟩ := ih (R.fragment false l d)
    have hsession : content (R.fragment false l d).session = push cap (content l.session) d :=
      h.content l.session d false
    have hnone : (R.fragment false l d).handed = l.handed := by
      have hout : (R.receive l.session d false).2 = none := h.handed l.session d false
      simp [Receiver.fragment, hout]
    exact ⟨hcontent.trans (by rw [hsession]; rfl), hhanded.trans hnone⟩

/-- **A message** hands over what its fragments leave in the buffer, if that is something. -/
theorem Buffers.handed_message (h : Buffers R cap content) (m : Message α) :
    (R.step cap l (.message m)).handed = l.handed ++
      if pushAll cap (content l.session) m.fragments ≠ [] then
        [pushAll cap (content l.session) m.fragments] else [] := by
  obtain ⟨hcontent, hhanded⟩ := h.foldl_fragment m.front l
  have hlast := h.handed (m.front.foldl (R.fragment false) l).session m.last true
  rw [hcontent, ← pushAll_concat] at hlast
  simp only [Receiver.step, Receiver.fragment, hhanded, hlast, true_and]
  rw [Message.fragments]
  split_ifs <;> rfl

/-- What a message needs to be handed over as it should: one that fits is not empty and finds the
buffer empty; one that does not fit has nothing left after the fragment that empties the buffer. -/
def Handles (cap : ℕ) (content : List α) : Event α → Prop
  | .message m =>
    if m.whole.length ≤ cap then content = [] ∧ m.whole ≠ []
    else DropsAll cap content m.fragments
  | _ => True

/-- **One message** is handed over as it should be exactly under the condition. -/
theorem pushAll_due_iff (hbuf : buf.length ≤ cap) (m : Message α) :
    (if pushAll cap buf m.fragments ≠ [] then [pushAll cap buf m.fragments] else []) =
      (Event.message m).due cap ↔ Handles cap buf (.message m) := by
  simp only [Event.due, Handles]
  split_ifs with hsome hfits hfits
  · rw [List.cons.injEq, and_iff_left rfl]
    by_cases hroom : buf.length + m.fragments.flatten.length ≤ cap
    · rw [pushAll_of_fits hroom] at hsome ⊢
      constructor
      · intro heq
        have hnil : buf = [] := List.append_left_eq_self.mp heq
        exact ⟨hnil, by rwa [hnil] at hsome⟩
      · rintro ⟨rfl, -⟩
        rfl
    · have hless := length_pushAll_lt hbuf (not_le.mp hroom)
      refine iff_of_false (fun heq => ?_) fun hboth => ?_
      · rw [heq] at hless
        exact lt_irrefl _ hless
      · rw [hboth.1, List.length_nil, Nat.zero_add] at hroom
        exact hroom hfits
  · refine iff_of_false (fun heq => by cases heq) fun hdrops => hsome ?_
    exact pushAll_eq_nil_iff.mpr (Or.inr hdrops)
  · rw [ne_eq, not_not, pushAll_eq_nil_iff] at hsome
    refine iff_of_false (fun heq => by cases heq) fun hboth => ?_
    rcases hsome with ⟨-, hnil⟩ | ⟨before, d, after, heq, hover, hafter⟩
    · exact hboth.2 hnil
    · -- a message that fits never empties a buffer that starts empty
      have hlength := congrArg (fun ds => (List.flatten ds).length) heq
      have hle := length_pushAll_le cap buf before
      rw [hboth.1, List.length_nil] at hle
      simp only [List.flatten_append, List.flatten_cons, List.length_append] at hlength
      have hfits' : m.fragments.flatten.length ≤ cap := hfits
      rw [hboth.1] at hover
      omega
  · rw [ne_eq, not_not, pushAll_eq_nil_iff] at hsome
    refine iff_of_true rfl (hsome.resolve_left fun hboth => hfits ?_)
    have hnil : m.whole = [] := hboth.2
    rw [hnil]
    exact Nat.zero_le cap

/-- **One event** keeps what is handed over right exactly under the condition. -/
theorem Buffers.step_iff (h : Buffers R cap content) (hl : l.handed = l.due) (event : Event α) :
    (R.step cap l event).handed = (R.step cap l event).due ↔
      Handles cap (content l.session) event := by
  cases event with
  | connect =>
    refine iff_of_true ?_ trivial
    simp [Receiver.step, Event.due, hl]
  | message m =>
    have hdue : (R.step cap l (.message m)).due = l.due ++ (Event.message m).due cap := rfl
    rw [h.handed_message m, hdue, hl, List.append_cancel_left_eq]
    exact pushAll_due_iff (h.bound _) m
  | part ds =>
    refine iff_of_true ?_ trivial
    simp only [Receiver.step, (h.foldl_fragment ds l).2, Event.due, List.append_nil]
    exact hl

/-- **What is handed over** is at all times of a run what should be, exactly when every event meets
the condition. -/
theorem Buffers.handed_eq_due_iff (h : Buffers R cap content) (s : σ) (events : List (Event α)) :
    (∀ pre, pre <+: events → (pre.foldl (R.step cap) { session := s }).handed =
        (pre.foldl (R.step cap) { session := s }).due) ↔
      AllSteps (R.step cap) (fun l event => Handles cap (content l.session) event)
        { session := s } events := by
  have hstep : ∀ (l : Log σ α) (event : Event α), True → True → l.handed = l.due →
      ((R.step cap l event).handed = (R.step cap l event).due ↔
        Handles cap (content l.session) event) := fun l event _ _ hl => h.step_iff hl event
  exact (forall_prefix_iff_allSteps (P := fun l : Log σ α => l.handed = l.due)
    (fun _ _ _ (_ : True) => trivial) hstep trivial fun _ _ => trivial).trans
      (and_iff_right rfl)

/-- What should be handed over is the complete messages that fit, in order. -/
theorem due_foldl (R : Receiver σ α) (cap : ℕ) (events : List (Event α)) (l : Log σ α) :
    (events.foldl (R.step cap) l).due = l.due ++ events.flatMap (Event.due cap) := by
  induction events generalizing l with
  | nil => simp
  | cons event events ih =>
    rw [List.foldl_cons, ih, List.flatMap_cons, ← List.append_assoc]
    rfl

end Reassembly

end TradingInfrastructure
