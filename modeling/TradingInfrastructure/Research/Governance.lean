import TradingInfrastructure.Foundations.Runs

/-!
# The registry of models

`research/neural_alpha/operations/governance.py`: the registry keeps the models, the id of the
champion and the history of its events in a file, which every call reads and writes as a whole. The
metrics and the time stamps are kept for people only, and are left out.

The file names one champion, the only model with that status, after every call
(`ChampionChallengerRegistry.champion_unique`).
-/

namespace TradingInfrastructure

/-! ## The file -/

inductive ModelStatus
  | challenger
  | champion
  | retired
  | rolledBack
  deriving DecidableEq

structure Model where
  modelId : List Char
  modelPath : List Char
  status : ModelStatus
  deriving DecidableEq

inductive RegistryEvent
  | registerChallenger (modelId : List Char)
  | promote (modelId : List Char) (previousChampionId : Option (List Char))
  | rollback (fromModelId toModelId : List Char)
  deriving DecidableEq

/-- A promotion, with the champion before it. -/
def RegistryEvent.promotion : RegistryEvent → Option (List Char × Option (List Char))
  | .promote modelId previous => some (modelId, previous)
  | _ => none

structure RegistryPayload where
  championId : Option (List Char) := none
  models : List Model := []
  events : List RegistryEvent := []
  deriving DecidableEq

/-- The body of the loops of `promote` and of `rollback_to_previous_champion`: the champion leaves
with a status, and the next one becomes champion. -/
def Model.handOver (champion : Option (List Char)) (left : ModelStatus) (next : List Char)
    (m : Model) : Model :=
  let m := if some m.modelId = champion then { m with status := left } else m
  if m.modelId = next then { m with status := .champion } else m

namespace RegistryPayload

/-- What the two functions make of the file. -/
def handOver (p : RegistryPayload) (left : ModelStatus) (next : List Char) (event : RegistryEvent) :
    RegistryPayload where
  championId := some next
  models := p.models.map (Model.handOver p.championId left next)
  events := p.events ++ [event]

def modelIds (p : RegistryPayload) : List (List Char) := p.models.map Model.modelId

/-- The last promotion, with the champion before it. -/
def lastPromotion (p : RegistryPayload) : Option (List Char × Option (List Char)) :=
  (p.events.filterMap RegistryEvent.promotion).getLast?

end RegistryPayload

/-! ## The registry -/

/-- The registry, which is its file. -/
structure ChampionChallengerRegistry where
  file : Option RegistryPayload := none
  deriving DecidableEq

namespace ChampionChallengerRegistry

/-- `_read`. -/
def read (r : ChampionChallengerRegistry) : RegistryPayload := r.file.getD {}

/-- The id that `register_challenger` draws from the clock and a uuid. -/
def drawId (seconds : ℕ) (hex : List Char) : List Char :=
  "model_".toList ++ Nat.toDigits 10 seconds ++ '_' :: hex

/-- `register_challenger`. -/
def registerChallenger (r : ChampionChallengerRegistry) (seconds : ℕ) (hex modelPath : List Char) :
    List Char × ChampionChallengerRegistry :=
  let payload := r.read
  let modelId := drawId seconds hex
  (modelId, ⟨some { payload with
    models := payload.models ++ [⟨modelId, modelPath, .challenger⟩]
    events := payload.events ++ [.registerChallenger modelId] }⟩)

/-- `promote`. -/
def promote (r : ChampionChallengerRegistry) (modelId : List Char) : ChampionChallengerRegistry :=
  let payload := r.read
  ⟨some (payload.handOver .retired modelId (.promote modelId payload.championId))⟩

/-- `current_champion`. -/
def currentChampion (r : ChampionChallengerRegistry) : Option Model :=
  let payload := r.read
  match payload.championId with
  | none => none
  | some cid => payload.models.find? fun m => m.modelId = cid

/-- `rollback_to_previous_champion`. -/
def rollbackToPreviousChampion (r : ChampionChallengerRegistry) :
    Option (List Char) × ChampionChallengerRegistry :=
  let payload := r.read
  match payload.lastPromotion with
  | none => (none, r)
  | some (_, none) => (none, r)
  | some (modelId, some previousId) =>
    if previousId = [] then (none, r)
    else
      let payload := payload.handOver .rolledBack previousId (.rollback modelId previousId)
      ((payload.models.find? fun m => m.modelId = previousId).map Model.modelPath, ⟨some payload⟩)

/-! ## Calls -/

/-- A call, with what `register_challenger` draws. -/
inductive Call
  | registerChallenger (seconds : ℕ) (hex modelPath : List Char)
  | promote (modelId : List Char)
  | rollback

/-- The registry after a call. -/
def call (r : ChampionChallengerRegistry) : Call → ChampionChallengerRegistry
  | .registerChallenger seconds hex modelPath => (r.registerChallenger seconds hex modelPath).2
  | .promote modelId => r.promote modelId
  | .rollback => r.rollbackToPreviousChampion.2

/-- The ids that are drawn are new, and the models that are promoted are registered. -/
def Allows (r : ChampionChallengerRegistry) : Call → Prop
  | .registerChallenger seconds hex _ => drawId seconds hex ∉ r.read.modelIds
  | .promote modelId => modelId ∈ r.read.modelIds
  | .rollback => True

instance (r : ChampionChallengerRegistry) : ∀ c, Decidable (r.Allows c)
  | .registerChallenger _ _ _ => inferInstanceAs (Decidable (_ ∉ _))
  | .promote _ => inferInstanceAs (Decidable (_ ∈ _))
  | .rollback => inferInstanceAs (Decidable True)

end ChampionChallengerRegistry

/-! ## The champion -/

/-- Where the keys are unique, those found are the first one found. -/
theorem filter_key_eq {α κ : Type*} [DecidableEq κ] {key : α → κ} {l : List α}
    (h : (l.map key).Nodup) (k : κ) :
    (l.filter fun a => key a = k) = (l.find? fun a => key a = k).toList := by
  induction l with
  | nil => rfl
  | cons a l ih =>
    rw [List.map_cons, List.nodup_cons] at h
    by_cases ha : key a = k
    · have hrest : (l.filter fun b => key b = k) = [] := by
        rw [List.filter_eq_nil_iff]
        intro b hb hk
        rw [decide_eq_true_eq] at hk
        exact h.1 (List.mem_map.mpr ⟨b, hb, hk.trans ha.symm⟩)
      simp [ha, hrest]
    · simp [ha, ih h.2]

@[simp] theorem Model.modelId_handOver (champion : Option (List Char)) (left : ModelStatus)
    (next : List Char) (m : Model) : (m.handOver champion left next).modelId = m.modelId := by
  simp only [Model.handOver]
  split_ifs <;> rfl

namespace RegistryPayload

/-- The ids are unique, the champion is the model with that status, and it and the champions before
the promotions are registered. -/
structure Sound (p : RegistryPayload) : Prop where
  ids : p.modelIds.Nodup
  status : ∀ m ∈ p.models, m.status = .champion ↔ some m.modelId = p.championId
  champion : ∀ id ∈ p.championId, id ∈ p.modelIds
  previous : ∀ id prev, .promote id (some prev) ∈ p.events → prev ∈ p.modelIds
  nonempty : ∀ id ∈ p.modelIds, id ≠ []

variable {p : RegistryPayload} {left : ModelStatus} {next : List Char} {event : RegistryEvent}

@[simp] theorem modelIds_handOver : (p.handOver left next event).modelIds = p.modelIds := by
  rw [modelIds, handOver, List.map_map]
  exact List.map_congr_left fun m _ => Model.modelId_handOver ..

/-- **Handing the championship over keeps one champion**, also where it goes back to the model that
leaves. -/
theorem Sound.handOver (h : p.Sound) (hleft : left ≠ .champion) (hnext : next ∈ p.modelIds)
    (hevent : ∀ id prev, event = .promote id (some prev) → prev ∈ p.modelIds) :
    (p.handOver left next event).Sound where
  ids := by
    rw [modelIds_handOver]
    exact h.ids
  status := by
    intro m' hm'
    obtain ⟨m, hm, rfl⟩ := List.mem_map.mp hm'
    rw [Model.modelId_handOver]
    change _ ↔ some m.modelId = some next
    rw [Option.some_inj]
    by_cases hid : m.modelId = next
    · have heq : (m.handOver p.championId left next).status = .champion := by
        unfold Model.handOver
        split_ifs <;> simp_all
      exact iff_of_true heq hid
    · refine iff_of_false ?_ hid
      by_cases hold : some m.modelId = p.championId
      · simpa [Model.handOver, hold, hid] using hleft
      · simpa [Model.handOver, hold, hid] using mt (h.status m hm).mp hold
  champion := by
    rintro id hid
    obtain rfl : next = id := Option.some.inj hid
    rwa [modelIds_handOver]
  previous := by
    intro id prev hmem
    rw [modelIds_handOver]
    rcases List.mem_append.mp hmem with hmem | hmem
    · exact h.previous id prev hmem
    · exact hevent id prev (List.mem_singleton.mp hmem).symm
  nonempty := by
    rw [modelIds_handOver]
    exact h.nonempty

/-- The champion before the last promotion is registered. -/
theorem Sound.of_lastPromotion (h : p.Sound) {id prev : List Char}
    (hlast : p.lastPromotion = some (id, some prev)) : prev ∈ p.modelIds := by
  obtain ⟨event, hmem, hevent⟩ := List.mem_filterMap.mp (List.mem_of_getLast? hlast)
  cases event with
  | promote modelId previous =>
    cases hevent
    exact h.previous _ _ hmem
  | registerChallenger _ => cases hevent
  | rollback _ _ => cases hevent

end RegistryPayload

namespace ChampionChallengerRegistry

variable {r : ChampionChallengerRegistry}

theorem drawId_ne_nil (seconds : ℕ) (hex : List Char) : drawId seconds hex ≠ [] :=
  List.append_ne_nil_of_right_ne_nil _ (List.cons_ne_nil '_' hex)

/-- **Every call keeps the registry sound.** -/
theorem sound_call {c : Call} (h : r.read.Sound) (hc : r.Allows c) : (r.call c).read.Sound := by
  cases c with
  | registerChallenger seconds hex modelPath =>
    have hids : (r.call (.registerChallenger seconds hex modelPath)).read.modelIds =
        r.read.modelIds ++ [drawId seconds hex] := List.map_append
    constructor
    · rw [hids]
      exact List.nodup_append.mpr ⟨h.ids, List.nodup_singleton _, fun a ha b hb hab =>
        hc (by rwa [← List.mem_singleton.mp hb, ← hab])⟩
    · intro m hm
      rcases List.mem_append.mp hm with hm | hm
      · exact h.status m hm
      · obtain rfl := List.mem_singleton.mp hm
        refine iff_of_false (fun h => (by cases h)) fun hchampion => hc ?_
        exact h.champion _ hchampion.symm
    · intro id hid
      rw [hids]
      exact List.mem_append_left _ (h.champion id hid)
    · intro id prev hmem
      rw [hids]
      rcases List.mem_append.mp hmem with hmem | hmem
      · exact List.mem_append_left _ (h.previous id prev hmem)
      · cases List.mem_singleton.mp hmem
    · intro id hid
      rw [hids] at hid
      rcases List.mem_append.mp hid with hid | hid
      · exact h.nonempty id hid
      · rw [List.mem_singleton.mp hid]
        exact drawId_ne_nil seconds hex
  | promote modelId =>
    refine h.handOver (fun h => (by cases h)) hc fun id prev hevent => ?_
    injection hevent with _ hprev
    exact h.champion prev hprev
  | rollback =>
    change (r.rollbackToPreviousChampion.2).read.Sound
    unfold rollbackToPreviousChampion
    simp only
    split
    · exact h
    · exact h
    · next modelId previousId hlast =>
      split
      · exact h
      · exact h.handOver (fun h => (by cases h)) (h.of_lastPromotion hlast)
          fun id prev hevent => (by cases hevent)

theorem sound_run {calls : List Call} (hcalls : AllSteps call Allows {} calls) :
    (calls.foldl call {}).read.Sound := by
  refine hcalls.foldl (P := fun r => r.read.Sound) (fun r c h hc => sound_call h hc) ?_
  constructor
  · exact List.nodup_nil
  · exact fun m hm => (by cases hm)
  · exact fun id hid => (by cases hid)
  · exact fun id prev hmem => (by cases hmem)
  · exact fun id hid => (by cases hid)

theorem currentChampion_eq : r.currentChampion =
    r.read.championId.bind fun cid => r.read.models.find? fun m => m.modelId = cid := by
  simp only [currentChampion]
  cases r.read.championId <;> rfl

/-- The champion is the model of the id that the file names. -/
theorem currentChampion_modelId (h : r.read.Sound) :
    r.currentChampion.map Model.modelId = r.read.championId := by
  rw [currentChampion_eq]
  cases hcid : r.read.championId with
  | none => rfl
  | some cid =>
    obtain ⟨m, hm, hid⟩ := List.mem_map.mp (h.champion cid hcid)
    have hfound : (r.read.models.find? fun m => m.modelId = cid).isSome := by
      rw [List.find?_isSome]
      exact ⟨m, hm, decide_eq_true hid⟩
    obtain ⟨m', hm'⟩ := Option.isSome_iff_exists.mp hfound
    have hid' : m'.modelId = cid := by simpa using List.find?_some hm'
    rw [Option.bind_some, hm', Option.map_some, hid']

/-- **One champion.** After every run of calls the models with that status are the one that
`current_champion` returns, which is the one that the file names; there are none when it names
none. -/
theorem champion_unique {calls : List Call} (hcalls : AllSteps call Allows {} calls) :
    let r := calls.foldl call {}
    (r.read.models.filter fun m => m.status = .champion) = r.currentChampion.toList ∧
      r.currentChampion.map Model.modelId = r.read.championId := by
  intro r
  have h : r.read.Sound := sound_run hcalls
  refine ⟨?_, currentChampion_modelId h⟩
  have hstatus : (r.read.models.filter fun m => m.status = .champion) =
      r.read.models.filter fun m => some m.modelId = r.read.championId :=
    List.filter_congr fun m hm => decide_eq_decide.mpr (h.status m hm)
  rw [hstatus, currentChampion_eq]
  cases r.read.championId with
  | none => simp
  | some cid =>
    simp only [Option.some_inj]
    exact filter_key_eq h.ids cid

/-- Two models that take turns, the second of which is rolled back twice. -/
def turns : List Call :=
  let a := drawId 1 "a0".toList
  let b := drawId 2 "b0".toList
  [.registerChallenger 1 "a0".toList "a.pt".toList, .promote a,
    .registerChallenger 2 "b0".toList "b.pt".toList, .promote b, .rollback, .promote b, .promote b,
    .rollback]

/-- The second one is the champion after them. -/
theorem champion_unique_turns :
    let r := turns.foldl call {}
    (r.read.models.filter fun m => m.status = .champion) = r.currentChampion.toList ∧
      r.read.championId = some (drawId 2 "b0".toList) := by
  have hallowed : AllSteps call Allows {} turns := by decide +kernel
  exact ⟨(champion_unique hallowed).1, by decide +kernel⟩

end ChampionChallengerRegistry

end TradingInfrastructure
