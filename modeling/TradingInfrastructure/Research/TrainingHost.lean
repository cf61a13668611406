import TradingInfrastructure.Foundations.DecimalText
import TradingInfrastructure.Research.Rollback
import Mathlib.Data.List.MinMax

/-!
# Days of training on a host

`run` of `deploy/daily_train.py`, day after day, on a host with a shadow session. A session that
trains again stores its model under the path of the production model (`train_on_recent`), and in
safe mode it rolls the registry back and loads the model under the path that is registered
(`_trigger_safe_mode`).

The training registers every model under the path of the candidate, which a promotion moves away. So
a rollback loads what the last training has left there, if it was not promoted (`rollback_loads`).
When there is a production model but no champion, the training reads a variable that is not set yet:
no day is trained to its end once a session has stored a model on a host without promotions
(`unboundLocalError_iff`).
-/

namespace TradingInfrastructure

/-! ## A day -/

/-- What `_load_prod_model_ic` reads in the file next to a model. -/
structure ModelMeta where
  icMean : Option ℚ := none
  challengerHoldoutIc : Option ℚ := none
  deriving DecidableEq

/-- The files that the training and the session share. -/
structure TrainingHost (W : Type) where
  production : Option W := none
  productionMeta : Option ModelMeta := none
  candidate : Option W := none
  candidateMeta : Option ModelMeta := none
  registry : ChampionChallengerRegistry := {}

/-- The constants of the training. -/
structure DailyTrainConfig where
  prodModelPath : List Char
  candidateModelPath : List Char
  promoteIcMin : ℚ := 2 / 100

/-- What a day finds: whether the ticks pass their gates, the model of each fold with its
`loss_total`, the mean IC, the IC of a model on the rows that are held out, and what
`register_challenger` draws. -/
structure TrainingDay (W : Type) where
  qualityPassed : Bool
  folds : List (W × ℚ)
  icMean : ℚ
  holdoutIc : W → ℚ
  seconds : ℕ
  hex : List Char

/-- How a day ends. -/
inductive DayOutcome
  | dataQualityFailed
  | noFoldResults
  | unboundLocalError
  | rejected
  | promoted
  deriving DecidableEq

namespace TrainingDay

variable {W : Type} (day : TrainingDay W)

/-- The model of `best_fold`, the first of those with the least loss. -/
def bestFold : Option W := (day.folds.argmin Prod.snd).map Prod.fst

/-- `_compute_holdout_ic`. -/
def computeHoldoutIc : Option W → ℚ
  | none => -1
  | some model => day.holdoutIc model

end TrainingDay

/-- `_load_prod_model_ic`. -/
def loadProdModelIc : Option ModelMeta → ℚ
  | none => -1
  | some info => info.challengerHoldoutIc.getD (info.icMean.getD (-1))

/-- `round` to six decimals. -/
def roundTo6 (x : ℚ) : ℚ := DecimalText.roundHalfEven (x * 10 ^ 6) / 10 ^ 6

namespace TrainingHost

variable {W : Type}

/-- `_promote_candidate`. -/
def promoteCandidate (host : TrainingHost W) : TrainingHost W :=
  { host with
    production := host.candidate
    candidate := none
    productionMeta := host.candidateMeta.or host.productionMeta
    candidateMeta := none }

/-- `run` of the training, from the gates on. Where a model is to be registered as the first
champion, `champion_holdout_ic` is read before it is set. -/
def train (cfg : DailyTrainConfig) (host : TrainingHost W) (day : TrainingDay W) :
    TrainingHost W × DayOutcome :=
  if day.qualityPassed = false then (host, .dataQualityFailed)
  else
    match day.bestFold with
    | none => (host, .noFoldResults)
    | some best =>
      let host := { host with candidate := some best }
      if host.registry.currentChampion = none ∧ host.production.isSome then
        (host, .unboundLocalError)
      else
        let (challengerId, registry) :=
          host.registry.registerChallenger day.seconds day.hex cfg.candidateModelPath
        let challengerHoldoutIc := day.computeHoldoutIc host.candidate
        let championHoldoutIc := day.computeHoldoutIc host.production
        let championHoldoutIc :=
          if championHoldoutIc = -1 then loadProdModelIc host.productionMeta else championHoldoutIc
        let host := { host with
          registry
          candidateMeta := some
            ⟨some (roundTo6 day.icMean), some (roundTo6 challengerHoldoutIc)⟩ }
        if cfg.promoteIcMin ≤ challengerHoldoutIc ∧ championHoldoutIc < challengerHoldoutIc then
          ({ host.promoteCandidate with registry := registry.promote challengerId }, .promoted)
        else (host, .rejected)

/-- The model under a path. -/
def fileAt (cfg : DailyTrainConfig) (host : TrainingHost W) (path : List Char) : Option W :=
  if path = cfg.candidateModelPath then host.candidate
  else if path = cfg.prodModelPath then host.production
  else none

end TrainingHost

/-! ## Days and sessions -/

/-- A day of training, or what a session does: it stores a model that it has trained again, or rolls
the registry back. -/
inductive HostEvent (W : Type)
  | day (day : TrainingDay W)
  | retrain (state : W)
  | rollback

/-- How a day ends, and which model a rollback loads. -/
inductive HostOutcome (W : Type)
  | day (outcome : DayOutcome)
  | retrained
  | rolledBack (loaded : Option W)
  deriving DecidableEq

namespace TrainingHost

variable {W : Type} (cfg : DailyTrainConfig)

/-- The host after an event. What a session stores next to its model holds no IC that
`_load_prod_model_ic` reads. -/
def step (host : TrainingHost W) : HostEvent W → TrainingHost W × HostOutcome W
  | .day day => ((host.train cfg day).1, .day (host.train cfg day).2)
  | .retrain state =>
    ({ host with production := some state, productionMeta := some {} }, .retrained)
  | .rollback =>
    let (path, registry) := host.registry.rollbackToPreviousChampion
    ({ host with registry }, .rolledBack (path.bind (host.fileAt cfg)))

/-- The ids that are drawn are new. -/
def Allows (host : TrainingHost W) : HostEvent W → Prop
  | .day day =>
    ChampionChallengerRegistry.drawId day.seconds day.hex ∉ host.registry.read.modelIds
  | .retrain _ | .rollback => True

instance (host : TrainingHost W) : ∀ event, Decidable (host.Allows event)
  | .day _ => inferInstanceAs (Decidable (_ ∉ _))
  | .retrain _ | .rollback => inferInstanceAs (Decidable True)

/-- The ids that are drawn along a run are new. -/
def Fresh (events : List (HostEvent W)) : Prop :=
  AllSteps (fun host event => (step cfg host event).1) Allows {} events

instance (events : List (HostEvent W)) : Decidable (Fresh cfg events) :=
  inferInstanceAs (Decidable (AllSteps _ _ _ _))

/-- The host after some events. -/
def after (events : List (HostEvent W)) : TrainingHost W := (transcript (step cfg) {} events).1

/-- The events with their outcomes. -/
def history (events : List (HostEvent W)) : List (HostEvent W × HostOutcome W) :=
  events.zip (transcript (step cfg) {} events).2

/-- The event is a day that has promoted its candidate. -/
def isPromotion : HostEvent W × HostOutcome W → Bool
  | (_, .day .promoted) => true
  | _ => false

/-- How many days have promoted their candidate. -/
def promotions (events : List (HostEvent W)) : ℕ := (history cfg events).countP isPromotion

/-- The model that an event stores as the production model. -/
def stored : HostEvent W × HostOutcome W → Option W
  | (.day day, .day .promoted) => day.bestFold
  | (.retrain state, _) => some state
  | _ => none

/-- What a day leaves under the path of the candidate, when it has trained one. -/
def leftOver : HostEvent W × HostOutcome W → Option (Option W)
  | (.day _, .day .promoted) => some none
  | (.day day, .day .rejected) => some day.bestFold
  | (.day day, .day .unboundLocalError) => some day.bestFold
  | _ => none

variable {cfg} {events : List (HostEvent W)} {event : HostEvent W}

theorem after_concat : after cfg (events ++ [event]) = (step cfg (after cfg events) event).1 := by
  rw [after, transcript_concat, after]

theorem history_concat : history cfg (events ++ [event]) =
    history cfg events ++ [(event, (step cfg (after cfg events) event).2)] := by
  have hlength : events.length = (transcript (step cfg) ({} : TrainingHost W) events).2.length := by
    induction events using List.reverseRecOn with
    | nil => rfl
    | append_singleton events event ih => rw [transcript_concat]; simp [ih]
  rw [history, transcript_concat, List.zip_append hlength]
  rfl

theorem promotions_concat : promotions cfg (events ++ [event]) = promotions cfg events +
    (isPromotion (event, (step cfg (after cfg events) event).2)).toNat := by
  rw [promotions, history_concat, List.countP_append, List.countP_singleton, promotions]
  cases isPromotion (event, (step cfg (after cfg events) event).2) <;> rfl

/-! ## What a day does -/

variable {host : TrainingHost W} {day : TrainingDay W}

/-- **What a day does**: it trains nothing; or it leaves a candidate and fails on a host with a
production model and no champion; or it registers its candidate, and leaves it or promotes it. -/
theorem train_cases (cfg : DailyTrainConfig) (host : TrainingHost W) (day : TrainingDay W) :
    ((host.train cfg day).1 = host ∧ (day.qualityPassed = false ∨ day.bestFold = none) ∧
      ((host.train cfg day).2 = .dataQualityFailed ∨ (host.train cfg day).2 = .noFoldResults)) ∨
    (day.qualityPassed = true ∧ ∃ best, day.bestFold = some best ∧
      (host.registry.currentChampion = none ∧ host.production.isSome ∧
          host.train cfg day = ({ host with candidate := some best }, .unboundLocalError) ∨
        ¬ (host.registry.currentChampion = none ∧ host.production.isSome) ∧
          ((host.train cfg day).2 = .rejected ∧
              (host.train cfg day).1.production = host.production ∧
              (host.train cfg day).1.candidate = some best ∧
              (host.train cfg day).1.registry = host.registry.call
                (.registerChallenger day.seconds day.hex cfg.candidateModelPath) ∨
            (host.train cfg day).2 = .promoted ∧
              (host.train cfg day).1.production = some best ∧
              (host.train cfg day).1.candidate = none ∧
              (host.train cfg day).1.registry = (host.registry.call
                (.registerChallenger day.seconds day.hex cfg.candidateModelPath)).call
                  (.promote (ChampionChallengerRegistry.drawId day.seconds day.hex))))) := by
  unfold train
  by_cases hquality : day.qualityPassed = false
  · rw [if_pos hquality]
    exact .inl ⟨rfl, .inl hquality, .inl rfl⟩
  · rw [if_neg hquality]
    cases hbest : day.bestFold with
    | none => exact .inl ⟨rfl, .inr rfl, .inr rfl⟩
    | some best =>
      refine .inr ⟨Bool.not_eq_false _ ▸ hquality, best, rfl, ?_⟩
      dsimp only
      by_cases hstuck : host.registry.currentChampion = none ∧ host.production.isSome = true
      · rw [if_pos hstuck]
        exact .inl ⟨hstuck.1, hstuck.2, rfl⟩
      · rw [if_neg hstuck]
        refine .inr ⟨hstuck, ?_⟩
        split_ifs
        · exact .inr ⟨rfl, rfl, rfl, rfl⟩
        · exact .inl ⟨rfl, rfl, rfl, rfl⟩
        · exact .inr ⟨rfl, rfl, rfl, rfl⟩
        · exact .inl ⟨rfl, rfl, rfl, rfl⟩

/-- An event has an outcome. -/
theorem exists_mem_history (h : event ∈ events) :
    ∃ outcome, (event, outcome) ∈ history cfg events := by
  induction events using List.reverseRecOn with
  | nil => cases h
  | append_singleton events last ih =>
    rw [history_concat]
    rcases List.mem_append.mp h with h | h
    · obtain ⟨outcome, hmem⟩ := ih h
      exact ⟨outcome, List.mem_append_left _ hmem⟩
    · obtain rfl := List.mem_singleton.mp h
      exact ⟨_, List.mem_append_right _ (List.mem_singleton_self _)⟩

/-- The production model is the last one that a day has promoted or a session has stored, and the
candidate is what the last training has left. -/
theorem files_eq (cfg : DailyTrainConfig) (events : List (HostEvent W)) :
    (after cfg events).production = ((history cfg events).filterMap stored).getLast? ∧
      (after cfg events).candidate = ((history cfg events).filterMap leftOver).getLast?.join := by
  induction events using List.reverseRecOn with
  | nil => exact ⟨rfl, rfl⟩
  | append_singleton events event ih =>
    obtain ⟨hproduction, hcandidate⟩ := ih
    rw [after_concat, history_concat, List.filterMap_append, List.filterMap_append,
      List.getLast?_append, List.getLast?_append]
    cases event with
    | day day =>
      simp only [step]
      rcases train_cases cfg (after cfg events) day with ⟨hsame, -, hout | hout⟩ |
        ⟨-, best, hbest, ⟨-, -, heq⟩ | ⟨-, ⟨hout, hprod, hcand, -⟩ | ⟨hout, hprod, hcand, -⟩⟩⟩
      · simp [hsame, hout, stored, leftOver, hproduction, hcandidate]
      · simp [hsame, hout, stored, leftOver, hproduction, hcandidate]
      · simp [heq, stored, leftOver, hproduction, hbest]
      · simp [hout, hprod, hcand, stored, leftOver, hproduction, hbest]
      · simp [hout, hprod, hcand, stored, leftOver, hbest]
    | retrain state => simp [step, stored, leftOver, hcandidate]
    | rollback => simp [step, stored, leftOver, hproduction, hcandidate]

end TrainingHost

/-! ## What is registered -/

@[simp] theorem Model.modelPath_handOver (champion : Option (List Char)) (left : ModelStatus)
    (next : List Char) (m : Model) : (m.handOver champion left next).modelPath = m.modelPath := by
  simp only [Model.handOver]
  split_ifs <;> rfl

namespace ChampionChallengerRegistry

/-- All models are registered under one path, there is a champion after the first promotion, and one
before the last promotion after the second. -/
structure Counts (path : List Char) (r : ChampionChallengerRegistry) (promotions : ℕ) : Prop where
  sound : r.read.Sound
  paths : ∀ m ∈ r.read.models, m.modelPath = path
  champion : r.read.championId.isSome ↔ 0 < promotions
  previous : (r.read.lastPromotion.bind Prod.snd).isSome ↔ 2 ≤ promotions

variable {path modelId hex : List Char} {r : ChampionChallengerRegistry} {n seconds : ℕ}

theorem Counts.registerChallenger (h : Counts path r n)
    (hnew : drawId seconds hex ∉ r.read.modelIds) :
    Counts path (r.call (.registerChallenger seconds hex path)) n where
  sound := sound_call h.sound hnew
  paths := by
    intro m hm
    rcases List.mem_append.mp hm with hm | hm
    · exact h.paths m hm
    · rw [List.mem_singleton.mp hm]
  champion := h.champion
  previous := by
    have hevents : (r.call (.registerChallenger seconds hex path)).read.lastPromotion =
        r.read.lastPromotion := by
      simp [call, ChampionChallengerRegistry.registerChallenger, read,
        RegistryPayload.lastPromotion, RegistryEvent.promotion]
    rw [hevents]
    exact h.previous

theorem Counts.promote (h : Counts path r n) (hmem : modelId ∈ r.read.modelIds) :
    Counts path (r.call (.promote modelId)) (n + 1) where
  sound := sound_call h.sound hmem
  paths := by
    intro m hm
    obtain ⟨m', hm', rfl⟩ := List.mem_map.mp hm
    rw [Model.modelPath_handOver]
    exact h.paths m' hm'
  champion := iff_of_true rfl n.succ_pos
  previous := by
    have hlast : (r.call (.promote modelId)).read.lastPromotion =
        some (modelId, r.read.championId) := lastPromotion_handOver
    rw [hlast]
    exact h.champion.trans (by omega)

theorem Counts.rollback (h : Counts path r n) : Counts path (r.call .rollback) n where
  sound := sound_call h.sound trivial
  paths := by
    change ∀ m ∈ (r.rollbackToPreviousChampion.2).read.models, m.modelPath = path
    have hmodels : ∀ next event, ∀ m ∈ (r.read.handOver .rolledBack next event).models,
        m.modelPath = path := by
      intro next event m hm
      obtain ⟨m', hm', rfl⟩ := List.mem_map.mp hm
      rw [Model.modelPath_handOver]
      exact h.paths m' hm'
    unfold rollbackToPreviousChampion
    simp only
    split
    · exact h.paths
    · exact h.paths
    · split
      · exact h.paths
      · exact hmodels _ _
  champion := by
    rcases rollback_cases (r := r) with ⟨heq, -⟩ | ⟨id, prev, hlast, -, hchampion, -⟩
    · exact (congrArg (fun r => r.read.championId.isSome = true) heq).to_iff.trans h.champion
    · have htwo : 2 ≤ n := h.previous.mp (by rw [hlast]; rfl)
      have hsome : (r.call .rollback).read.championId = some prev := hchampion
      rw [hsome]
      exact iff_of_true rfl (by omega)
  previous := by
    have hlast : (r.call .rollback).read.lastPromotion = r.read.lastPromotion :=
      lastPromotion_rollback
    rw [hlast]
    exact h.previous

/-- **The path that a rollback gives** is the one of all models, from the second promotion on. -/
theorem Counts.rollback_path (h : Counts path r n) :
    r.rollbackToPreviousChampion.1 = if 2 ≤ n then some path else none := by
  unfold rollbackToPreviousChampion
  simp only
  split
  · next hlast =>
    have hfew : ¬ 2 ≤ n := fun htwo => by simpa [hlast] using h.previous.mpr htwo
    rw [if_neg hfew]
  · next hlast =>
    have hfew : ¬ 2 ≤ n := fun htwo => by simpa [hlast] using h.previous.mpr htwo
    rw [if_neg hfew]
  · next id prev hlast =>
    have htwo : 2 ≤ n := h.previous.mp (by rw [hlast]; rfl)
    have hmem := h.sound.of_lastPromotion hlast
    rw [if_neg (h.sound.nonempty prev hmem), if_pos htwo]
    have hids : prev ∈ (r.read.handOver .rolledBack prev (.rollback id prev)).modelIds := by
      rwa [RegistryPayload.modelIds_handOver]
    obtain ⟨m, hm, hid⟩ := List.mem_map.mp hids
    have hsome : ((r.read.handOver .rolledBack prev (.rollback id prev)).models.find?
        fun m => m.modelId = prev).isSome := by
      rw [List.find?_isSome]
      exact ⟨m, hm, decide_eq_true hid⟩
    obtain ⟨found, hfound⟩ := Option.isSome_iff_exists.mp hsome
    obtain ⟨old, hold, heq⟩ := List.mem_map.mp (List.mem_of_find?_eq_some hfound)
    rw [hfound, Option.map_some, ← heq, Model.modelPath_handOver, h.paths old hold]

theorem currentChampion_eq_none (h : Counts path r n) : r.currentChampion = none ↔ n = 0 := by
  have hid := currentChampion_modelId h.sound
  rw [← Option.map_eq_none_iff (f := Model.modelId), hid, ← Option.not_isSome_iff_eq_none,
    h.champion]
  omega

end ChampionChallengerRegistry

namespace TrainingHost

open ChampionChallengerRegistry (Counts)

variable {W : Type} {cfg : DailyTrainConfig} {events before rest : List (HostEvent W)}
  {event : HostEvent W} {day : TrainingDay W} {state : W}

theorem foldl_eq_after (cfg : DailyTrainConfig) (events : List (HostEvent W)) :
    events.foldl (fun host event => (step cfg host event).1) {} = after cfg events := by
  induction events using List.reverseRecOn with
  | nil => rfl
  | append_singleton events event ih => rw [List.foldl_concat, ih, after_concat]

theorem fresh_concat :
    Fresh cfg (events ++ [event]) ↔ Fresh cfg events ∧ (after cfg events).Allows event := by
  rw [Fresh, allSteps_append, foldl_eq_after]
  exact and_congr_right fun _ => and_iff_left trivial

/-- **What the registry holds** is determined by how many days have promoted. -/
theorem counts (h : Fresh cfg events) :
    Counts cfg.candidateModelPath (after cfg events).registry (promotions cfg events) := by
  induction events using List.reverseRecOn with
  | nil =>
    have hnone : AllSteps ChampionChallengerRegistry.call ChampionChallengerRegistry.Allows {} [] :=
      trivial
    refine ⟨ChampionChallengerRegistry.sound_run hnone, ?_, ?_, ?_⟩
    · exact fun m hm => (by cases hm)
    · exact iff_of_false (fun h => by cases h) (Nat.lt_irrefl 0)
    · exact iff_of_false (fun h => by cases h) (Nat.not_succ_le_zero 1)
  | append_singleton events event ih =>
    obtain ⟨hbefore, hallowed⟩ := fresh_concat.mp h
    have hcounts := ih hbefore
    rw [after_concat, promotions_concat]
    cases event with
    | day day =>
      simp only [step]
      rcases train_cases cfg (after cfg events) day with ⟨hsame, -, hout | hout⟩ |
        ⟨-, best, -, ⟨-, -, heq⟩ | ⟨-, ⟨hout, -, -, hregistry⟩ | ⟨hout, -, -, hregistry⟩⟩⟩
      · simpa [hsame, hout, isPromotion] using hcounts
      · simpa [hsame, hout, isPromotion] using hcounts
      · simpa [heq, isPromotion] using hcounts
      · simpa [hout, hregistry, isPromotion] using hcounts.registerChallenger hallowed
      · have hpromoted : isPromotion (HostEvent.day day,
            HostOutcome.day ((after cfg events).train cfg day).2) = true := by rw [hout]; rfl
        rw [hregistry, hpromoted]
        refine (hcounts.registerChallenger hallowed).promote ?_
        exact List.mem_map.mpr ⟨_, List.mem_append_right _ (List.mem_singleton_self _), rfl⟩
    | retrain state => exact hcounts
    | rollback => exact hcounts.rollback

/-! ## Rollbacks -/

/-- **What a rollback loads.** On a host that began empty, whatever the days and the sessions have
done: nothing before the second promotion, and from then on what the last training has left under
the path of the candidate, which is not the model of a promotion. The production model stays the
last one that was promoted or stored. -/
theorem rollback_loads (h : Fresh cfg events) :
    (step cfg (after cfg events) .rollback).2 = .rolledBack (if 2 ≤ promotions cfg events then
        ((history cfg events).filterMap leftOver).getLast?.join else none) ∧
      (step cfg (after cfg events) .rollback).1.production =
        ((history cfg events).filterMap stored).getLast? := by
  obtain ⟨hproduction, hcandidate⟩ := files_eq cfg events
  refine ⟨?_, hproduction⟩
  simp only [step]
  rw [(counts h).rollback_path]
  split_ifs with htwo
  · rw [Option.bind_some, fileAt, if_pos rfl, hcandidate]
  · rfl

/-- A day whose only model is a number, with a tenth of the number as its IC. -/
def numberedDay (seconds model : ℕ) : TrainingDay ℕ where
  qualityPassed := true
  folds := [(model, 0)]
  icMean := 0
  holdoutIc m := m / 10
  seconds := seconds
  hex := "a0".toList

/-- The paths of a host. -/
def hostPaths : DailyTrainConfig where
  prodModelPath := "latest.pt".toList
  candidateModelPath := "candidate.pt".toList

/-- Two days promote their models, the third one does not. -/
def rejectedLast : List (HostEvent ℕ) :=
  [.day (numberedDay 1 1), .day (numberedDay 2 2), .day (numberedDay 3 0)]

/-- A rollback then loads the third model. -/
theorem rollback_loads_rejectedLast :
    (step hostPaths (after hostPaths rejectedLast) .rollback).2 = .rolledBack (some 0) := by
  have hfresh : Fresh hostPaths rejectedLast := by decide +kernel
  have htwo : promotions hostPaths rejectedLast = 2 := by decide +kernel
  have hleft : ((history hostPaths rejectedLast).filterMap leftOver).getLast?.join = some 0 := by
    decide +kernel
  rw [(rollback_loads hfresh).1, htwo, if_pos le_rfl, hleft]

/-! ## Days that fail -/

/-- With a stored model and no promotion there is a production model and no champion, and only
then. -/
theorem stuck_iff (h : Fresh cfg events) :
    ((after cfg events).registry.currentChampion = none ∧
        (after cfg events).production.isSome = true) ↔
      promotions cfg events = 0 ∧ ∃ state, .retrain state ∈ events := by
  rw [ChampionChallengerRegistry.currentChampion_eq_none (counts h), (files_eq cfg events).1]
  refine and_congr_right fun hnone => ⟨fun hsome => ?_, fun ⟨state, hmem⟩ => ?_⟩
  · obtain ⟨model, hmodel⟩ := Option.isSome_iff_exists.mp hsome
    obtain ⟨⟨event, outcome⟩, hmem, hstored⟩ :=
      List.mem_filterMap.mp (List.mem_of_getLast? hmodel)
    have hno : isPromotion (event, outcome) = false :=
      Bool.eq_false_iff.mpr (List.countP_eq_zero.mp hnone _ hmem)
    cases event with
    | day day =>
      cases outcome with
      | day outcome =>
        cases outcome with
        | promoted => cases hno
        | _ => cases hstored
      | retrained => cases hstored
      | rolledBack loaded => cases hstored
    | retrain state => exact ⟨state, (List.of_mem_zip hmem).1⟩
    | rollback => cases hstored
  · obtain ⟨outcome, hmem⟩ : ∃ outcome, (_, outcome) ∈ history cfg events :=
      exists_mem_history hmem
    rw [List.getLast?_isSome]
    exact List.ne_nil_of_mem (List.mem_filterMap.mpr ⟨_, hmem, rfl⟩)

/-- **A host without a champion stays without one** once a session has stored a model. -/
theorem promotions_eq_zero (h : Fresh cfg (before ++ .retrain state :: rest))
    (hbefore : promotions cfg before = 0) :
    promotions cfg (before ++ .retrain state :: rest) = 0 := by
  induction rest using List.reverseRecOn with
  | nil =>
    rw [promotions_concat, hbefore]
    rfl
  | append_singleton rest event ih =>
    rw [← List.cons_append, ← List.append_assoc] at h ⊢
    obtain ⟨hfresh, -⟩ := fresh_concat.mp h
    have hzero := ih hfresh
    obtain ⟨hchampion, hproduction⟩ := (stuck_iff hfresh).mpr ⟨hzero, state, by simp⟩
    rw [promotions_concat, hzero]
    cases event with
    | day day =>
      simp only [step]
      rcases train_cases cfg (after cfg (before ++ .retrain state :: rest)) day with
        ⟨-, -, hout | hout⟩ | ⟨-, best, -, ⟨-, -, heq⟩ | ⟨hstuck, -⟩⟩
      · rw [hout]
        rfl
      · rw [hout]
        rfl
      · rw [heq]
        rfl
      · exact absurd ⟨hchampion, hproduction⟩ hstuck
    | retrain state => rfl
    | rollback => rfl

/-- **When a day fails.** On a host that began empty, whatever the days and the sessions have done: a
day whose ticks pass their gates and give a fold reads `champion_holdout_ic` before it is set exactly
when a session has stored a model before any day has promoted one. -/
theorem unboundLocalError_iff (h : Fresh cfg events) :
    ((after cfg events).train cfg day).2 = .unboundLocalError ↔
      day.qualityPassed = true ∧ day.folds ≠ [] ∧ ∃ before state rest,
        events = before ++ .retrain state :: rest ∧ promotions cfg before = 0 := by
  have hfolds : day.folds ≠ [] ↔ day.bestFold ≠ none := by
    rw [TrainingDay.bestFold, ne_eq, ne_eq, Option.map_eq_none_iff, List.argmin_eq_none]
  have hstored : (∃ before state rest, events = before ++ .retrain state :: rest ∧
      promotions cfg before = 0) ↔ promotions cfg events = 0 ∧ ∃ state, .retrain state ∈ events := by
    constructor
    · rintro ⟨before, state, rest, rfl, hbefore⟩
      exact ⟨promotions_eq_zero h hbefore, state, by simp⟩
    · rintro ⟨hzero, state, hmem⟩
      obtain ⟨before, rest, rfl⟩ := List.append_of_mem hmem
      refine ⟨before, state, rest, rfl, ?_⟩
      induction rest using List.reverseRecOn with
      | nil =>
        rw [promotions_concat] at hzero
        exact (Nat.add_eq_zero_iff.mp hzero).1
      | append_singleton rest event ih =>
        rw [← List.cons_append, ← List.append_assoc] at hzero h
        rw [promotions_concat] at hzero
        exact ih (fresh_concat.mp h).1 (Nat.add_eq_zero_iff.mp hzero).1 (by simp)
  rw [hstored, ← stuck_iff h, hfolds]
  rcases train_cases cfg (after cfg events) day with ⟨-, hnone, hout | hout⟩ |
    ⟨hquality, best, hbest, ⟨hchampion, hproduction, heq⟩ | ⟨hstuck, hrest⟩⟩
  · rw [hout]
    refine iff_of_false (fun h => by cases h) fun h => ?_
    rcases hnone with hnone | hnone
    · rw [hnone] at h
      cases h.1
    · exact h.2.1 hnone
  · rw [hout]
    refine iff_of_false (fun h => by cases h) fun h => ?_
    rcases hnone with hnone | hnone
    · rw [hnone] at h
      cases h.1
    · exact h.2.1 hnone
  · rw [heq]
    exact iff_of_true rfl ⟨hquality, by simp [hbest], hchampion, hproduction⟩
  · refine iff_of_false ?_ fun h => hstuck h.2.2
    rcases hrest with ⟨hout, -⟩ | ⟨hout, -⟩
    · rw [hout]
      exact fun h => by cases h
    · rw [hout]
      exact fun h => by cases h

/-- A session stores a model before the first day. -/
theorem unboundLocalError_retrained :
    ((after hostPaths [.retrain 5]).train hostPaths (numberedDay 1 1)).2 = .unboundLocalError :=
  (unboundLocalError_iff (show Fresh hostPaths [.retrain 5] from ⟨trivial, trivial⟩)).mpr
    ⟨rfl, List.cons_ne_nil _ _, [], 5, [], rfl, rfl⟩

end TrainingHost

end TradingInfrastructure
