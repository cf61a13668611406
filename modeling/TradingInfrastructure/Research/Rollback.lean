import TradingInfrastructure.Research.Governance

/-!
# Rollbacks

`rollback_to_previous_champion` looks for the last promotion of the history and installs the
champion before it. It appends a rollback to the history, but no promotion, so the next rollback
finds the same one: one rollback undoes a promotion, and more of them undo no more
(`ChampionChallengerRegistry.rollbackUndoes_iff`). A model that a rollback has removed stays away
until it is promoted again (`ChampionChallengerRegistry.staysAway`).
-/

namespace TradingInfrastructure

namespace ChampionChallengerRegistry

/-- The model that a call promotes. -/
def Call.promotes : Call → Option (List Char)
  | .promote modelId => some modelId
  | _ => none

/-- The call is a rollback. -/
def Call.isRollback : Call → Bool
  | .rollback => true
  | _ => false

/-- The registry after a rollback. -/
def rollback (r : ChampionChallengerRegistry) : ChampionChallengerRegistry := r.call .rollback

/-- The id of the champion. -/
def champion (r : ChampionChallengerRegistry) : Option (List Char) :=
  r.currentChampion.map Model.modelId

/-- **What rollbacks are to do.** After the calls, which promote models and roll nothing back, `k`
rollbacks in a row make the `k`-th model before the last one champion; and whatever has happened
before, a model that a rollback removes is not made champion by a later rollback if it is not
promoted in between. -/
def RollbackUndoes (calls : List Call) (k : ℕ) : Prop :=
  let promoted := calls.filterMap Call.promotes
  (rollback^[k] (calls.foldl call {})).champion = promoted[promoted.length - 1 - k]? ∧
    ∀ before between modelId, AllSteps call Allows {} (before ++ .rollback :: between) →
      (before.foldl call {}).champion = some modelId →
      (rollback (before.foldl call {})).champion ≠ some modelId →
      modelId ∉ between.filterMap Call.promotes →
      (rollback (between.foldl call (rollback (before.foldl call {})))).champion ≠ some modelId

variable {r : ChampionChallengerRegistry}

/-! ## One rollback -/

theorem lastPromotion_handOver {p : RegistryPayload} {left : ModelStatus} {next : List Char}
    {event : RegistryEvent} :
    (p.handOver left next event).lastPromotion =
      (event.promotion.toList.getLast?).or p.lastPromotion := by
  rw [RegistryPayload.lastPromotion, RegistryPayload.handOver, List.filterMap_append,
    List.getLast?_append]
  cases h : event.promotion with
  | none => simp [h, RegistryPayload.lastPromotion]
  | some x => simp [h]

/-- What a rollback does: nothing, or it installs the champion before the last promotion. The last
promotion stays the same. -/
theorem rollback_cases :
    (r.rollback = r ∧ ∀ id prev, r.read.lastPromotion = some (id, some prev) → prev = []) ∨
      ∃ id prev, r.read.lastPromotion = some (id, some prev) ∧ prev ≠ [] ∧
        r.rollback.read.championId = some prev ∧
        r.rollback.read.lastPromotion = r.read.lastPromotion := by
  simp only [rollback, call, rollbackToPreviousChampion]
  split
  · next hlast =>
    refine .inl ⟨rfl, fun id prev h => ?_⟩
    rw [hlast] at h
    cases h
  · next hlast =>
    refine .inl ⟨rfl, fun id prev h => ?_⟩
    rw [hlast] at h
    cases h
  · next id prev hlast =>
    split
    · next hnil =>
      refine .inl ⟨rfl, fun id' prev' h => ?_⟩
      rw [hlast] at h
      cases h
      exact hnil
    · next hne => exact .inr ⟨id, prev, hlast, hne, rfl, lastPromotion_handOver⟩

theorem lastPromotion_rollback : r.rollback.read.lastPromotion = r.read.lastPromotion := by
  rcases rollback_cases (r := r) with ⟨heq, -⟩ | ⟨-, -, -, -, -, heq⟩
  · rw [heq]
  · exact heq

/-- A rollback, where there is a champion before the last promotion. -/
theorem championId_rollback {id prev : List Char} (hprev : prev ≠ [])
    (hlast : r.read.lastPromotion = some (id, some prev)) :
    r.rollback.read.championId = some prev := by
  rcases rollback_cases (r := r) with ⟨-, hnone⟩ | ⟨id', prev', hlast', -, hchampion, -⟩
  · exact absurd (hnone id prev hlast) hprev
  · rw [hlast'] at hlast
    cases hlast
    exact hchampion

/-! ## Several in a row -/

theorem lastPromotion_rollbacks (k : ℕ) :
    (rollback^[k] r).read.lastPromotion = r.read.lastPromotion := by
  induction k with
  | zero => rfl
  | succ k ih => rw [Function.iterate_succ_apply', lastPromotion_rollback, ih]

/-- **The second rollback finds what the first one has found.** -/
theorem championId_rollbacks {id prev : List Char} (hprev : prev ≠ [])
    (hlast : r.read.lastPromotion = some (id, some prev)) (k : ℕ) :
    (rollback^[k + 1] r).read.championId = some prev := by
  rw [Function.iterate_succ_apply']
  exact championId_rollback hprev ((lastPromotion_rollbacks k).trans hlast)

theorem sound_rollbacks (h : r.read.Sound) (k : ℕ) : (rollback^[k] r).read.Sound := by
  induction k with
  | zero => exact h
  | succ k ih =>
    rw [Function.iterate_succ_apply']
    exact sound_call ih trivial

/-- After promotions without rollbacks the champion is the last model that was promoted, and the one
before it is remembered. -/
theorem promoted_run {calls : List Call} (hcalls : ∀ c ∈ calls, c.isRollback = false) :
    let promoted := calls.filterMap Call.promotes
    let r := calls.foldl call {}
    r.read.championId = promoted.getLast? ∧
      r.read.lastPromotion = promoted.getLast?.map fun id => (id, promoted.dropLast.getLast?) := by
  induction calls using List.reverseRecOn with
  | nil => exact ⟨rfl, rfl⟩
  | append_singleton calls c ih =>
    obtain ⟨hchampion, hlast⟩ := ih fun c hc => hcalls c (List.mem_append_left _ hc)
    simp only [List.foldl_append, List.foldl_cons, List.foldl_nil, List.filterMap_append]
    cases c with
    | rollback => exact absurd (hcalls .rollback (by simp)) (by simp [Call.isRollback])
    | registerChallenger seconds hex modelPath =>
      have hevents : ((calls.foldl call {}).call
          (.registerChallenger seconds hex modelPath)).read.lastPromotion =
            (calls.foldl call {}).read.lastPromotion := by
        simp [call, registerChallenger, read, RegistryPayload.lastPromotion,
          RegistryEvent.promotion]
      have hnone : [Call.registerChallenger seconds hex modelPath].filterMap Call.promotes = [] :=
        rfl
      rw [hevents, hnone, List.append_nil]
      exact ⟨hchampion, hlast⟩
    | promote modelId =>
      have hsome : [Call.promote modelId].filterMap Call.promotes = [modelId] := rfl
      have hnew : ((calls.foldl call {}).call (.promote modelId)).read.lastPromotion =
          some (modelId, (calls.foldl call {}).read.championId) := lastPromotion_handOver
      rw [hsome, hnew, List.getLast?_concat, List.dropLast_concat, hchampion]
      exact ⟨rfl, rfl⟩

/-! ## What stays away -/

/-- The model is not the champion, and was not before the last promotion. -/
def Away (modelId : List Char) (r : ChampionChallengerRegistry) : Prop :=
  r.read.championId ≠ some modelId ∧ ∀ id, r.read.lastPromotion ≠ some (id, some modelId)

theorem Away.rollback {modelId : List Char} (h : r.Away modelId) : r.rollback.Away modelId := by
  refine ⟨?_, fun id => ?_⟩
  · rcases rollback_cases (r := r) with ⟨heq, -⟩ | ⟨id, prev, hlast, -, hchampion, -⟩
    · rw [heq]
      exact h.1
    · rw [hchampion]
      rintro ⟨rfl⟩
      exact h.2 id hlast
  · rw [lastPromotion_rollback]
    exact h.2 id

/-- **A model that was removed stays away until it is promoted.** -/
theorem Away.call {modelId : List Char} {c : Call} (h : r.Away modelId)
    (hc : c.promotes ≠ some modelId) : (r.call c).Away modelId := by
  cases c with
  | registerChallenger seconds hex modelPath =>
    have hevents : (r.call (.registerChallenger seconds hex modelPath)).read.lastPromotion =
        r.read.lastPromotion := by
      simp [ChampionChallengerRegistry.call, registerChallenger, read,
        RegistryPayload.lastPromotion, RegistryEvent.promotion]
    refine ⟨h.1, fun id => ?_⟩
    rw [hevents]
    exact h.2 id
  | promote next =>
    have hnew : (r.call (.promote next)).read.lastPromotion = some (next, r.read.championId) :=
      lastPromotion_handOver
    refine ⟨hc, fun id heq => ?_⟩
    rw [hnew, Option.some_inj, Prod.mk.injEq] at heq
    exact h.1 heq.2
  | rollback => exact h.rollback

/-- A rollback that removes a model sends it away. -/
theorem away_of_removed {modelId : List Char} (hold : r.read.championId = some modelId)
    (hnew : r.rollback.read.championId ≠ some modelId) : r.rollback.Away modelId := by
  rcases rollback_cases (r := r) with ⟨heq, -⟩ | ⟨id, prev, hlast, -, hchampion, heq⟩
  · rw [heq] at hnew
    exact absurd hold hnew
  · refine ⟨hnew, fun id' => ?_⟩
    rw [heq, hlast]
    rintro ⟨rfl, rfl⟩
    exact hnew hchampion

theorem staysAway {modelId : List Char} {between : List Call} (h : r.Away modelId)
    (hbetween : modelId ∉ between.filterMap Call.promotes) :
    (between.foldl ChampionChallengerRegistry.call r).Away modelId := by
  have hstep : ∀ (r : ChampionChallengerRegistry) (c : Call), r.Away modelId →
      c.promotes ≠ some modelId → (r.call c).Away modelId := fun r c hr hc => hr.call hc
  refine foldl_induction hstep h fun c hc hpromotes => ?_
  exact hbetween (List.mem_filterMap.mpr ⟨c, hc, hpromotes⟩)

/-! ## The law of rollbacks -/

/-- **Rollbacks undo one promotion.** After promotions of different models, `k` rollbacks in a row
go back by `k` models, and bring none back that they have removed, exactly when `k` is at most
one. -/
theorem rollbackUndoes_iff {calls : List Call} {k : ℕ} (hcalls : AllSteps call Allows {} calls)
    (hforward : ∀ c ∈ calls, c.isRollback = false)
    (hdistinct : (calls.filterMap Call.promotes).Nodup)
    (hk : k < (calls.filterMap Call.promotes).length) : RollbackUndoes calls k ↔ k ≤ 1 := by
  obtain ⟨hchampion, hlast⟩ := promoted_run hforward
  have hsound : (calls.foldl call {}).read.Sound := sound_run hcalls
  have hnever : ∀ before between modelId,
      AllSteps call Allows {} (before ++ .rollback :: between) →
      (before.foldl call {}).champion = some modelId →
      (rollback (before.foldl call {})).champion ≠ some modelId →
      modelId ∉ between.filterMap Call.promotes →
      (rollback (between.foldl call (rollback (before.foldl call {})))).champion ≠
        some modelId := by
    intro before between modelId hsteps hold hnew hbetween
    obtain ⟨hbefore, -, hbetween'⟩ := allSteps_append.mp hsteps
    have hs : (before.foldl call {}).read.Sound := sound_run hbefore
    have hs' : (rollback (before.foldl call {})).read.Sound := sound_call hs trivial
    have hs'' : (rollback (between.foldl call (rollback (before.foldl call {})))).read.Sound :=
      sound_call (hbetween'.foldl (P := fun r => r.read.Sound)
        (fun r c h hc => sound_call h hc) hs') trivial
    rw [champion, currentChampion_modelId hs] at hold
    rw [champion, currentChampion_modelId hs'] at hnew
    rw [champion, currentChampion_modelId hs'']
    exact (staysAway (away_of_removed hold hnew) hbetween).rollback.1
  have hthis : (rollback^[k] (calls.foldl call {})).champion =
      (rollback^[k] (calls.foldl call {})).read.championId :=
    currentChampion_modelId (sound_rollbacks hsound k)
  simp only [RollbackUndoes, hthis]
  rw [and_iff_left hnever]
  generalize hp : calls.filterMap Call.promotes = promoted at *
  cases k with
  | zero =>
    refine iff_of_true ?_ zero_le_one
    rw [Function.iterate_zero, id, hchampion, List.getLast?_eq_getElem?, Nat.sub_zero]
  | succ k =>
    -- the champion before the last promotion
    obtain ⟨init, last, rfl⟩ := List.eq_nil_or_concat promoted |>.resolve_left
      (by rintro rfl; simp at hk)
    obtain ⟨init, prev, rfl⟩ := List.eq_nil_or_concat init |>.resolve_left
      (by rintro rfl; simp at hk)
    have hlast' : (calls.foldl call {}).read.lastPromotion = some (last, some prev) := by
      simpa using hlast
    have hprev := hsound.nonempty prev (hsound.of_lastPromotion hlast')
    rw [championId_rollbacks hprev hlast' k]
    constructor
    · intro h
      by_contra hlarge
      have hlow : ((init.concat prev).concat last)[init.length]? = some prev := by simp
      have hindex := (List.getElem?_inj (by simp) hdistinct).mp (hlow.trans h)
      simp only [List.length_concat] at hindex hk
      omega
    · intro h
      obtain rfl : k = 0 := by omega
      simp

/-- Three promotions. -/
def threeModels : List Call :=
  let ids := [drawId 1 "a0".toList, drawId 2 "b0".toList, drawId 3 "c0".toList]
  [.registerChallenger 1 "a0".toList "a.pt".toList, .registerChallenger 2 "b0".toList "b.pt".toList,
    .registerChallenger 3 "c0".toList "c.pt".toList] ++ ids.map .promote

/-- One rollback after them does what it is to do. -/
theorem rollbackUndoes_threeModels : RollbackUndoes threeModels 1 :=
  (rollbackUndoes_iff (by decide +kernel) (by decide +kernel) (by decide +kernel)
    (by decide +kernel)).mpr le_rfl

/-- **A second rollback does not reach the first model.** -/
theorem second_rollback_stays :
    (rollback^[2] (threeModels.foldl call {})).champion = some (drawId 2 "b0".toList) ∧
      ¬ RollbackUndoes threeModels 2 := by
  have hstays : (rollback^[2] (threeModels.foldl call {})).champion =
      some (drawId 2 "b0".toList) := by
    decide +kernel
  refine ⟨hstays, fun h => ?_⟩
  have hfirst := h.1
  rw [hstays] at hfirst
  exact absurd hfirst (by decide +kernel)

end ChampionChallengerRegistry

end TradingInfrastructure
