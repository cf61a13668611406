import Mathlib.Algebra.BigOperators.Ring.List
import Mathlib.Data.List.GetD
import Mathlib.Tactic

/-!
# The probabilities of the regimes

`infer_regime_probabilities` of `research/regime/regime.py`: the posterior of the last row is
stabilised, its states are read under their names, and what lies in states with other names is
spread over the four regimes, before the result is smoothed against the one before it.

What cannot be spread is lost: when no state has one of the four names, or the weights of these
states or of the others are below the threshold, the four values do not sum to one. A result that is
smoothed is divided by its sum, so the values are a distribution then
(`inferRegimeProbabilities_isDistribution_iff`).
-/

namespace TradingInfrastructure

/-! ## The artifact -/

/-- `RegimeArtifact`. -/
structure RegimeArtifact (K : Type*) where
  version : String
  nRegimes : ℕ
  featureColumns : List String
  regimeNames : List String
  initialProbs : List K
  transitionMatrix : List (List K)
  means : List (List K)
  variances : List (List K)
  scales : List K
  deriving DecidableEq

/-- `_validate_artifact`. -/
def RegimeArtifact.validate {K : Type*} (artifact : RegimeArtifact K) : Except String Unit :=
  let n := artifact.nRegimes
  if n ≠ 3 ∧ n ≠ 4 then .error "Regime artifact must contain 3 or 4 regimes"
  else if artifact.regimeNames.length ≠ n then
    .error "Regime artifact regime_names length mismatch"
  else if artifact.regimeNames.dedup.length ≠ artifact.regimeNames.length then
    .error "Regime artifact regime_names must be unique"
  else if artifact.initialProbs.length ≠ n then
    .error "Regime artifact initial_probs length mismatch"
  else if artifact.transitionMatrix.length ≠ n ∨
      artifact.transitionMatrix.any fun row => row.length ≠ n then
    .error "Regime artifact transition_matrix shape mismatch"
  else if artifact.means.length ≠ n ∨ artifact.variances.length ≠ n then
    .error "Regime artifact emission parameter shape mismatch"
  else .ok ()

/-- What a valid artifact is known for below: three or four states, with as many different names. -/
theorem RegimeArtifact.of_validate {K : Type*} {artifact : RegimeArtifact K}
    (h : artifact.validate = .ok ()) :
    (artifact.nRegimes = 3 ∨ artifact.nRegimes = 4) ∧
      artifact.regimeNames.length = artifact.nRegimes ∧ artifact.regimeNames.Nodup := by
  unfold validate at h
  dsimp only at h
  split_ifs at h with hn hlength hunique hinitial htransition hmeans
  refine ⟨by omega, not_not.mp hlength, ?_⟩
  have hsame := (List.dedup_sublist artifact.regimeNames).eq_of_length (not_not.mp hunique)
  exact List.dedup_eq_self.mp hsame

/-! ## The result -/

/-- The result of `infer_regime_probabilities`. -/
structure RegimeProbabilities (K : Type*) where
  pCalm : K
  pTrending : K
  pShock : K
  pIlliquid : K
  deriving DecidableEq

namespace RegimeProbabilities

variable {K : Type*}

def values (p : RegimeProbabilities K) : List K := [p.pCalm, p.pTrending, p.pShock, p.pIlliquid]

def map (f : K → K) (p : RegimeProbabilities K) : RegimeProbabilities K where
  pCalm := f p.pCalm
  pTrending := f p.pTrending
  pShock := f p.pShock
  pIlliquid := f p.pIlliquid

def zipWith (f : K → K → K) (p q : RegimeProbabilities K) : RegimeProbabilities K where
  pCalm := f p.pCalm q.pCalm
  pTrending := f p.pTrending q.pTrending
  pShock := f p.pShock q.pShock
  pIlliquid := f p.pIlliquid q.pIlliquid

@[simp] theorem values_map (f : K → K) (p : RegimeProbabilities K) :
    (p.map f).values = p.values.map f := rfl

@[simp] theorem values_zipWith (f : K → K → K) (p q : RegimeProbabilities K) :
    (zipWith f p q).values = List.zipWith f p.values q.values := rfl

/-- Four values in the unit interval that sum to one. -/
def IsDistribution [Field K] [LinearOrder K] (p : RegimeProbabilities K) : Prop :=
  (∀ v ∈ p.values, 0 ≤ v ∧ v ≤ 1) ∧ p.values.sum = 1

instance [Field K] [LinearOrder K] (p : RegimeProbabilities K) : Decidable p.IsDistribution :=
  inferInstanceAs (Decidable (_ ∧ _))

end RegimeProbabilities

/-! ## The inference -/

section Inference

variable {K : Type*} [Field K] [LinearOrder K]

/-- `_EPS`. -/
def regimeEps : K := 1e-12

/-- `posterior_inertia`, `output_ema_alpha` and `variance_floor` of
`config/research/regime.yaml`. -/
def posteriorInertia : K := 0.75

@[inherit_doc posteriorInertia]
def outputEmaAlpha : K := 0.85

@[inherit_doc posteriorInertia]
def varianceFloor : K := 1e-3

/-- `_normalize_prob_vector`. -/
def normalizeProbVector (values : List K) : List K :=
  let clipped := values.map (max · regimeEps)
  clipped.map (· / max clipped.sum regimeEps)

/-- `_stabilize_last_posterior`. -/
def stabilizeLastPosterior (gamma : List (List K)) (inertia : K) : List K :=
  let clippedInertia := min (max inertia 0) (95 / 100)
  let last := normalizeProbVector (gamma.getD (gamma.length - 1) [])
  if gamma.length < 2 ∨ clippedInertia ≤ 0 then last
  else
    let prev := normalizeProbVector (gamma.getD (gamma.length - 2) [])
    let blended := List.zipWith (fun l p => (1 - clippedInertia) * l + clippedInertia * p) last prev
    normalizeProbVector blended

/-- `prob_by_name.get(name, 0.0)`: of two states with one name the later counts. -/
def probByName (states : List (String × K)) (name : String) : K :=
  (states.reverse.lookup name).getD 0

/-- The probabilities of the four names. -/
def namedProbabilities (states : List (String × K)) : RegimeProbabilities K where
  pCalm := probByName states "calm"
  pTrending := probByName states "trending"
  pShock := probByName states "shock"
  pIlliquid := probByName states "illiquid"

/-- The residual is spread over the four. -/
def spreadResidual (p : RegimeProbabilities K) : RegimeProbabilities K :=
  let assigned := p.pCalm + p.pShock + p.pIlliquid + p.pTrending
  let residual := 1 - assigned
  if residual > 1e-9 then
    let totalNamed := if assigned > 1e-9 then assigned else 1
    let scale := (assigned + residual) / totalNamed
    p.map (· * scale)
  else p

/-- The result is smoothed against the one before it, and divided by its sum. -/
def smoothOutput (prevProbs : Option (RegimeProbabilities K)) (result : RegimeProbabilities K) :
    RegimeProbabilities K :=
  match prevProbs with
  | none => result
  | some prev =>
    if (outputEmaAlpha : K) > 0 then
      let alpha : K := min (max outputEmaAlpha 0) (95 / 100)
      let blended := result.zipWith (fun r p => (1 - alpha) * r + alpha * p) prev
      let total := blended.values.sum
      if total > regimeEps then blended.map (· / total) else blended
    else result

/-- The posterior of each row: `_forward_backward` on the emissions of `_log_gaussian_diag`, from
the rows, the means, the variances, the initial probabilities and the transition matrix. -/
abbrev ForwardBackward (K : Type*) :=
  List (List K) → List (List K) → List (List K) → List K → List (List K) → List (List K)

/-- The posterior that `infer_regime_probabilities` works with. -/
def regimePosterior (forwardBackward : ForwardBackward K) (feat : List (List K))
    (artifact : RegimeArtifact K) : List (List K) :=
  let scales := artifact.scales.map fun s => if s < 1e-8 then 1 else s
  let x := feat.map fun row => List.zipWith (· / ·) row scales
  let variances := artifact.variances.map (·.map (max · varianceFloor))
  let transition := artifact.transitionMatrix.map normalizeProbVector
  let initial := normalizeProbVector artifact.initialProbs
  forwardBackward x artifact.means variances initial transition

/-- `infer_regime_probabilities`, on the rows of the features in the artifact's columns. -/
def inferRegimeProbabilities (forwardBackward : ForwardBackward K) (feat : List (List K))
    (artifact : RegimeArtifact K) (prevProbs : Option (RegimeProbabilities K)) :
    RegimeProbabilities K :=
  if feat = [] then ⟨1, 0, 0, 0⟩
  else
    let gamma := regimePosterior forwardBackward feat artifact
    let lastProbs := stabilizeLastPosterior gamma posteriorInertia
    smoothOutput prevProbs
      (spreadResidual (namedProbabilities (artifact.regimeNames.zip lastProbs)))

/-! ## Vectors of probabilities -/

variable [IsStrictOrderedRing K]

theorem regimeEps_pos : (0 : K) < regimeEps := by
  unfold regimeEps
  positivity

/-- A vector of probabilities: positive values that sum to one. -/
structure IsProbVector (n : ℕ) (values : List K) : Prop where
  length_eq : values.length = n
  pos : ∀ v ∈ values, 0 < v
  sum_eq : values.sum = 1

/-- A normalised vector is one of probabilities. -/
theorem isProbVector_normalizeProbVector {values : List K} (hvalues : values ≠ []) :
    IsProbVector values.length (normalizeProbVector values) := by
  have hle : ∀ v ∈ values.map (max · regimeEps), regimeEps ≤ v := by
    intro v hv
    obtain ⟨w, -, rfl⟩ := List.mem_map.mp hv
    exact le_max_right w _
  obtain ⟨v, rest, hcons⟩ := List.exists_cons_of_ne_nil hvalues
  have hsum : regimeEps ≤ (values.map (max · regimeEps)).sum := by
    rw [hcons, List.map_cons, List.sum_cons]
    refine (le_max_right v _).trans (le_add_of_nonneg_right (List.sum_nonneg fun w hw => ?_))
    exact regimeEps_pos.le.trans (hle w (by rw [hcons]; exact List.mem_cons_of_mem _ hw))
  have hpos : (0 : K) < (values.map (max · regimeEps)).sum := regimeEps_pos.trans_le hsum
  have heq : normalizeProbVector values =
      (values.map (max · regimeEps)).map (· / (values.map (max · regimeEps)).sum) := by
    rw [normalizeProbVector, max_eq_left hsum]
  refine ⟨by simp [heq], fun w hw => ?_, ?_⟩
  · rw [heq] at hw
    obtain ⟨u, hu, rfl⟩ := List.mem_map.mp hw
    exact div_pos (regimeEps_pos.trans_le (hle u hu)) hpos
  · simp only [heq, div_eq_mul_inv]
    rw [List.sum_map_mul_right, List.map_id', mul_inv_cancel₀ hpos.ne']

/-- Whatever two such vectors are blended to can be normalised. -/
theorem IsProbVector.blend {n : ℕ} {l p : List K} (hl : IsProbVector n l) (hp : IsProbVector n p)
    (hn : n ≠ 0) (f : K → K → K) :
    IsProbVector n (normalizeProbVector (List.zipWith f l p)) := by
  have hlength : (List.zipWith f l p).length = n := by
    rw [List.length_zipWith, hl.length_eq, hp.length_eq, min_self]
  have hvector := isProbVector_normalizeProbVector
    (List.ne_nil_of_length_pos (hlength.symm ▸ Nat.pos_of_ne_zero hn))
  rwa [hlength] at hvector

/-- The stabilised posterior of the last row is one of probabilities. -/
theorem isProbVector_stabilizeLastPosterior {gamma : List (List K)} {n : ℕ} (inertia : K)
    (hn : n ≠ 0) (hgamma : gamma ≠ []) (hrows : ∀ row ∈ gamma, row.length = n) :
    IsProbVector n (stabilizeLastPosterior gamma inertia) := by
  have hrow : ∀ i < gamma.length, IsProbVector n (normalizeProbVector (gamma.getD i [])) := by
    intro i hi
    have hlength : (gamma.getD i []).length = n := by
      rw [List.getD_eq_getElem _ _ hi]
      exact hrows _ (List.getElem_mem hi)
    rw [← hlength]
    exact isProbVector_normalizeProbVector (List.ne_nil_of_length_pos (by omega))
  have hlength : 0 < gamma.length := List.length_pos_of_ne_nil hgamma
  have hlast := hrow (gamma.length - 1) (by omega)
  unfold stabilizeLastPosterior
  dsimp only
  split_ifs with hshort
  · exact hlast
  · exact hlast.blend (hrow (gamma.length - 2) (by omega)) hn _

/-! ## The four names -/

/-- The names of the four regimes. -/
def regimeKeys : Finset String := {"calm", "trending", "shock", "illiquid"}

omit [LinearOrder K] [IsStrictOrderedRing K] in
/-- Reading states with different names under some names gives the weight of those that have one of
the names. -/
theorem sum_lookup (keys : Finset String) {states : List (String × K)}
    (hnodup : (states.map Prod.fst).Nodup) :
    ∑ key ∈ keys, (states.lookup key).getD 0 =
      ((states.filter fun p => p.1 ∈ keys).map Prod.snd).sum := by
  induction states with
  | nil => simp
  | cons state states ih =>
    obtain ⟨name, v⟩ := state
    obtain ⟨hnew, hnodup⟩ := List.nodup_cons.mp hnodup
    -- the name is read once, and the others as before
    have hread : ∀ key, (((name, v) :: states).lookup key).getD 0 =
        (if key = name then v else 0) + (states.lookup key).getD 0 := by
      intro key
      by_cases hkey : key = name
      · have hnone : states.lookup key = none := by
          rw [List.lookup_eq_none_iff]
          intro p hp
          have hne : p.1 ≠ name := fun h => hnew (List.mem_map.mpr ⟨p, hp, h⟩)
          simpa [hkey] using Ne.symm hne
        rw [hnone]
        simp [hkey]
      · simp [List.lookup_cons, hkey, beq_eq_false_iff_ne.mpr hkey]
    simp only [hread, Finset.sum_add_distrib, ih hnodup, Finset.sum_ite_eq', List.filter_cons]
    split_ifs <;> simp_all

/-- The weight of the states with one of the four names. -/
def namedWeight (states : List (String × K)) : K :=
  ((states.filter fun p => p.1 ∈ regimeKeys).map Prod.snd).sum

/-- The weight of the other states. -/
def otherWeight (states : List (String × K)) : K :=
  ((states.filter fun p => p.1 ∉ regimeKeys).map Prod.snd).sum

omit [LinearOrder K] [IsStrictOrderedRing K] in
theorem namedWeight_add_otherWeight (states : List (String × K)) :
    namedWeight states + otherWeight states = (states.map Prod.snd).sum := by
  unfold namedWeight otherWeight
  induction states with
  | nil => simp
  | cons p states ih =>
    rw [List.map_cons, List.sum_cons, ← ih, List.filter_cons, List.filter_cons]
    by_cases hname : p.1 ∈ regimeKeys
    · simp [hname, add_assoc]
    · simp [hname, add_left_comm]

/-- Without weight there is no other state. -/
theorem otherWeight_eq_zero_iff {states : List (String × K)} (hpos : ∀ p ∈ states, 0 < p.2) :
    otherWeight states = 0 ↔ ∀ p ∈ states, p.1 ∈ regimeKeys := by
  have hvalues : ∀ v ∈ (states.filter fun p => p.1 ∉ regimeKeys).map Prod.snd, 0 < v := by
    intro v hv
    obtain ⟨p, hp, rfl⟩ := List.mem_map.mp hv
    exact hpos p (List.mem_of_mem_filter hp)
  constructor
  · intro hzero p hp
    by_contra hname
    have hmem : p.2 ∈ (states.filter fun p => p.1 ∉ regimeKeys).map Prod.snd :=
      List.mem_map_of_mem (List.mem_filter.mpr ⟨hp, by simpa using hname⟩)
    have hle := List.single_le_sum (fun v hv => (hvalues v hv).le) _ hmem
    exact absurd (hle.trans_eq hzero) (not_le.mpr (hpos p hp))
  · intro hall
    have hnone : (states.filter fun p => p.1 ∉ regimeKeys) = [] :=
      List.filter_eq_nil_iff.mpr fun p hp => by simpa using hall p hp
    rw [otherWeight, hnone, List.map_nil, List.sum_nil]

omit [LinearOrder K] [IsStrictOrderedRing K] in
theorem sum_values_namedProbabilities {states : List (String × K)}
    (hnodup : (states.map Prod.fst).Nodup) :
    (namedProbabilities states).values.sum = namedWeight states := by
  have hreverse : (states.reverse.map Prod.fst).Nodup := by
    rw [List.map_reverse]
    exact List.nodup_reverse.mpr hnodup
  have hsum := sum_lookup regimeKeys hreverse
  rw [List.filter_reverse, List.map_reverse, List.sum_reverse] at hsum
  rw [namedWeight, ← hsum, regimeKeys, Finset.sum_insert (by decide), Finset.sum_insert (by decide),
    Finset.sum_insert (by decide), Finset.sum_singleton]
  simp only [RegimeProbabilities.values, namedProbabilities, probByName, List.sum_cons,
    List.sum_nil, add_zero]

omit [IsStrictOrderedRing K] in
/-- What is read under a name is the value of a state, or zero. -/
theorem probByName_nonneg {states : List (String × K)} (hpos : ∀ p ∈ states, 0 < p.2)
    (name : String) : 0 ≤ probByName states name := by
  unfold probByName
  cases hlookup : states.reverse.lookup name with
  | none => exact le_rfl
  | some v =>
    obtain ⟨before, after, hsplit, -⟩ := List.lookup_eq_some_iff.mp hlookup
    have hmem : (name, v) ∈ states.reverse := by simp [hsplit]
    exact (hpos _ (List.mem_reverse.mp hmem)).le

/-! ## The sum -/

/-- Values that are not negative are a distribution if they sum to one. -/
theorem RegimeProbabilities.isDistribution_iff {p : RegimeProbabilities K}
    (hnonneg : ∀ v ∈ p.values, 0 ≤ v) : p.IsDistribution ↔ p.values.sum = 1 := by
  refine ⟨fun h => h.2, fun hsum => ⟨fun v hv => ⟨hnonneg v hv, ?_⟩, hsum⟩⟩
  exact (List.single_le_sum hnonneg v hv).trans_eq hsum

omit [IsStrictOrderedRing K] in
theorem namedProbabilities_nonneg {states : List (String × K)} (hpos : ∀ p ∈ states, 0 < p.2) :
    ∀ v ∈ (namedProbabilities states).values, 0 ≤ v := by
  intro v hv
  simp only [RegimeProbabilities.values, namedProbabilities, List.mem_cons, List.not_mem_nil,
    or_false] at hv
  rcases hv with rfl | rfl | rfl | rfl <;> exact probByName_nonneg hpos _

theorem spreadResidual_nonneg {p : RegimeProbabilities K} (hp : ∀ v ∈ p.values, 0 ≤ v) :
    ∀ v ∈ (spreadResidual p).values, 0 ≤ v := by
  unfold spreadResidual
  dsimp only
  split_ifs with hresidual hassigned
  · intro v hv
    rw [RegimeProbabilities.values_map] at hv
    obtain ⟨w, hw, rfl⟩ := List.mem_map.mp hv
    have hpos : (0 : K) < 1e-9 := by norm_num
    rw [add_sub_cancel]
    exact mul_nonneg (hp w hw) (div_nonneg zero_le_one (hpos.trans hassigned).le)
  · intro v hv
    rw [RegimeProbabilities.values_map] at hv
    obtain ⟨w, hw, rfl⟩ := List.mem_map.mp hv
    rw [add_sub_cancel]
    exact mul_nonneg (hp w hw) (div_nonneg zero_le_one zero_le_one)
  · exact hp

/-- **What the residual is spread over.** The four values are a distribution if there is no other
state, or if these states and the others both have more weight than the threshold. -/
theorem isDistribution_spreadResidual_iff {states : List (String × K)}
    (hnodup : (states.map Prod.fst).Nodup) (hpos : ∀ p ∈ states, 0 < p.2)
    (hsum : (states.map Prod.snd).sum = 1) :
    (spreadResidual (namedProbabilities states)).IsDistribution ↔
      (∀ p ∈ states, p.1 ∈ regimeKeys) ∨
        1e-9 < namedWeight states ∧ 1e-9 < otherWeight states := by
  have hnamed := sum_values_namedProbabilities hnodup
  have hnonneg := namedProbabilities_nonneg hpos
  have hweights : namedWeight states + otherWeight states = 1 :=
    (namedWeight_add_otherWeight states).trans hsum
  rw [← otherWeight_eq_zero_iff hpos]
  have hspread := spreadResidual_nonneg hnonneg
  generalize namedProbabilities states = p at hnamed hnonneg hspread ⊢
  rw [RegimeProbabilities.isDistribution_iff hspread]
  have hassigned : p.pCalm + p.pShock + p.pIlliquid + p.pTrending = namedWeight states := by
    rw [← hnamed]
    simp only [RegimeProbabilities.values, List.sum_cons, List.sum_nil]
    ring
  generalize namedWeight states = named at hnamed hassigned hweights ⊢
  generalize otherWeight states = other at hweights ⊢
  have hsmall : (0 : K) < 1e-9 := by norm_num
  have hresidual : 1 - named = other := by rw [← hweights, add_sub_cancel_left]
  unfold spreadResidual
  simp only [hassigned, hresidual, gt_iff_lt]
  by_cases hother : 1e-9 < other
  · rw [if_pos hother, RegimeProbabilities.values_map, List.sum_map_mul_right, List.map_id', hnamed,
      hweights]
    by_cases hlarge : 1e-9 < named
    · rw [if_pos hlarge, mul_one_div_cancel (hsmall.trans hlarge).ne']
      exact iff_of_true rfl (Or.inr ⟨hlarge, hother⟩)
    · -- nothing is scaled up, and what has no name is lost
      rw [if_neg hlarge, div_one, mul_one]
      refine iff_of_false (fun hone => ?_) ?_
      · rw [hone] at hlarge
        exact hlarge (by norm_num)
      · rintro (hzero | ⟨hnot, -⟩)
        · exact absurd (hzero ▸ hother) (not_lt.mpr hsmall.le)
        · exact hlarge hnot
  · rw [if_neg hother, hnamed, or_iff_left fun h => hother h.2]
    constructor
    · intro hone
      linarith
    · intro hzero
      linarith

/-- **Smoothed against a distribution** the result is one. -/
theorem isDistribution_smoothOutput {prev result : RegimeProbabilities K}
    (hprev : prev.IsDistribution) (hresult : ∀ v ∈ result.values, 0 ≤ v) :
    (smoothOutput (some prev) result).IsDistribution := by
  have halpha : (0 : K) < outputEmaAlpha := by norm_num [outputEmaAlpha]
  have hclip : min (max (outputEmaAlpha : K) 0) (95 / 100) = 17 / 20 := by
    norm_num [outputEmaAlpha]
  simp only [smoothOutput, gt_iff_lt, if_pos halpha, hclip]
  obtain ⟨hvalues, hsum⟩ := hprev
  simp only [RegimeProbabilities.values, List.mem_cons, List.not_mem_nil, or_false,
    forall_eq_or_imp, forall_eq, List.sum_cons, List.sum_nil, add_zero] at hvalues hsum hresult
  obtain ⟨hcalm, htrending, hshock, hilliquid⟩ := hresult
  have hblended : ∀ v ∈ (result.zipWith (fun r p => (1 - 17 / 20) * r + 17 / 20 * p) prev).values,
      0 ≤ v := by
    simp only [RegimeProbabilities.values, RegimeProbabilities.zipWith, List.mem_cons,
      List.not_mem_nil, or_false, forall_eq_or_imp, forall_eq]
    exact ⟨by linarith, by linarith, by linarith, by linarith⟩
  have htotal : (17 / 20 : K) ≤
      (result.zipWith (fun r p => (1 - 17 / 20) * r + 17 / 20 * p) prev).values.sum := by
    simp only [RegimeProbabilities.values, RegimeProbabilities.zipWith, List.sum_cons,
      List.sum_nil, add_zero]
    linarith
  generalize result.zipWith (fun r p => (1 - 17 / 20) * r + 17 / 20 * p) prev = blended
    at hblended htotal ⊢
  have heps : (regimeEps : K) < 17 / 20 := by norm_num [regimeEps]
  have hpos : 0 < blended.values.sum := regimeEps_pos.trans (heps.trans_le htotal)
  rw [if_pos (heps.trans_le htotal), RegimeProbabilities.isDistribution_iff]
  · simp only [RegimeProbabilities.values_map, div_eq_mul_inv]
    rw [List.sum_map_mul_right, List.map_id', mul_inv_cancel₀ hpos.ne']
  · intro v hv
    rw [RegimeProbabilities.values_map] at hv
    obtain ⟨w, hw, rfl⟩ := List.mem_map.mp hv
    exact div_nonneg (hblended w hw) hpos.le

/-! ## The whole inference -/

/-- The states of the artifact, with the weights of the stabilised posterior. -/
def regimeStates (forwardBackward : ForwardBackward K) (feat : List (List K))
    (artifact : RegimeArtifact K) : List (String × K) :=
  artifact.regimeNames.zip
    (stabilizeLastPosterior (regimePosterior forwardBackward feat artifact) posteriorInertia)

/-- **When the four values are a distribution**: when they are smoothed against one, when every
state has one of the four names, or when the states with these names and the others both have more
weight than the threshold. -/
theorem inferRegimeProbabilities_isDistribution_iff {forwardBackward : ForwardBackward K}
    {feat : List (List K)} {artifact : RegimeArtifact K}
    {prevProbs : Option (RegimeProbabilities K)} (hfeat : feat ≠ [])
    (hvalid : artifact.validate = .ok ())
    (hlength : (regimePosterior forwardBackward feat artifact).length = feat.length)
    (hrows : ∀ row ∈ regimePosterior forwardBackward feat artifact,
      row.length = artifact.nRegimes ∧ ∀ p ∈ row, 0 < p)
    (hprev : ∀ prev, prevProbs = some prev → prev.IsDistribution) :
    (inferRegimeProbabilities forwardBackward feat artifact prevProbs).IsDistribution ↔
      prevProbs.isSome = true ∨ (∀ name ∈ artifact.regimeNames, name ∈ regimeKeys) ∨
        1e-9 < namedWeight (regimeStates forwardBackward feat artifact) ∧
          1e-9 < otherWeight (regimeStates forwardBackward feat artifact) := by
  obtain ⟨hn, hnames, hnodup⟩ := RegimeArtifact.of_validate hvalid
  have hvector : IsProbVector artifact.nRegimes
      (stabilizeLastPosterior (regimePosterior forwardBackward feat artifact)
        posteriorInertia) := by
    refine isProbVector_stabilizeLastPosterior _ (by omega) ?_ fun row hrow => (hrows row hrow).1
    exact List.ne_nil_of_length_pos (hlength ▸ List.length_pos_of_ne_nil hfeat)
  have hfst : (regimeStates forwardBackward feat artifact).map Prod.fst = artifact.regimeNames :=
    List.map_fst_zip (by rw [hnames, hvector.length_eq])
  have hsnd : (regimeStates forwardBackward feat artifact).map Prod.snd =
      stabilizeLastPosterior (regimePosterior forwardBackward feat artifact) posteriorInertia :=
    List.map_snd_zip (by rw [hnames, hvector.length_eq])
  have hpos : ∀ p ∈ regimeStates forwardBackward feat artifact, 0 < p.2 := by
    intro p hp
    exact hvector.pos _ (hsnd ▸ List.mem_map_of_mem hp)
  have hresult : inferRegimeProbabilities forwardBackward feat artifact prevProbs =
      smoothOutput prevProbs (spreadResidual
        (namedProbabilities (regimeStates forwardBackward feat artifact))) := if_neg hfeat
  rw [hresult]
  cases prevProbs with
  | some prev =>
    refine iff_of_true (isDistribution_smoothOutput (hprev prev rfl) ?_) (Or.inl rfl)
    exact spreadResidual_nonneg (namedProbabilities_nonneg hpos)
  | none =>
    have hspread := isDistribution_spreadResidual_iff (hfst ▸ hnodup) hpos
      (by rw [hsnd, hvector.sum_eq])
    rw [smoothOutput, hspread, ← hfst]
    simp

end Inference

/-- An artifact with three states, on one feature. -/
def threeStates (regimeNames : List String) : RegimeArtifact ℚ where
  version := "r2-regime-hmm-v1"
  nRegimes := 3
  featureColumns := ["vol_20"]
  regimeNames := regimeNames
  initialProbs := [1 / 3, 1 / 3, 1 / 3]
  transitionMatrix := List.replicate 3 [1 / 3, 1 / 3, 1 / 3]
  means := List.replicate 3 [0]
  variances := List.replicate 3 [1]
  scales := [1]

/-- The posterior of states that do not differ. -/
def evenPosterior : ForwardBackward ℚ := fun x _ _ _ _ => x.map fun _ => [1 / 3, 1 / 3, 1 / 3]

theorem inferRegimeProbabilities_isDistribution_named :
    (inferRegimeProbabilities evenPosterior [[0]] (threeStates ["calm", "shock", "illiquid"])
      none).IsDistribution :=
  (inferRegimeProbabilities_isDistribution_iff (by decide) (by decide +kernel) (by decide +kernel)
    (by decide +kernel) fun _ h => absurd h (by simp)).mpr (by decide +kernel)

/-- No state has one of the four names, and all the values are zero. -/
theorem inferRegimeProbabilities_unnamed :
    (threeStates ["regime_0", "regime_1", "regime_2"]).validate = .ok () ∧
      ¬ (inferRegimeProbabilities evenPosterior [[0]]
        (threeStates ["regime_0", "regime_1", "regime_2"]) none).IsDistribution := by
  decide +kernel

end TradingInfrastructure
