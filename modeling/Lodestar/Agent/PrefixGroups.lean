import Lodestar.Agent.Infer

/-!
# Prefix groups and near-best pods

The end of `handle_infer` of `agent_codes/routing_agent_service.py` corrects the pod that the model
selects.  With many pods in use, requests with the same prefix are kept on `K` candidate pods
(`_select_candidate_pods`), unless the pod was explored; after that a pod is drawn among those whose
predicted reward is near the best one.
-/

namespace Lodestar.Agent

open List

/-! ### Candidates -/

/-- The pods at the places of the candidates. -/
def candidatePods {α : Type*} (hash : ℕ → ℤ → ℕ) (prefixHash : ℤ) (pods : List α) (k : ℕ) : List α :=
  (selectCandidatePods hash prefixHash pods.length k).filterMap (pods[·]?)

/-- **The candidates of a prefix group.** -/
theorem candidatePods_spec {α : Type*} (hash : ℕ → ℤ → ℕ) (prefixHash : ℤ) (pods : List α)
    (hpods : pods.Nodup) (k : ℕ) :
    let places := selectCandidatePods hash prefixHash pods.length
    let candidates := candidatePods hash prefixHash pods
    (∀ i < min k pods.length, ∃ p < pods.length, p ∉ places i ∧ ∀ fuel ≥ pods.length,
          probe pods.length (places i) fuel (hash i prefixHash % pods.length) = p) ∧
      (candidates k).length = min k pods.length ∧ (candidates k).Nodup ∧
      (∀ pod ∈ candidates k, pod ∈ pods) ∧ candidates k <+: candidates (k + 1) ∧
      (k < pods.length → ∃ pod ∉ candidates k, candidates (k + 1) = candidates k ++ [pod]) := by
  intro places candidates
  have hspec : ∀ k, (candidates k).length = min k pods.length ∧ (candidates k).Nodup := by
    intro k
    obtain ⟨hlen, hnodup, hlt⟩ := selectCandidatePods_spec (n := pods.length) hash prefixHash k
    refine ⟨?_, hnodup.filterMap fun i j pod hi hj => ?_⟩
    · rw [← hlen]
      exact List.filterMap_length_eq_length.mpr fun i hi => by simpa using hlt i hi
    · exact (List.getElem?_inj (List.getElem?_eq_some_iff.mp hi).1 hpods).mp (hi.trans hj.symm)
  have hgrow : k < pods.length → ∃ pod ∉ candidates k, candidates (k + 1) = candidates k ++ [pod] := by
    intro hk
    have hplace := selectCandidatePods_succ hash prefixHash hk
    obtain ⟨p, hp⟩ : ∃ p, places (k + 1) = places k ++ [p] := ⟨_, hplace⟩
    have hlt : p < pods.length :=
      (selectCandidatePods_spec hash prefixHash (k + 1)).2.2 p (by
        rw [show selectCandidatePods _ _ _ _ = _ from hp]; simp)
    have heq : candidates (k + 1) = candidates k ++ [pods[p]] := by
      show (places (k + 1)).filterMap _ = _
      rw [hp]
      simp [hlt, candidates, candidatePods, places]
    have hnodup := (hspec (k + 1)).2
    rw [heq] at hnodup
    exact ⟨pods[p], fun hin => (nodup_append.mp hnodup).2.2 _ hin _ (by simp) rfl, heq⟩
  refine ⟨fun i hi => ?_, (hspec k).1, (hspec k).2, fun pod hpod => ?_, ?_, hgrow⟩
  · have hlen := (selectCandidatePods_spec (n := pods.length) hash prefixHash i).1
    exact probe_spec (hlen.trans_lt (by omega)) (Nat.mod_lt _ (by omega))
  · obtain ⟨i, -, hi⟩ := mem_filterMap.mp hpod
    exact mem_of_getElem? hi
  · by_cases hk : k < pods.length
    · obtain ⟨pod, -, heq⟩ := hgrow hk
      exact heq ▸ prefix_append _ _
    · simp only [candidates, candidatePods, selectCandidatePods_of_le hash prefixHash (not_lt.mp hk)]
      exact prefix_refl _

theorem candidatePods_spec_two : candidatePods (fun i _ => 5 * i) 7 ["a", "b", "c"] 2 = ["a", "c"] ∧
    (candidatePods (fun i _ => 5 * i) 7 ["a", "b", "c"] 2).length = min 2 3 :=
  ⟨by decide, (candidatePods_spec (fun i _ => 5 * i) 7 ["a", "b", "c"] (by decide) 2).2.1⟩

/-! ### Near-best pods -/

lemma mem_nearBest {threshold best : ℚ} {rewards : List ℚ} (hbest : rewards.max? = some best)
    {i : ℕ} : i ∈ nearBest threshold rewards ↔
      ∃ reward, rewards[i]? = some reward ∧ best * (1 - threshold) ≤ reward := by
  simp only [nearBest, hbest, mem_filter, mem_range]
  constructor
  · rintro ⟨hi, hle⟩
    exact ⟨rewards[i], getElem?_eq_getElem hi, by simpa [hi] using hle⟩
  · rintro ⟨reward, hreward, hle⟩
    obtain ⟨hi, rfl⟩ := List.getElem?_eq_some_iff.mp hreward
    exact ⟨hi, by simpa [hi] using hle⟩

/-- **The pods near the best one** are those whose reward is within the fraction of its magnitude, if
the best reward is not negative. -/
theorem nearBest_iff {threshold best : ℚ} (hthreshold : 0 ≤ threshold) {rewards : List ℚ}
    (hbest : rewards.max? = some best) :
    ((∀ i reward, rewards[i]? = some reward →
        (i ∈ nearBest threshold rewards ↔ |best - reward| ≤ threshold * |best|)) ∧
      ∀ i, rewards[i]? = some best → i ∈ nearBest threshold rewards) ↔
    0 ≤ best ∨ threshold = 0 := by
  obtain ⟨hin, hmax⟩ := max?_eq_some_iff.mp hbest
  constructor
  · rintro ⟨-, hself⟩
    obtain ⟨i, hi⟩ := getElem?_of_mem hin
    obtain ⟨reward, hreward, hle⟩ := (mem_nearBest hbest).mp (hself i hi)
    obtain rfl := Option.some.inj (hi.symm.trans hreward)
    by_contra! hno
    have := mul_neg_of_neg_of_pos hno.1 (lt_of_le_of_ne hthreshold hno.2.symm)
    linarith
  · intro hcond
    have hscale : threshold * |best| = threshold * best := by
      rcases hcond with hcond | hcond
      · rw [abs_of_nonneg hcond]
      · rw [hcond, zero_mul, zero_mul]
    have hall : ∀ i reward, rewards[i]? = some reward →
        (i ∈ nearBest threshold rewards ↔ |best - reward| ≤ threshold * |best|) := by
      intro i reward hreward
      rw [mem_nearBest hbest,
        abs_of_nonneg (sub_nonneg.mpr (hmax reward (mem_of_getElem? hreward)))]
      simp only [hreward, Option.some.injEq, exists_eq_left']
      constructor <;> intro h <;> linarith
    refine ⟨hall, fun i hi => (hall i best hi).mpr ?_⟩
    rw [sub_self]
    exact mul_nonneg hthreshold (abs_nonneg best)

theorem nearBest_iff_positive :
    nearBest (1 / 10) [1, 2, 19 / 10] = [1, 2] ∧ ∀ i, [1, 2, 19 / 10][i]? = some (2 : ℚ) →
      i ∈ nearBest (1 / 10) [1, 2, 19 / 10] :=
  ⟨by decide +kernel, ((nearBest_iff (by norm_num) (by decide +kernel)).mpr (.inl (by norm_num))).2⟩

/-- With negative rewards no pod is near the best one, not even itself. -/
theorem nearBest_negative : [-1, -2].max? = some (-1 : ℚ) ∧ nearBest (1 / 10) [-1, -2] = [] := by
  decide +kernel

/-! ### The pod of the reply -/

lemma forall_tieBreak_iff {P : ℕ → Prop} {filtered : ℕ} (hP : P filtered) (threshold : ℚ)
    (rewards : List ℚ) :
    (∀ draw, P ((tieBreak threshold draw (some rewards)).getD filtered)) ↔
      (nearBest threshold rewards).length ≤ 1 ∨ ∀ i ∈ nearBest threshold rewards, P i := by
  have hlen : (nearBest threshold rewards).length ≤ rewards.length := by
    unfold nearBest
    split
    · simp
    · exact (length_filter_le _ _).trans length_range.le
  by_cases hnear : (nearBest threshold rewards).length ≤ 1
  · simp [tieBreak, hnear, not_lt.mpr hnear, hP]
  · have hmany : 1 < rewards.length ∧ 1 < (nearBest threshold rewards).length := by omega
    simp only [tieBreak, if_pos hmany, hnear, false_or]
    constructor
    · intro h i hi
      obtain ⟨d, hd⟩ := getElem?_of_mem hi
      have := h d
      rwa [Nat.mod_eq_of_lt (List.getElem?_eq_some_iff.mp hd).1, hd] at this
    · intro h draw
      have hlt := Nat.mod_lt draw (Nat.zero_lt_of_lt hmany.2)
      rw [getElem?_eq_getElem hlt]
      exact h _ (getElem_mem hlt)

lemma nodup_nearBest (threshold : ℚ) (rewards : List ℚ) : (nearBest threshold rewards).Nodup := by
  unfold nearBest
  split
  · exact nodup_nil
  · exact nodup_range.filter _

lemma prefixFiltered_mem {env : InferEnv} {n k : ℕ} {inference : Inference} {prefixHash : ℤ}
    {rewards : List ℚ} (hfits : inference.Fits n) (hrewards : inference.predictedRewards = some rewards)
    (hexplored : inference.explored = false) (hgroup : env.prefixGroup = some (prefixHash, k))
    (hk : 0 < k) (hn : k < n) :
    prefixFiltered env n inference ∈ selectCandidatePods env.hash prefixHash n k := by
  obtain ⟨hlen, -, hlt⟩ := selectCandidatePods_spec env.hash prefixHash k
  have hall : (selectCandidatePods env.hash prefixHash n k).all (· < rewards.length) = true := by
    rw [hfits.rewards rewards hrewards, all_eq_true]
    exact fun i hi => decide_eq_true (hlt i hi)
  simp only [prefixFiltered, hgroup, hexplored, hrewards, hall, not_le.mpr hn, not_true, or_self,
    if_false]
  cases hbest : (selectCandidatePods env.hash prefixHash n k).argmax fun i => rewards.getD i 0 with
  | none =>
    rw [argmax_eq_none.mp hbest, length_nil] at hlen
    omega
  | some best =>
    dsimp only
    split
    · assumption
    · exact argmax_mem hbest

section

variable {F : Type} {py : Characters} {s : InferService F} {env : InferEnv} {reg : PodRegistry}
  {pods : List GeneralPodId} {inference : Inference} {id : Text} {rewards : List ℚ}
variable (hfits : inference.Fits pods.length) (hpublished : Published reg pods)
  (hint : (pyInt py id).isSome = true) (hrewards : inference.predictedRewards = some rewards)
include hfits hpublished hint hrewards

/-- A law about the pod of the reply, whatever is drawn. -/
lemma forall_conclude_iff {Q : GeneralPodId → Prop} {P : ℕ → Prop}
    (hQ : ∀ i name, pods[i]? = some name → (Q name ↔ P i))
    (hP : P (prefixFiltered env pods.length inference)) :
    (∀ draw answer, conclude py s { env with draw := draw } reg pods id inference = .ok answer →
        Q answer.selectedPodGeneralpodid) ↔
      (nearBest s.rewardSimilarityThreshold rewards).length ≤ 1 ∨
        ∀ i ∈ nearBest s.rewardSimilarityThreshold rewards, P i := by
  rw [← forall_tieBreak_iff hP]
  refine forall_congr' fun draw => ?_
  obtain ⟨answer, hanswer, hindex, -⟩ :=
    conclude_ok { env with draw := draw } hfits hpublished hint
  rw [hrewards] at hindex
  constructor
  · exact fun h => (hQ _ _ hindex).mp (h answer hanswer)
  · intro h answer' hanswer'
    obtain rfl := Except.ok.inj (hanswer.symm.trans hanswer')
    exact (hQ _ _ hindex).mpr h

/-- **The pod of the reply.**  The draw among the pods near the best one comes last, and looks
neither at the candidates nor at the exploration. -/
theorem selection_kept_iff (env : InferEnv) (hnodup : pods.Nodup) :
    (∀ prefixHash k, inference.explored = false → env.prefixGroup = some (prefixHash, k) →
      k < pods.length →
      ((∀ draw answer, conclude py s { env with draw := draw } reg pods id inference = .ok answer →
          answer.selectedPodGeneralpodid ∈ candidatePods env.hash prefixHash pods k) ↔
        0 < k ∧ ((nearBest s.rewardSimilarityThreshold rewards).length ≤ 1 ∨
          ∀ i ∈ nearBest s.rewardSimilarityThreshold rewards,
            i ∈ selectCandidatePods env.hash prefixHash pods.length k))) ∧
    (inference.explored = true →
      ((∀ draw answer, conclude py s { env with draw := draw } reg pods id inference = .ok answer →
          pods[inference.selectedPodIndex]? = some answer.selectedPodGeneralpodid) ↔
        (nearBest s.rewardSimilarityThreshold rewards).length ≤ 1)) := by
  constructor
  · intro prefixHash k hexplored hgroup hn
    by_cases hk : 0 < k
    · simp only [hk, true_and]
      refine forall_conclude_iff hfits hpublished hint hrewards (fun i name hi => ?_)
        (prefixFiltered_mem hfits hrewards hexplored hgroup hk hn)
      simp only [candidatePods, mem_filterMap]
      constructor
      · rintro ⟨j, hj, hname⟩
        rwa [(List.getElem?_inj (List.getElem?_eq_some_iff.mp hi).1 hnodup).mp (hi.trans hname.symm)]
      · exact fun h => ⟨i, h, hi⟩
    · obtain rfl : k = 0 := by omega
      obtain ⟨answer, hanswer, -⟩ := conclude_ok (s := s) env hfits hpublished hint
      simp only [lt_irrefl, false_and, iff_false]
      intro h
      simpa [candidatePods, selectCandidatePods] using h env.draw answer hanswer
  · intro hexplored
    have hkept : prefixFiltered env pods.length inference = inference.selectedPodIndex := by
      simp [prefixFiltered, hexplored]
    refine (forall_conclude_iff hfits hpublished hint hrewards
      (Q := fun name => pods[inference.selectedPodIndex]? = some name)
      (P := (· = inference.selectedPodIndex)) (fun i name hi => ?_) hkept).trans ?_
    · rw [← hi]
      exact (List.getElem?_inj hfits.selected hnodup).trans eq_comm
    · refine or_iff_left_of_imp fun h => ?_
      have hsub : nearBest s.rewardSimilarityThreshold rewards ⊆ [inference.selectedPodIndex] :=
        fun i hi => List.mem_singleton.mpr (h i hi)
      exact ((nodup_nearBest _ rewards).subperm hsub).length_le

end

/-- Two pods with names. -/
def twoPods : PodRegistry :=
  .after [(["10.0.0.7".toList, "10.0.0.8".toList], ∅, .fallback none)]

def twoNames : List GeneralPodId := ["pod_0000".toList, "pod_0001".toList]

theorem selection_kept_clear :
    nearBest started.rewardSimilarityThreshold [2, 1] = [0] ∧ ∀ draw answer,
      conclude .ascii started { quietEnv with prefixGroup := some (5, 1), draw } twoPods twoNames
          "42".toList ⟨1, some [2, 1], false⟩ = .ok answer →
        answer.selectedPodGeneralpodid ∈ candidatePods quietEnv.hash 5 twoNames 1 := by
  have hpublished : Published twoPods twoNames := by
    have hall : ∀ name ∈ twoNames,
        (twoPods.hyperparameters.generalpodidToPodIp.lookup name).isSome = true := by decide +kernel
    exact fun name hname => Option.isSome_iff_exists.mp (hall name hname)
  refine ⟨by decide +kernel, ((selection_kept_iff (s := started) ⟨by decide, by simp [twoNames]⟩
    hpublished (by decide +kernel) rfl { quietEnv with prefixGroup := some (5, 1) }
    (by decide +kernel)).1 5 1 rfl rfl (by decide)).mpr ?_⟩
  decide +kernel

/-- With equal rewards the draw leaves the only candidate, and the pod that was explored. -/
theorem draw_leaves_candidate :
    candidatePods quietEnv.hash 5 twoNames 1 = ["pod_0000".toList] ∧ ∀ explored,
      (conclude .ascii started { quietEnv with prefixGroup := some (5, 1), draw := 1 } twoPods twoNames
          "42".toList ⟨0, some [2, 2], explored⟩).map Answer.selectedPodGeneralpodid =
        .ok "pod_0001".toList := by
  decide +kernel

end Lodestar.Agent
