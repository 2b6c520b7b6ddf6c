import Lodestar.Gateway.Routers

/-!
# Routing by prefix and load

The selections of `prefix_cache.go` that work on ratios of matching prefixes and on the numbers of
running requests.  A pod is overloaded when its number is above the mean by more than a multiple of
the standard deviation; the deviation is a square root, so the model compares squares.

The counters of running requests have 32 bits and change between two reads, so every read has its
own counts, and every loop over the map of ratios its own order.
-/

namespace Lodestar.Gateway

open Lib

/-! ### Loads -/

/-- The counters of running requests by pod name, as one read sees them. -/
abbrev RunningCounts := String → BitVec 32

/-- The numbers of running requests under a key of the pods; a later pod replaces an earlier one
with the same key. -/
def requestCountsBy (key : Pod → String) (running : RunningCounts) (pods : List Pod) :
    AList fun _ : String => ℤ :=
  pods.foldl (fun counts pod => counts.insert (key pod) (running pod.name).toInt) ∅

def getRequestCounts (running : RunningCounts) (pods : List Pod) : AList fun _ : String => ℤ :=
  requestCountsBy Pod.name running pods

def getRequestCountsByPodIP (running : RunningCounts) (pods : List Pod) : AList fun _ : String => ℤ :=
  requestCountsBy Pod.podIP running pods

def mean (numbers : List ℤ) : ℚ := (numbers.sum : ℚ) / numbers.length

/-- The square of `standardDeviation`. -/
def variance (numbers : List ℤ) : ℚ :=
  (numbers.map fun x : ℤ => ((x : ℚ) - mean numbers) ^ 2).sum / ((numbers.length : ℚ) - 1)

/-- A count is at most the mean plus the factor times the standard deviation.  The deviation of
fewer than two numbers is not a number, and nothing is at most that. -/
def withinDeviation (factor : ℤ) (numbers : List ℤ) (count : ℤ) : Bool :=
  let above := (count : ℚ) - mean numbers
  let bound := (factor : ℚ) ^ 2 * variance numbers
  if numbers.length < 2 then false
  else if 0 ≤ factor then above ≤ 0 ∨ above ^ 2 ≤ bound
  else above ≤ 0 ∧ bound ≤ above ^ 2

variable {key : Pod → String} {running : RunningCounts} {pods : List Pod}

lemma mem_foldl_insert {counts : AList fun _ : String => ℤ} {k : String} :
    k ∈ pods.foldl (fun counts pod => counts.insert (key pod) (running pod.name).toInt) counts ↔
      k ∈ counts ∨ k ∈ pods.map key := by
  induction pods generalizing counts with
  | nil => simp
  | cons pod pods ih =>
    rw [List.foldl_cons, ih, AList.mem_insert, List.map_cons, List.mem_cons]
    tauto

lemma mem_requestCountsBy {k : String} :
    k ∈ requestCountsBy key running pods ↔ k ∈ pods.map key := by
  rw [requestCountsBy, mem_foldl_insert]
  simp

/-! ### Selections -/

/-- `FilterPodByIP` and `GetPod`. -/
def filterPodByIP (podIP : String) (pods : List Pod) : Option Pod :=
  pods.find? fun pod => pod.podIP = podIP

structure PrefixConfig where
  standardDeviationFactor : ℤ
  podRunningRequestImbalanceAbsCount : ℤ
  prefixHitThreshold : ℤ

abbrev MatchedPods := List (String × ℤ)

structure Shuffle where
  order : MatchedPods → MatchedPods
  perm : ∀ m, (order m).Perm m

/-- Higher ratios come first, and for the same ratio smaller counts. -/
def SortsBefore (count : String → ℤ) (a b : String × ℤ) : Prop :=
  if b.2 = a.2 then count a.1 ≤ count b.1 else b.2 < a.2

instance (count : String → ℤ) : DecidableRel (SortsBefore count) := fun a b =>
  inferInstanceAs (Decidable (if b.2 = a.2 then count a.1 ≤ count b.1 else b.2 < a.2))

def routePrefixRatioAndLoad (factor : ℤ) (running : RunningCounts) (shuffle : Shuffle)
    (pods : List Pod) (matchedPods : MatchedPods) : Option Pod :=
  let podRequestCount := getRequestCountsByPodIP running pods
  let count podIP := (podRequestCount.lookup podIP).getD 0
  let requestCount := podRequestCount.entries.map fun e => e.2
  let podIPs := (shuffle.order matchedPods).insertionSort (SortsBefore count)
  let target := podIPs.find? fun m => withinDeviation factor requestCount (count m.1)
  filterPodByIP ((target.map Prod.fst).getD "") pods

def routePrefixHitThresholdOrLeastRequest (cfg : PrefixConfig) (running : RunningCounts)
    (shuffle : Shuffle) (pods : List Pod) (matchedPods : MatchedPods) (draw : ℕ) : Option Pod :=
  let maxHit := selectBest (fun hitRatio maxHitRatio : ℤ =>
      hitRatio > cfg.prefixHitThreshold ∧ hitRatio > maxHitRatio)
    (fun m : String × ℤ => some m.2) 0 (shuffle.order matchedPods)
  let byPrefix := maxHit.bind fun m => if m.1 = "" then none else filterPodByIP m.1 pods
  byPrefix.or (selectTargetPodWithLeastRequestCount (fun name => (running name).toInt) pods draw)

/-- `getTargetPodOnLoadImbalance`, with whether the load is imbalanced.  The draw panics where there
is nothing to draw from. -/
def getTargetPodOnLoadImbalance (cfg : PrefixConfig) (running : RunningCounts) (pods : List Pod)
    (draw : ℕ) : Outcome (Option Pod × Bool) :=
  let counts := (getRequestCounts running pods).entries.map fun e => e.2
  let minValue := counts.foldl (fun m c => if c ≤ m then c else m) (2 ^ 31 - 1)
  let maxValue := counts.foldl (fun m c => if c > m then c else m) (-2 ^ 31)
  if maxValue - minValue > cfg.podRunningRequestImbalanceAbsCount then
    match leastCount Pod.name (fun name => (running name).toInt) pods draw with
    | none => .panicked
    | some pod => .returned (some pod, true)
  else .returned (none, false)

variable {shuffle : Shuffle} {pod : Pod}

lemma filterPodByIP_mem {podIP : String} (h : filterPodByIP podIP pods = some pod) : pod ∈ pods :=
  List.mem_of_find?_eq_some h

lemma routePrefixRatioAndLoad_mem {factor : ℤ} {matchedPods : MatchedPods}
    (h : routePrefixRatioAndLoad factor running shuffle pods matchedPods = some pod) : pod ∈ pods :=
  filterPodByIP_mem h

lemma toInt_le (running : RunningCounts) (name : String) : (running name).toInt ≤ 2 ^ 31 - 1 := by
  have hlt := BitVec.toInt_lt (x := running name)
  omega

lemma leastRequest_isSome (hpods : pods ≠ []) (running : RunningCounts) (draw : ℕ) :
    ∃ pod ∈ pods, selectTargetPodWithLeastRequestCount (fun name => (running name).toInt) pods draw =
      some pod := by
  obtain ⟨pod, hpod⟩ : ∃ pod, leastCount Pod.name (fun name => (running name).toInt) pods draw =
      some pod := leastCount_isSome hpods (toInt_le running) draw
  exact ⟨pod, leastCount_mem hpod, hpod⟩

lemma routePrefixHitThreshold_mem {cfg : PrefixConfig} {matchedPods : MatchedPods} {draw : ℕ}
    (h : routePrefixHitThresholdOrLeastRequest cfg running shuffle pods matchedPods draw = some pod) :
    pod ∈ pods := by
  rcases Option.or_eq_some_iff.mp h with hprefix | ⟨-, hleast⟩
  · obtain ⟨m, -, hm⟩ := Option.bind_eq_some_iff.mp hprefix
    split at hm
    · simp at hm
    · exact filterPodByIP_mem hm
  · exact leastCount_mem hleast

lemma getTargetPodOnLoadImbalance_cases (cfg : PrefixConfig) (hpods : pods ≠ [])
    (running : RunningCounts) (draw : ℕ) :
    (∃ pod ∈ pods, getTargetPodOnLoadImbalance cfg running pods draw = .returned (some pod, true)) ∨
      getTargetPodOnLoadImbalance cfg running pods draw = .returned (none, false) := by
  unfold getTargetPodOnLoadImbalance
  dsimp only
  split
  · obtain ⟨pod, hmem, hpod⟩ := leastRequest_isSome hpods running draw
    rw [selectTargetPodWithLeastRequestCount] at hpod
    exact Or.inl ⟨pod, hmem, by rw [hpod]⟩
  · exact Or.inr rfl

end Lodestar.Gateway
