import Lodestar.Gateway.FlexibleRoute
import Lodestar.Indexer.HashMatching

/-!
# Which pod a matching prefix selects

The choices of `prefix_cache.go` and of the flexible router, where all reads of the counters see the
same counts.  Both use `getTargetPodFromMatchedPods`, the first with matches by name and the second
with matches by address.  The matches are those that a prefix table reports, in any state.
-/

namespace Lodestar.Gateway

open List

/-- `prefixCacheRouter.Route` behind the tokenizer.  The matches of `env` are by name. -/
def prefixCacheTarget (cfg : PrefixConfig) (env : FlexibleEnv) (pods : List Pod) :
    Outcome (Option Pod) :=
  (getTargetPodOnLoadImbalance cfg env.runningOnImbalance pods env.drawOnImbalance).bind
    fun (targetPod, isLoadImbalanced) =>
      let matchedPods := if isLoadImbalanced then [] else env.matchedPods
      let targetPod := if matchedPods = [] then targetPod
        else getTargetPodFromMatchedPods cfg.standardDeviationFactor env.runningOnMatch env.shuffle pods
          matchedPods
      if matchedPods = [] ∨ targetPod = none then
        .returned (selectTargetPodWithLeastRequestCount (fun name => (env.runningOnLeast name).toInt) pods
          env.drawOnLeast)
      else .returned targetPod

/-- All reads of the counters see the same counts. -/
structure FlexibleEnv.Snapshot (env : FlexibleEnv) (running : RunningCounts) : Prop where
  imbalance : env.runningOnImbalance = running
  onMatch : env.runningOnMatch = running
  least : env.runningOnLeast = running

/-- The matches that `MatchPrefix` reports of the pods, by name or by address. -/
def reportedMatches (hcfg : Indexer.HashConfig) (table : Indexer.PrefixHashTable)
    (tokens : List UInt8) (model : String) (readyPods : List String) : MatchedPods :=
  (table.matchPrefix hcfg tokens model readyPods).1.entries.map fun e => (e.1, (e.2 : ℤ))

def load (running : RunningCounts) (pod : Pod) : ℤ := (running pod.name).toInt

/-- The load of the pod is at most the mean plus the configured number of standard deviations of the
loads under the names of the pods. -/
def Light (cfg : PrefixConfig) (running : RunningCounts) (pods : List Pod) (pod : Pod) : Prop :=
  withinDeviation cfg.standardDeviationFactor
    ((getRequestCounts running pods).entries.map fun e => e.2) (load running pod) = true

variable {cfg : PrefixConfig} {env : FlexibleEnv} {running : RunningCounts} {pods : List Pod} {pod : Pod}

lemma mem_of_reportedMatches {hcfg : Indexer.HashConfig} {table : Indexer.PrefixHashTable}
    {tokens : List UInt8} {model : String} {readyPods : List String} :
    ∀ m ∈ reportedMatches hcfg table tokens model readyPods, m.1 ∈ readyPods := by
  intro m hm
  obtain ⟨e, he, rfl⟩ := mem_map.mp hm
  have hkey : e.1 ∈ (table.matchPrefix hcfg tokens model readyPods).1 :=
    AList.mem_keys.mpr (mem_map_of_mem he)
  have hfound := (Indexer.PrefixHashTable.mem_searchFrom_iff _ _ _ _ _).mp hkey
  exact (hfound.resolve_left (AList.notMem_empty _)).1

lemma leastCount_le {count : String → ℤ} {draw : ℕ}
    (h : leastCount Pod.name count pods draw = some pod) :
    ∀ pod' ∈ pods, count pod.name ≤ count pod'.name := by
  obtain ⟨name, hname, hpod⟩ := Option.bind_eq_some_iff.mp h
  obtain ⟨c, hc, rfl⟩ := mem_map.mp (mem_of_getElem? hname)
  obtain ⟨hc, hmin⟩ := mem_filter.mp hc
  obtain ⟨pod₀, -, rfl⟩ := mem_map.mp hc
  have hname : pod.name = pod₀.name := by simpa using find?_some hpod
  have hmin : count pod₀.name = _ := of_decide_eq_true hmin
  intro pod' hpod'
  rw [hname, hmin]
  have hall := (foldl_pick_spec (fun c m => c ≤ m) (fun a => le_rfl)
    (fun a b c => le_trans) (fun c m => id) (fun c m h => by omega)
    (pods.map fun pod => count pod.name) (2 ^ 31 - 1)).2.1
  rw [foldl_map] at hall ⊢
  exact hall _ (mem_map_of_mem hpod')

/-- **The match that is taken** has a count within the deviation, and no other such match comes before
it. -/
lemma takenMatch_spec (factor : ℤ) (running : RunningCounts) (shuffle : Shuffle) (pods : List Pod)
    (matchedPods : MatchedPods) :
    let counts := getRequestCounts running pods
    let count := fun name => (counts.lookup name).getD 0
    let within := fun m : String × ℤ =>
      withinDeviation factor (counts.entries.map fun e => e.2) (count m.1) = true
    match takenMatch factor running shuffle pods matchedPods with
    | none => ∀ m ∈ matchedPods, ¬ within m
    | some m => m ∈ matchedPods ∧ within m ∧ ∀ m' ∈ matchedPods, within m' → SortsBefore count m m' := by
  intro counts count within
  have hmem : ∀ m, m ∈ (shuffle.order matchedPods).insertionSort (SortsBefore count) ↔
      m ∈ matchedPods := fun m =>
    ((perm_insertionSort _ _).trans (shuffle.perm matchedPods)).mem_iff
  have : Std.Total (SortsBefore count) := ⟨fun a b => by unfold SortsBefore; grind⟩
  have : IsTrans _ (SortsBefore count) := ⟨fun a b c => by unfold SortsBefore; grind⟩
  have hsorted := pairwise_insertionSort (SortsBefore count) (shuffle.order matchedPods)
  split
  · rename_i hnone
    intro m hm hwithin
    exact find?_eq_none.mp hnone m ((hmem m).mpr hm) hwithin
  · rename_i m hsome
    obtain ⟨hwithin, before, behind, heq, hbefore⟩ := find?_eq_some_iff_append.mp hsome
    refine ⟨(hmem m).mp (heq ▸ by simp), hwithin, fun m' hm' hwithin' => ?_⟩
    rw [← hmem, heq, mem_append, mem_cons] at hm'
    rw [heq] at hsorted
    rcases hm' with hm' | rfl | hm'
    · have := hbefore m' hm'
      simp only [within, count, counts] at hwithin'
      simp [hwithin'] at this
    · exact refl_of (SortsBefore count) _
    · exact (pairwise_cons.mp (pairwise_append.mp hsorted).2.1).1 m' hm'

section

variable (cfg : PrefixConfig) (running : RunningCounts)

lemma imbalance_cases (hpods : pods ≠ []) (draw : ℕ) :
    (Imbalanced cfg running pods ∧
      ∃ pod, getTargetPodOnLoadImbalance cfg running pods draw = .returned (some pod, true)) ∨
    (¬ Imbalanced cfg running pods ∧
      getTargetPodOnLoadImbalance cfg running pods draw = .returned (none, false)) := by
  rw [← imbalanced_iff hpods draw]
  rcases getTargetPodOnLoadImbalance_cases cfg hpods running draw with ⟨pod, hpod, hover⟩ | hbal
  · exact .inl ⟨⟨pod, hpod, hover⟩, pod, hover⟩
  · exact .inr ⟨by simp [hbal], hbal⟩

/-- The pod is light and matches, no light pod matches with a higher ratio, and none with the same
ratio has a smaller load. -/
def Best (pods : List Pod) (matchedPods : MatchedPods) (target : Pod) : Prop :=
  Light cfg running pods target ∧ ∃ ratio, (target.name, ratio) ∈ matchedPods ∧
    ∀ pod ∈ pods, ∀ ratio', (pod.name, ratio') ∈ matchedPods → Light cfg running pods pod →
      ratio' ≤ ratio ∧ (ratio' = ratio → load running target ≤ load running pod)

/-- **The choice among the matches**, where these are by name. -/
lemma fromMatched_cases (shuffle : Shuffle) {matchedPods : MatchedPods}
    (hmatched : ∀ m ∈ matchedPods, m.1 ∈ pods.map Pod.name) :
    let target := getTargetPodFromMatchedPods cfg.standardDeviationFactor running shuffle pods matchedPods
    (target = filterPodByName "" pods ∧ ∀ pod ∈ pods, ∀ ratio, (pod.name, ratio) ∈ matchedPods →
      ¬ Light cfg running pods pod) ∨
    ∃ pod ∈ pods, target = some pod ∧ Best cfg running pods matchedPods pod := by
  intro target
  have hcount : ∀ pod ∈ pods, ((getRequestCounts running pods).lookup pod.name).getD 0 =
      load running pod := fun pod hpod => by rw [lookup_requestCounts hpod, Option.getD_some, load]
  have hlight : ∀ pod ∈ pods, Light cfg running pods pod ↔
      withinDeviation cfg.standardDeviationFactor
        ((getRequestCounts running pods).entries.map fun e => e.2)
        (((getRequestCounts running pods).lookup pod.name).getD 0) = true := by
    intro pod hpod
    rw [hcount pod hpod, Light]
  have hspec := takenMatch_spec cfg.standardDeviationFactor running shuffle pods matchedPods
  split at hspec
  · rename_i hnone
    refine .inl ⟨by simp [target, getTargetPodFromMatchedPods, hnone], fun pod hpod ratio hm hl => ?_⟩
    exact hspec _ hm ((hlight pod hpod).mp hl)
  · rename_i m hsome
    obtain ⟨hm, hwithin, hfirst⟩ := hspec
    obtain ⟨pod₀, hpod₀, hname₀⟩ := mem_map.mp (hmatched m hm)
    obtain ⟨pod, hpod⟩ : ∃ pod, filterPodByName m.1 pods = some pod := by
      rw [← Option.isSome_iff_exists, filterPodByName]
      simpa using ⟨pod₀, hpod₀, hname₀⟩
    have hmem := mem_of_find?_eq_some hpod
    have hname : pod.name = m.1 := by simpa using find?_some hpod
    refine .inr ⟨pod, hmem, by simp [target, getTargetPodFromMatchedPods, hsome, hpod], ?_, m.2, ?_, ?_⟩
    · rw [hlight pod hmem, hname]
      exact hwithin
    · rwa [hname]
    · intro pod' hpod' ratio' hm' hl'
      have hbefore := hfirst _ hm' ((hlight pod' hpod').mp hl')
      unfold SortsBefore at hbefore
      dsimp only at hbefore
      rw [← hname, hcount pod hmem, hcount pod' hpod'] at hbefore
      split at hbefore
      · rename_i heq
        exact ⟨heq.le, fun _ => hbefore⟩
      · exact ⟨hbefore.le, fun heq => absurd heq hbefore.ne⟩

end

/-- **The prefix-cache router** goes for the smallest load where the load is imbalanced or no light pod
matches, and for the best match otherwise.  Pods have names. -/
theorem prefixCacheTarget_spec (cfg : PrefixConfig) (env : FlexibleEnv) (running : RunningCounts)
    (pods : List Pod) (hcfg : Indexer.HashConfig) (table : Indexer.PrefixHashTable)
    (tokens : List UInt8) (model : String) (hsnap : env.Snapshot running) (hpods : pods ≠ [])
    (hnames : "" ∉ pods.map Pod.name)
    (hmatches : env.matchedPods = reportedMatches hcfg table tokens model (pods.map Pod.name)) :
    ∃ target ∈ pods, prefixCacheTarget cfg env pods = .returned (some target) ∧
      ((Imbalanced cfg running pods ∨ ∀ pod ∈ pods, ∀ ratio, (pod.name, ratio) ∈ env.matchedPods →
          ¬ Light cfg running pods pod) →
        ∀ pod ∈ pods, load running target ≤ load running pod) ∧
      (¬ Imbalanced cfg running pods → (∃ pod ∈ pods, ∃ ratio, (pod.name, ratio) ∈ env.matchedPods ∧
          Light cfg running pods pod) →
        Best cfg running pods env.matchedPods target) := by
  obtain ⟨least, hleast, hselect⟩ := leastRequest_isSome hpods running env.drawOnLeast
  have hmin := leastCount_le hselect
  have hmatched : ∀ m ∈ env.matchedPods, m.1 ∈ pods.map Pod.name :=
    hmatches ▸ mem_of_reportedMatches
  unfold prefixCacheTarget
  rw [hsnap.imbalance, hsnap.onMatch, hsnap.least, hselect]
  rcases imbalance_cases cfg running hpods env.drawOnImbalance with
    ⟨himb, pod, hover⟩ | ⟨hnot, hbal⟩
  · rw [hover]
    exact ⟨least, hleast, by simp [Outcome.bind], fun _ => hmin, fun hnot => absurd himb hnot⟩
  · rw [hbal]
    rcases fromMatched_cases cfg running env.shuffle hmatched with
      ⟨htarget, hheavy⟩ | ⟨target, hmem, htarget, hbest⟩
    · refine ⟨least, hleast, ?_, fun _ => hmin, fun _ ⟨pod, hpod, ratio, hm, hl⟩ => ?_⟩
      · have hnone : filterPodByName "" pods = none := by
          simpa [filterPodByName] using hnames
        simp [Outcome.bind, htarget, hnone]
      · exact absurd hl (hheavy pod hpod ratio hm)
    · obtain ⟨hl, ratio, hm, -⟩ := id hbest
      refine ⟨target, hmem, ?_, ?_, fun _ _ => hbest⟩
      · simp [Outcome.bind, htarget, ne_nil_of_mem hm]
      · rintro (himb | hheavy)
        · exact absurd himb hnot
        · exact absurd hl (hheavy target hmem ratio hm)

/-- Three pods with 5, 10 and no running requests; the first has the given name. -/
def threePods (name : String) : List Pod := [⟨name, "10.0.0.1", false, true⟩,
  ⟨"b", "10.0.0.2", false, true⟩, ⟨"c", "10.0.0.3", false, true⟩]

def threeLoads : RunningCounts := fun name => if name = "b" then 10 else if name = "c" then 0 else 5

/-- A prompt that one pod has added whole and another in part. -/
def sharedPrompt (whole part : String) : Indexer.PrefixHashTable :=
  ((Indexer.PrefixHashTable.new 7 100).add .polynomial ⟨[1, 2, 3, 4], "m", whole, fun _ => 0⟩).add
    .polynomial ⟨[1, 2], "m", part, fun _ => 0⟩

def sharedMatches (whole part : String) (keys : List String) : MatchedPods :=
  reportedMatches .polynomial (sharedPrompt whole part) [1, 2, 3, 4] "m" keys

/-- The reads of a call with these loads. -/
def loadedEnv (matchedPods : MatchedPods) : FlexibleEnv where
  __ := idleFlexible
  matchedPods := matchedPods
  runningOnImbalance := threeLoads
  runningOnMatch := threeLoads
  runningOnLeast := threeLoads

lemma loadedEnv_matchedPods (matchedPods : MatchedPods) :
    (loadedEnv matchedPods).matchedPods = matchedPods := rfl

/-- The pod `b` matches the whole prompt, but its load is above the bound. -/
theorem prefixCacheTarget_spec_shared :
    ∃ target ∈ threePods "a", prefixCacheTarget ⟨1, 100, 50⟩
        (loadedEnv (sharedMatches "b" "a" ((threePods "a").map Pod.name))) (threePods "a") =
          .returned (some target) ∧
      Best ⟨1, 100, 50⟩ threeLoads (threePods "a")
        (sharedMatches "b" "a" ((threePods "a").map Pod.name)) target := by
  obtain ⟨target, hmem, htarget, -, hbest⟩ := prefixCacheTarget_spec ⟨1, 100, 50⟩ (loadedEnv _)
    threeLoads (threePods "a") .polynomial (sharedPrompt "b" "a") [1, 2, 3, 4] "m" ⟨rfl, rfl, rfl⟩
    (by decide) (by decide) (loadedEnv_matchedPods _)
  rw [loadedEnv_matchedPods] at hbest
  refine ⟨target, hmem, htarget, hbest (by unfold Imbalanced; decide +kernel) ?_⟩
  exact ⟨_, mem_cons_self, 50, by decide +kernel, by unfold Light; decide +kernel⟩

end Lodestar.Gateway
