import Lodestar.Gateway.OnlineRouter
import Lodestar.Gateway.Responses

/-!
# The flexible prefix-cache router and the latency-prediction router

`Route` of `flexible_prefix_cache.go` and of `latency_prediction_based.go`.  Both read the address of
the target before they publish it, and in both the target may be missing: the first knows two
sub-algorithms only, and looks a matched pod up by its name though matches are kept by address; the
second goes on without a target where no prediction is of use.

Predictions are values of a linear order, with the score that the source computes of two of them, so
rounding does not matter.
-/

namespace Lodestar.Gateway

open Lib List

/-- How `Route` ends. -/
structure RouteResult where
  outcome : Outcome (Except String String)
  ctx : RoutingContext

/-- The end of a router: the address of the target is read, and the target is published. -/
def publishTarget (ctx : RoutingContext) (target : Outcome (Option Pod)) : RouteResult :=
  match target with
  | .returned (some pod) => ⟨(ctx.setTargetPod pod).returnAddress, ctx.setTargetPod pod⟩
  | .returned none => ⟨.panicked, ctx⟩
  | .panicked => ⟨.panicked, ctx⟩
  | .blocked => ⟨.blocked, ctx⟩

/-- The router returns the address of one of the pods, which is the target of the request. -/
def RouteResult.RoutesTo (r : RouteResult) (pods : List Pod) : Prop :=
  ∃ pod ∈ pods, r.outcome = .returned (.ok (pod.podIP ++ ":8000")) ∧ r.ctx.targetPod = some pod

lemma publishTarget_routesTo_iff {ctx : RoutingContext} (hctx : ctx.targetPod = none)
    {target : Outcome (Option Pod)} {pods : List Pod}
    (hmem : ∀ pod, target = .returned (some pod) → pod ∈ pods) :
    (publishTarget ctx target).RoutesTo pods ↔ ∃ pod, target = .returned (some pod) := by
  constructor
  · rintro ⟨pod, -, houtcome, -⟩
    unfold publishTarget at houtcome
    split at houtcome
    · exact ⟨_, rfl⟩
    all_goals exact absurd houtcome (by simp)
  · rintro ⟨pod, rfl⟩
    exact ⟨pod, hmem pod rfl, setTargetPod_returnAddress hctx pod, setTargetPod_targetPod hctx pod⟩

/-! ### The flexible prefix-cache router -/

def filterPodByName (podname : String) (pods : List Pod) : Option Pod :=
  pods.find? fun pod => pod.name = podname

section

variable (factor : ℤ) (running : RunningCounts) (shuffle : Shuffle) (pods : List Pod) (matchedPods : MatchedPods)

/-- The match that is taken: the first, by ratio and count, whose count is not too high.  The counts
are those of the pods by name. -/
def takenMatch : Option (String × ℤ) :=
  let podRequestCount := getRequestCounts running pods
  let count podname := (podRequestCount.lookup podname).getD 0
  let requestCount := podRequestCount.entries.map fun e => e.2
  let podnames := (shuffle.order matchedPods).insertionSort (SortsBefore count)
  podnames.find? fun m => withinDeviation factor requestCount (count m.1)

def getTargetPodFromMatchedPods : Option Pod :=
  let targetPodName := ((takenMatch factor running shuffle pods matchedPods).map Prod.fst).getD ""
  filterPodByName targetPodName pods

end

structure FlexibleEnv where
  tokenizeError : Option String
  /-- The matches of the prefix cache, by address. -/
  matchedPods : MatchedPods
  shuffle : Shuffle
  runningOnImbalance : RunningCounts
  drawOnImbalance : ℕ
  runningOnMatch : RunningCounts
  runningOnLeast : RunningCounts
  drawOnLeast : ℕ
  drawn : ℕ

section

variable (cfg : PrefixConfig) (env : FlexibleEnv) (pods : List Pod)

/-- The sub-algorithm `prefix-cache`.  The address of what a match gives is read at once. -/
def flexiblePrefixCacheTarget : Outcome (Option Pod) :=
  (getTargetPodOnLoadImbalance cfg env.runningOnImbalance pods env.drawOnImbalance).bind
    fun (targetPod, isLoadImbalanced) =>
      let least := selectTargetPodWithLeastRequestCount
        (fun name => (env.runningOnLeast name).toInt) pods env.drawOnLeast
      if isLoadImbalanced = false ∧ env.matchedPods ≠ [] then
        match getTargetPodFromMatchedPods cfg.standardDeviationFactor env.runningOnMatch env.shuffle
          pods env.matchedPods with
        | none => .panicked
        | some pod => .returned (some pod)
      else if env.matchedPods = [] ∨ targetPod = none then .returned least
      else .returned targetPod

def flexibleTarget (subAlgorithm : String) : Outcome (Option Pod) :=
  if subAlgorithm = "random" then .returned (selectRandomPod pods env.drawn).toOption
  else if subAlgorithm = "prefix-cache" then flexiblePrefixCacheTarget cfg env pods
  else .returned none

/-- `flexiblePrefixCacheRouter.Route`. -/
def routeFlexible (ctx : RoutingContext) : RouteResult :=
  match env.tokenizeError with
  | some err => ⟨.returned (.error err), ctx⟩
  | none => publishTarget ctx (flexibleTarget cfg env pods ctx.subAlgorithm)

end

/-! ### The latency-prediction router -/

/-- The latencies that the predictor gives for a pod, by name. -/
abbrev Prediction (κ : Type) := List (String × κ)

/-- How predictions are compared: zero, the start of the scan, and the weighted score. -/
structure Scoring (κ : Type) where
  zero : κ
  maxScore : κ
  score : κ → κ → κ

section

variable {κ : Type} [LinearOrder κ] (p : Scoring κ)

/-- The score of a pod; it is skipped where a prediction is missing or negative. -/
def podScore (predictions : List (String × Prediction κ)) (pod : Pod) : Option κ := do
  let podPreds ← predictions.lookup pod.podIP
  let ttft ← podPreds.lookup "ttft"
  let tpot ← podPreds.lookup "avg_tpot"
  if ttft < p.zero ∨ tpot < p.zero then none else some (p.score ttft tpot)

def selectBestPod (readyPods : List Pod) (predictions : List (String × Prediction κ)) : Option Pod :=
  if predictions.isEmpty then none
  else
    let best := readyPods.foldl
      (keepBest (fun score bestScore => decide (score < bestScore)) (podScore p predictions))
      (p.maxScore, readyPods.head?)
    if best.1 = p.maxScore then none else best.2

/-- What the latency router reads; the request to the predictor may fail. -/
structure LatencyEnv (κ : Type) where
  tokenizeError : Option String
  reply : Option (List (String × Prediction κ))
  drawn : ℕ

/-- `latencyPredictionRouter.Route`. -/
def routeLatency (env : LatencyEnv κ) (pods : List Pod) (ctx : RoutingContext) : RouteResult :=
  match pods with
  | [] => ⟨.returned (.error "no ready pods available"), ctx⟩
  | [pod] => publishTarget ctx (.returned (some pod))
  | readyPods =>
    match env.tokenizeError, env.reply with
    | some err, _ => ⟨.returned (.error err), ctx⟩
    | none, none => publishTarget ctx (.returned (selectRandomPod readyPods env.drawn).toOption)
    | none, some predictions => publishTarget ctx (.returned (selectBestPod p readyPods predictions))

end

/-! ### When there is a target -/

section

variable {pods : List Pod}

/-- Two pods differ in their numbers of running requests by more than the setting allows. -/
def Imbalanced (cfg : PrefixConfig) (running : RunningCounts) (pods : List Pod) : Prop :=
  ∃ pod ∈ pods, ∃ pod' ∈ pods,
    (running pod.name).toInt - (running pod'.name).toInt > cfg.podRunningRequestImbalanceAbsCount

variable {running : RunningCounts}

lemma lookup_foldl_insert {counts : AList fun _ : String => ℤ}
    (h : ∀ k v, counts.lookup k = some v → v = (running k).toInt) {k : String} {v : ℤ}
    (hv : (pods.foldl (fun counts pod => counts.insert pod.name (running pod.name).toInt)
      counts).lookup k = some v) : v = (running k).toInt := by
  induction pods generalizing counts with
  | nil => exact h k v hv
  | cons pod pods ih =>
    refine ih (fun k v hv => ?_) hv
    by_cases heq : k = pod.name
    · subst heq
      rw [AList.lookup_insert] at hv
      exact (Option.some.inj hv).symm
    · rw [AList.lookup_insert_ne heq] at hv
      exact h k v hv

lemma lookup_requestCounts {pod : Pod} (hpod : pod ∈ pods) :
    (getRequestCounts running pods).lookup pod.name = some (running pod.name).toInt := by
  have hkey : pod.name ∈ getRequestCounts running pods := mem_requestCountsBy.mpr (mem_map_of_mem hpod)
  obtain ⟨v, hv⟩ := Option.isSome_iff_exists.mp (AList.lookup_isSome.mpr hkey)
  rw [hv, lookup_foldl_insert (fun _ _ hnone => by simp at hnone) hv]

lemma mem_requestCounts {c : ℤ} : c ∈ (getRequestCounts running pods).entries.map (fun e => e.2) ↔
      ∃ pod ∈ pods, (running pod.name).toInt = c := by
  constructor
  · intro hc
    obtain ⟨⟨k, v⟩, hentry, rfl⟩ := mem_map.mp hc
    have hlookup := AList.mem_lookup_iff.mpr hentry
    have hkey : k ∈ getRequestCounts running pods := AList.lookup_isSome.mp (by rw [hlookup]; rfl)
    obtain ⟨pod, hpod, rfl⟩ := mem_map.mp (mem_requestCountsBy.mp hkey)
    exact ⟨pod, hpod, Option.some.inj ((lookup_requestCounts hpod).symm.trans hlookup)⟩
  · rintro ⟨pod, hpod, rfl⟩
    exact mem_map.mpr ⟨_, AList.mem_lookup_iff.mp (lookup_requestCounts hpod), rfl⟩

lemma foldl_pick_spec {r : ℤ → ℤ → Prop} (better : ℤ → ℤ → Prop) [DecidableRel better] (hrefl : ∀ a, r a a)
    (htrans : ∀ a b c, r a b → r b c → r a c) (hyes : ∀ c m, better c m → r c m)
    (hno : ∀ c m, ¬ better c m → r m c) (l : List ℤ) (a : ℤ) :
    r (l.foldl (fun m c => if better c m then c else m) a) a ∧
      (∀ x ∈ l, r (l.foldl (fun m c => if better c m then c else m) a) x) ∧
      (l.foldl (fun m c => if better c m then c else m) a = a ∨
        l.foldl (fun m c => if better c m then c else m) a ∈ l) := by
  induction l generalizing a with
  | nil => exact ⟨hrefl a, by simp, .inl rfl⟩
  | cons c l ih =>
    rw [foldl_cons]
    by_cases hb : better c a
    · rw [if_pos hb]
      obtain ⟨hstart, hall, hend⟩ := ih c
      refine ⟨htrans _ _ _ hstart (hyes c a hb), ?_, .inr ?_⟩
      · intro x hx
        rcases mem_cons.mp hx with rfl | hx
        · exact hstart
        · exact hall x hx
      · rcases hend with heq | hmem
        · rw [heq]
          exact mem_cons_self
        · exact mem_cons_of_mem _ hmem
    · rw [if_neg hb]
      obtain ⟨hstart, hall, hend⟩ := ih a
      refine ⟨hstart, ?_, hend.imp_right (mem_cons_of_mem _)⟩
      intro x hx
      rcases mem_cons.mp hx with rfl | hx
      · exact htrans _ _ _ hstart (hno x a hb)
      · exact hall x hx

variable {cfg : PrefixConfig}

lemma imbalanced_iff (hpods : pods ≠ []) (draw : ℕ) :
    (∃ pod ∈ pods, getTargetPodOnLoadImbalance cfg running pods draw = .returned (some pod, true)) ↔
      Imbalanced cfg running pods := by
  unfold getTargetPodOnLoadImbalance Imbalanced
  dsimp only
  have hmem : ∀ c, c ∈ (getRequestCounts running pods).entries.map (fun e => e.2) ↔
      ∃ pod ∈ pods, (running pod.name).toInt = c := fun c => mem_requestCounts
  generalize (getRequestCounts running pods).entries.map (fun e => e.2) = counts at hmem
  have hbound : ∀ c ∈ counts, -2 ^ 31 ≤ c ∧ c ≤ 2 ^ 31 - 1 := by
    intro c hc
    obtain ⟨pod, -, rfl⟩ := (hmem c).mp hc
    have hle := BitVec.le_toInt (x := running pod.name)
    exact ⟨by simpa using hle, toInt_le running pod.name⟩
  obtain ⟨first, hfirst⟩ := exists_mem_of_ne_nil pods hpods
  have hsome := (hmem _).mpr ⟨first, hfirst, rfl⟩
  obtain ⟨-, hmin, hminEnd⟩ := foldl_pick_spec (fun c m => c ≤ m)
    (fun a => le_rfl) (fun a b c => le_trans) (fun c m => id) (fun c m h => by omega) counts (2 ^ 31 - 1)
  obtain ⟨-, hmax, hmaxEnd⟩ := foldl_pick_spec (r := fun a b => b ≤ a) (fun c m => c > m)
    (fun a => le_rfl) (fun a b c hab hbc => hbc.trans hab) (fun c m h => by omega)
    (fun c m h => by omega) counts (-2 ^ 31)
  generalize counts.foldl (fun m c => if c ≤ m then c else m) (2 ^ 31 - 1) = minValue at *
  generalize counts.foldl (fun m c => if c > m then c else m) (-2 ^ 31) = maxValue at *
  -- both ends of the range are counts of pods
  have hminMem : minValue ∈ counts := by
    rcases hminEnd with heq | hmem
    · have h1 := hmin _ hsome
      have h2 := (hbound _ hsome).2
      rwa [show minValue = (running first.name).toInt by omega]
    · exact hmem
  have hmaxMem : maxValue ∈ counts := by
    rcases hmaxEnd with heq | hmem
    · have h1 := hmax _ hsome
      have h2 := (hbound _ hsome).1
      rwa [show maxValue = (running first.name).toInt by omega]
    · exact hmem
  obtain ⟨low, hlow, hlowEq⟩ := (hmem _).mp hminMem
  obtain ⟨high, hhigh, hhighEq⟩ := (hmem _).mp hmaxMem
  by_cases hgap : maxValue - minValue > cfg.podRunningRequestImbalanceAbsCount
  · obtain ⟨pod, hpod, hleast⟩ := leastRequest_isSome hpods running draw
    rw [selectTargetPodWithLeastRequestCount] at hleast
    rw [if_pos hgap, hleast]
    exact iff_of_true ⟨pod, hpod, rfl⟩ ⟨high, hhigh, low, hlow, by omega⟩
  · rw [if_neg hgap]
    refine iff_of_false (by simp) ?_
    rintro ⟨pod, hpod, pod', hpod', hdiff⟩
    have h1 := hmax _ ((hmem _).mpr ⟨pod, hpod, rfl⟩)
    have h2 := hmin _ ((hmem _).mpr ⟨pod', hpod', rfl⟩)
    omega

lemma getTargetPodFromMatchedPods_isSome_iff {factor : ℤ} {shuffle : Shuffle}
    {matchedPods : MatchedPods} :
    (∃ pod, getTargetPodFromMatchedPods factor running shuffle pods matchedPods = some pod) ↔
      ((takenMatch factor running shuffle pods matchedPods).map Prod.fst).getD "" ∈
        pods.map Pod.name := by
  rw [← Option.isSome_iff_exists, getTargetPodFromMatchedPods, filterPodByName, mem_map]
  simp

/-- A request that the flexible router can route by prefix. -/
def PrefixRoutable (cfg : PrefixConfig) (env : FlexibleEnv) (pods : List Pod) : Prop :=
  env.matchedPods = [] ∨ Imbalanced cfg env.runningOnImbalance pods ∨
    ((takenMatch cfg.standardDeviationFactor env.runningOnMatch env.shuffle pods
      env.matchedPods).map Prod.fst).getD "" ∈ pods.map Pod.name

variable {env : FlexibleEnv}
attribute [local simp] Outcome.bind

lemma flexiblePrefixCacheTarget_iff (hpods : pods ≠ []) :
    (∃ pod, flexiblePrefixCacheTarget cfg env pods = .returned (some pod)) ↔
      PrefixRoutable cfg env pods := by
  obtain ⟨least, -, hleast⟩ := leastRequest_isSome hpods env.runningOnLeast env.drawOnLeast
  unfold flexiblePrefixCacheTarget PrefixRoutable
  rw [← imbalanced_iff hpods env.drawOnImbalance, ← getTargetPodFromMatchedPods_isSome_iff]
  rcases getTargetPodOnLoadImbalance_cases cfg hpods env.runningOnImbalance env.drawOnImbalance with
    ⟨pod, hpod, himb⟩ | hbal
  · rw [himb]
    refine iff_of_true ?_ (.inr (.inl ⟨pod, hpod, rfl⟩))
    by_cases hempty : env.matchedPods = []
    · exact ⟨least, by simp [hempty, hleast]⟩
    · exact ⟨pod, by simp [hempty]⟩
  · rw [hbal]
    by_cases hempty : env.matchedPods = []
    · exact iff_of_true ⟨least, by simp [hempty, hleast]⟩ (.inl hempty)
    · cases htarget : getTargetPodFromMatchedPods cfg.standardDeviationFactor env.runningOnMatch
        env.shuffle pods env.matchedPods with
      | none | some => simp [hempty]

lemma flexiblePrefixCacheTarget_mem {pod : Pod} (hpods : pods ≠ [])
    (h : flexiblePrefixCacheTarget cfg env pods = .returned (some pod)) :
    pod ∈ pods := by
  unfold flexiblePrefixCacheTarget at h
  have hmatched : ∀ pod', getTargetPodFromMatchedPods cfg.standardDeviationFactor env.runningOnMatch
      env.shuffle pods env.matchedPods = some pod' → pod' ∈ pods := fun pod' hpod' =>
    mem_of_find?_eq_some hpod'
  rcases getTargetPodOnLoadImbalance_cases cfg hpods env.runningOnImbalance env.drawOnImbalance with
    ⟨pod', hpod', himb⟩ | hbal
  · simp only [himb, Outcome.bind, Bool.true_eq_false, false_and, if_false] at h
    split at h
    · exact leastCount_mem (Outcome.returned.inj h)
    · exact Option.some.inj (Outcome.returned.inj h) ▸ hpod'
  · simp only [hbal, Outcome.bind, or_true] at h
    split at h
    · split at h
      · simp at h
      · rename_i pod' htarget
        exact hmatched pod (htarget.trans (Outcome.returned.inj h))
    · exact leastCount_mem (Outcome.returned.inj h)

lemma selectRandomPod_toOption (hpods : pods ≠ []) (hself : filterRoutablePods pods = pods)
    (draw : ℕ) : ∃ pod ∈ pods, (selectRandomPod pods draw).toOption = some pod := by
  obtain ⟨pod, hpod⟩ := selectRandomPod_isOk (hself.symm ▸ hpods) draw
  exact ⟨pod, toOption_selectRandomPod_mem (by rw [hpod]; rfl), by rw [hpod]; rfl⟩

lemma flexibleTarget_iff (hpods : pods ≠ []) (hself : filterRoutablePods pods = pods)
    (subAlgorithm : String) :
    (∃ pod, flexibleTarget cfg env pods subAlgorithm = .returned (some pod)) ↔
      subAlgorithm = "random" ∨ subAlgorithm = "prefix-cache" ∧ PrefixRoutable cfg env pods := by
  unfold flexibleTarget
  by_cases hrandom : subAlgorithm = "random"
  · obtain ⟨pod, -, hdrawn⟩ := selectRandomPod_toOption hpods hself env.drawn
    rw [if_pos hrandom, hdrawn]
    exact iff_of_true ⟨pod, rfl⟩ (.inl hrandom)
  · by_cases hcache : subAlgorithm = "prefix-cache"
    · rw [if_neg hrandom, if_pos hcache, flexiblePrefixCacheTarget_iff hpods]
      simp [hcache]
    · rw [if_neg hrandom, if_neg hcache]
      exact iff_of_false (by simp) (by simp [hrandom, hcache])

lemma flexibleTarget_mem {subAlgorithm : String} {pod : Pod} (hpods : pods ≠ [])
    (h : flexibleTarget cfg env pods subAlgorithm = .returned (some pod)) : pod ∈ pods := by
  unfold flexibleTarget at h
  split at h
  · exact toOption_selectRandomPod_mem (Outcome.returned.inj h)
  · split at h
    · exact flexiblePrefixCacheTarget_mem hpods h
    · simp at h

variable {κ : Type} {p : Scoring κ} {predictions : List (String × Prediction κ)}

/-- **When a prediction is of use**: a pod has one, and its score is below the start of the scan. -/
lemma selectBestPod_isSome_iff [LinearOrder κ] :
    (∃ pod, selectBestPod p pods predictions = some pod) ↔
      ∃ pod ∈ pods, ∃ score ∈ podScore p predictions pod, score < p.maxScore := by
  unfold selectBestPod
  by_cases hempty : predictions.isEmpty = true
  · have hnil : predictions = [] := isEmpty_iff.mp hempty
    simp [hnil, podScore]
  · rw [if_neg hempty]
    rcases foldl_keepBest_lt_cases (p.maxScore, pods.head?) pods with
      ⟨hsame, hall⟩ | ⟨pod, hpod, score, hscore, hlt, hfold⟩
    · rw [hsame]
      refine iff_of_false (by simp) ?_
      rintro ⟨pod, hpod, score, hscore, hlt⟩
      exact absurd hlt (not_lt.mpr (hall pod hpod score hscore))
    · rw [hfold, if_neg hlt.ne]
      exact iff_of_true ⟨pod, rfl⟩ ⟨pod, hpod, score, hscore, hlt⟩

lemma selectBestPod_mem [LinearOrder κ] {pod : Pod}
    (h : selectBestPod p pods predictions = some pod) :
    pod ∈ pods := by
  unfold selectBestPod at h
  split at h
  · simp at h
  · dsimp only at h
    split at h
    · simp at h
    · rcases foldl_keepBest_mem h with hhead | hmem
      · exact mem_of_head? hhead
      · exact hmem

end

/-! ### When the routers route -/

/-- **The two routers return the address of one of the pods** exactly if the prompt has tokens, and

* for the flexible router: the sub-algorithm is `random`; or it is `prefix-cache`, and no pod matches,
  or the load is imbalanced, or the address of the match that is taken is the name of a pod;
* for the latency router: the predictor fails, or it gives one of the pods two predictions that are
  not negative and have a score below the start of the scan. -/
theorem routes_to_pod_iff {κ : Type} [LinearOrder κ] (cfg : PrefixConfig) (p : Scoring κ)
    (flexible : FlexibleEnv) (latency : LatencyEnv κ) {ctx : RoutingContext}
    (hctx : ctx.targetPod = none) {pods : List Pod} (htwo : 2 ≤ (filterRoutablePods pods).length) :
    ((routeFlexible cfg flexible (filterRoutablePods pods) ctx).RoutesTo (filterRoutablePods pods) ↔
      flexible.tokenizeError = none ∧ (ctx.subAlgorithm = "random" ∨
        ctx.subAlgorithm = "prefix-cache" ∧
          PrefixRoutable cfg flexible (filterRoutablePods pods))) ∧
    ((routeLatency p latency (filterRoutablePods pods) ctx).RoutesTo (filterRoutablePods pods) ↔
      latency.tokenizeError = none ∧ ∀ predictions ∈ latency.reply,
        ∃ pod ∈ filterRoutablePods pods, ∃ score ∈ podScore p predictions pod,
          score < p.maxScore) := by
  have hself : filterRoutablePods (filterRoutablePods pods) = filterRoutablePods pods := by
    simp [filterRoutablePods]
  generalize filterRoutablePods pods = ready at htwo hself ⊢
  have hready : ready ≠ [] := ne_nil_of_length_pos (by omega)
  constructor
  · unfold routeFlexible
    cases htoken : flexible.tokenizeError with
    | some err => exact iff_of_false (by rintro ⟨pod, -, houtcome, -⟩; simp at houtcome) (by simp)
    | none =>
      rw [publishTarget_routesTo_iff hctx (fun pod => flexibleTarget_mem hready), flexibleTarget_iff]
      · simp
      · exact hready
      · exact hself
  · obtain ⟨first, second, rest, rfl⟩ : ∃ first second rest, ready = first :: second :: rest := by
      rcases ready with _ | ⟨first, _ | ⟨second, rest⟩⟩
      · simp at htwo
      · simp at htwo
      · exact ⟨first, second, rest, rfl⟩
    unfold routeLatency
    cases htoken : latency.tokenizeError with
    | some err => exact iff_of_false (by rintro ⟨pod, -, houtcome, -⟩; simp at houtcome) (by simp)
    | none =>
      cases hreply : latency.reply with
      | none =>
        obtain ⟨pod, hpod, hdrawn⟩ := selectRandomPod_toOption hready hself latency.drawn
        dsimp only
        rw [hdrawn, publishTarget_routesTo_iff hctx]
        · simp
        · intro pod' hpod'
          simp only [Outcome.returned.injEq, Option.some.injEq] at hpod'
          exact hpod' ▸ hpod
      | some predictions =>
        rw [publishTarget_routesTo_iff hctx]
        · simp [selectBestPod_isSome_iff]
        · intro pod hpod
          exact selectBestPod_mem (Outcome.returned.inj hpod)

def idleFlexible : FlexibleEnv where
  tokenizeError := none
  matchedPods := [("10.0.0.1", 100)]
  shuffle := idleReads.shuffle
  runningOnImbalance := fun _ => 0
  drawOnImbalance := 0
  runningOnMatch := fun _ => 0
  runningOnLeast := fun _ => 0
  drawOnLeast := 0
  drawn := 0

def natScoring : Scoring ℕ := ⟨0, 1000, fun ttft tpot => ttft + tpot⟩

theorem routes_to_pod_random :
    (routeFlexible ⟨1, 8, 50⟩ idleFlexible (filterRoutablePods Small.pods)
      { freshContext with subAlgorithm := "random" }).RoutesTo (filterRoutablePods Small.pods) ∧
    (routeLatency natScoring ⟨none, none, 0⟩ (filterRoutablePods Small.pods)
      { freshContext with subAlgorithm := "random" }).RoutesTo (filterRoutablePods Small.pods) :=
  have hready : 2 ≤ (filterRoutablePods Small.pods).length := by decide
  have hctx : { freshContext with subAlgorithm := "random" }.targetPod = none := rfl
  have h := routes_to_pod_iff ⟨1, 8, 50⟩ natScoring idleFlexible ⟨none, none, 0⟩ hctx hready
  ⟨h.1.mpr ⟨rfl, Or.inl rfl⟩, h.2.mpr ⟨rfl, by simp⟩⟩

/-- With two routable pods the routers read the address of a missing target: where the sub-algorithm
is not known, where a prefix matches one of the pods, and where the predictor has no prediction. -/
theorem target_missing : (filterRoutablePods Small.pods).length = 2 ∧
    (routeFlexible ⟨1, 8, 50⟩ idleFlexible (filterRoutablePods Small.pods)
      { freshContext with subAlgorithm := "least-request" }).outcome = .panicked ∧
    (routeFlexible ⟨1, 8, 50⟩ idleFlexible (filterRoutablePods Small.pods)
      { freshContext with subAlgorithm := "prefix-cache" }).outcome = .panicked ∧
    (routeLatency natScoring ⟨none, some [], 0⟩ (filterRoutablePods Small.pods)
      freshContext).outcome = .panicked :=
  ⟨by decide, by decide +kernel⟩

end Lodestar.Gateway
