import Lodestar.Gateway.PrebleRoute
import Lodestar.Gateway.PrefixRoute

/-!
# The online-learning router

`Route` of `rl_routing.go` with its fallbacks.  For the sub-algorithm `lodestar` the routing agent
is asked, and whatever it answers, the request has to go somewhere.  All other sub-algorithms are
heuristics, and what none of them decides is left to `prefix_cache_1`.

Every selection reads counters and caches anew, so every place in the source where one is made has
its own reads.  What LMETRIC selects is a position among the pods, as its file is not part of the
repository.
-/

namespace Lodestar.Gateway

open Lib

/-! ### Chains of selections -/

namespace Outcome

variable {α β : Type}

def bind (res : Outcome α) (f : α → Outcome β) : Outcome β :=
  match res with
  | .returned a => f a
  | .blocked => .blocked
  | .panicked => .panicked

/-- Where nothing was selected, the next selection is made. -/
def orNext (res next : Outcome (Option α)) : Outcome (Option α) :=
  res.bind fun selected => if selected.isSome = true then .returned selected else next

/-- The call returned, and what it selected, if anything, is one of the list. -/
def SelectsFrom (res : Outcome (Option α)) (l : List α) : Prop :=
  ∃ selected, res = .returned selected ∧ ∀ x, selected = some x → x ∈ l

def Selects (res : Outcome (Option α)) (l : List α) : Prop := ∃ x ∈ l, res = .returned (some x)

variable {res next : Outcome (Option α)} {l : List α}

lemma Selects.selectsFrom (h : res.Selects l) : res.SelectsFrom l := by
  obtain ⟨x, hx, rfl⟩ := h
  refine ⟨some x, rfl, ?_⟩
  intro y hy
  exact Option.some.inj hy ▸ hx

lemma SelectsFrom.returned {selected : Option α} (h : ∀ x, selected = some x → x ∈ l) :
    (Outcome.returned selected).SelectsFrom l := ⟨selected, rfl, h⟩

lemma SelectsFrom.ite {p : Prop} [Decidable p] (h : res.SelectsFrom l) (hnext : next.SelectsFrom l) :
    (if p then res else next).SelectsFrom l := by
  split
  · exact h
  · exact hnext

lemma SelectsFrom.orNext (h : res.SelectsFrom l) (hnext : next.Selects l) :
    (res.orNext next).Selects l := by
  obtain ⟨selected, rfl, hmem⟩ := h
  cases selected with
  | none => exact hnext
  | some x => exact ⟨x, hmem x rfl, rfl⟩

lemma Selects.orNext (h : res.Selects l) : (res.orNext next).Selects l := by
  obtain ⟨x, hx, rfl⟩ := h
  exact ⟨x, hx, rfl⟩

lemma Selects.bind {f : Option α → Outcome (Option α)} (h : res.Selects l)
    (hf : ∀ x ∈ l, (f (some x)).Selects l) : (res.bind f).Selects l := by
  obtain ⟨x, hx, rfl⟩ := h
  exact hf x hx

end Outcome

/-! ### `prefix_cache_1` -/

/-- What the reads and draws of `routeWithPrefixCache1` give. -/
structure PrefixReads where
  onImbalance : RunningCounts
  drawOnImbalance : ℕ
  onRatio : RunningCounts
  shuffle : Shuffle
  onLeastRequest : RunningCounts
  drawOnLeastRequest : ℕ

def routeWithPrefixCache1 (cfg : PrefixConfig) (reads : PrefixReads) (pods : List Pod)
    (matchedPods : MatchedPods) : Outcome (Option Pod) :=
  (getTargetPodOnLoadImbalance cfg reads.onImbalance pods reads.drawOnImbalance).bind
    fun (targetPod, isLoadImbalanced) =>
      -- the address of the target on imbalance is logged
      if isLoadImbalanced = true ∧ targetPod = none then .panicked
      else
        let targetPod := if isLoadImbalanced = false ∧ matchedPods ≠ [] then
            routePrefixRatioAndLoad cfg.standardDeviationFactor reads.onRatio reads.shuffle pods
              matchedPods
          else targetPod
        if matchedPods = [] ∨ targetPod = none then
          .returned (selectTargetPodWithLeastRequestCount
            (fun name => (reads.onLeastRequest name).toInt) pods reads.drawOnLeastRequest)
        else .returned targetPod

/-- The ratios that were found, with 0 for the pods without one. -/
def fillRatios (found : MatchedPods) (pods : List Pod) : MatchedPods :=
  pods.foldl (fun ratios pod =>
    if pod.podIP ∈ ratios.map Prod.fst then ratios else ratios ++ [(pod.podIP, 0)]) found

/-! ### Fallbacks -/

/-- What a fallback reads.  There are ratios where the request has input tokens; `le` compares
metrics. -/
structure FallbackReads (κ : Type) where
  draw : ℕ
  running : RunningCounts
  le : κ → κ → Bool
  maxFloat64 : κ
  kvCache : Pod → Option κ
  prefillTokens : String → ℤ
  found : Option MatchedPods
  reads : PrefixReads

variable {κ : Type}

def fallbackRoutingWithPrefixCache1 (cfg : PrefixConfig) (fb : FallbackReads κ) (pods : List Pod) :
    Outcome (Option Pod) :=
  let podIPsWithMatchingRatios := match fb.found with
    | some found => fillRatios found pods
    | none => []
  (routeWithPrefixCache1 cfg fb.reads pods podIPsWithMatchingRatios).orNext
    (.returned (selectRandomPod pods fb.draw).toOption)

def fallbackRouting (cfg : PrefixConfig) (fb : FallbackReads κ) (pods : List Pod)
    (subAlgorithm : String) : Outcome (Option Pod) :=
  if subAlgorithm = "random" then .returned (selectRandomPod pods fb.draw).toOption
  else if subAlgorithm = "least_request" then
    .returned (selectTargetPodWithLeastRequestCount (fun name => (fb.running name).toInt) pods fb.draw)
  else if subAlgorithm = "least_kv_cache" then
    .returned (selectBest fb.le (RouterCall.withAddress fb.kvCache) fb.maxFloat64 pods)
  else if subAlgorithm = "prefix_cache_1" ∨ subAlgorithm = "lodestar" then
    fallbackRoutingWithPrefixCache1 cfg fb pods
  else if subAlgorithm = "least_prefill_tokens" then
    .returned (selectTargetPodWithLeastPrefillTokens fb.prefillTokens pods fb.draw)
  else if subAlgorithm = "lmetric" then fallbackRoutingWithPrefixCache1 cfg fb pods
  else .returned none

/-- What a heuristic reads; `fallback` and `safetyNet` are for what follows where it selects
nothing. -/
structure HeuristicReads (κ : Type) where
  draw : ℕ
  running : RunningCounts
  shuffle : Shuffle
  le : κ → κ → Bool
  maxFloat64 : κ
  latency : Pod → Option κ
  kvCache : Pod → Option κ
  prefillTokens : String → ℤ
  lmetricPod : Option ℕ
  reads : PrefixReads
  fallback : FallbackReads κ
  safetyNet : PrefixReads

/-- The pod that was selected before, unless the address is empty. -/
def preComputedPod (selectedPodIP : String) (pods : List Pod) : Option Pod :=
  if selectedPodIP = "" then none else filterPodByIP selectedPodIP pods

section

variable (cfg : PrefixConfig) (h : HeuristicReads κ) (pods : List Pod) (matchedPods : MatchedPods)
  (mooncakeSelectedPodIP subAlgorithm : String)

/-- The branches of `selectHeuristicTargetPod`. -/
def heuristicBranch : Outcome (Option Pod) :=
  if subAlgorithm = "random" then .returned (selectRandomPod pods h.draw).toOption
  else if subAlgorithm = "least_latency" then
    .returned (selectBest h.le (RouterCall.withAddress h.latency) h.maxFloat64 pods)
  else if subAlgorithm = "least_request" then
    .returned (selectTargetPodWithLeastRequestCount (fun name => (h.running name).toInt) pods h.draw)
  else if subAlgorithm = "least_kv_cache" then
    .returned (selectBest h.le (RouterCall.withAddress h.kvCache) h.maxFloat64 pods)
  else if subAlgorithm = "prefix_cache_1" then routeWithPrefixCache1 cfg h.reads pods matchedPods
  else if subAlgorithm = "prefix_cache_2" then
    .returned (routePrefixRatioAndLoad cfg.standardDeviationFactor h.running h.shuffle pods matchedPods)
  else if subAlgorithm = "least_prefill_tokens" then
    .returned (selectTargetPodWithLeastPrefillTokens h.prefillTokens pods h.draw)
  else if subAlgorithm = "prefix_hit_threshold_or_least_request" then
    .returned (routePrefixHitThresholdOrLeastRequest cfg h.running h.shuffle pods matchedPods h.draw)
  else if subAlgorithm = "lmetric" then
    (Outcome.returned (RouterCall.podAt pods h.lmetricPod)).orNext
      (fallbackRoutingWithPrefixCache1 cfg h.fallback pods)
  else if subAlgorithm = "mooncake" then
    (Outcome.returned (preComputedPod mooncakeSelectedPodIP pods)).orNext
      (fallbackRoutingWithPrefixCache1 cfg h.fallback pods)
  else .returned none

def selectHeuristicTargetPod : Outcome (Option Pod) :=
  (heuristicBranch cfg h pods matchedPods mooncakeSelectedPodIP subAlgorithm).orNext
    (routeWithPrefixCache1 cfg h.safetyNet pods matchedPods)

end

/-! ### The routing agent -/

/-- What `Route` decides by in a `RouteResponse`. -/
structure RouteResponse where
  selectedPod : String := ""
  oodFallback : ℤ := 0

/-- What becomes of the request to the agent.  A body that cannot be decoded may still have set some
fields of the response. -/
inductive AgentAnswer where
  | marshalError
  | requestError
  | sendError
  | readError (statusCode : ℤ)
  | body (statusCode : ℤ) (decodeError : Bool) (response : RouteResponse)

/-- What a call of `Route` reads; `fallbacks` has the reads of its fallbacks, in the order of the
source. -/
structure OnlineEnv (κ : Type) where
  firstRequest : Bool
  onFirstRequest : RunningCounts
  drawOnFirstRequest : ℕ
  found : MatchedPods
  mooncakeScore : Option String
  heuristics : HeuristicReads κ
  answer : AgentAnswer
  lmetricFallbackPod : Option ℕ
  fallbacks : ℕ → FallbackReads κ

/-- The target that the agent or a fallback comes to, with what is recorded for the request:
whether the agent failed, and the flag of its response. -/
structure Decision where
  target : Outcome (Option Pod)
  failureFallback : Option Bool := none
  oodFallback : Option ℤ := none

def lmetricFallback (cfg : PrefixConfig) (env : OnlineEnv κ) (fb : FallbackReads κ) (pods : List Pod)
    (mooncakeSelectedPodIP subAlgorithm : String) : Outcome (Option Pod) :=
  (Outcome.returned (RouterCall.podAt pods env.lmetricFallbackPod)).orNext
    ((Outcome.returned (preComputedPod mooncakeSelectedPodIP pods)).orNext
      (fallbackRouting cfg fb pods subAlgorithm))

/-- The flag asks for a fallback; 3 is a tie that the agent broke itself. -/
def RouteResponse.wantsFallback (response : RouteResponse) (subAlgorithm : String) : Bool :=
  response.oodFallback ≥ 1 ∧ response.oodFallback ≠ 3 ∧ subAlgorithm = "lodestar"

/-- What `Route` makes of the body of a response. -/
def decideByBody (cfg : PrefixConfig) (env : OnlineEnv κ) (pods : List Pod)
    (mooncakeSelectedPodIP subAlgorithm : String) (statusCode : ℤ) (decodeError : Bool)
    (response : RouteResponse) : Decision :=
  let undecodable := decodeError = true ∧ subAlgorithm = "lodestar"
  let wantsFallback := response.wantsFallback subAlgorithm
  let decoded : Outcome (Option Pod) :=
    if undecodable then fallbackRouting cfg (env.fallbacks 4) pods subAlgorithm else .returned none
  match decoded with
  | .blocked => ⟨.blocked, none, none⟩
  | .panicked => ⟨.panicked, none, none⟩
  | .returned none =>
    let selected := filterPodByIP response.selectedPod pods
    let target := (Outcome.returned selected).orNext
      (lmetricFallback cfg env (env.fallbacks 5) pods mooncakeSelectedPodIP subAlgorithm)
    { target := target.bind fun target =>
        if wantsFallback then fallbackRouting cfg (env.fallbacks 6) pods subAlgorithm
        else .returned target
      failureFallback := some (statusCode ≠ 200 ∨ undecodable ∨ selected = none ∨ wantsFallback)
      oodFallback := some response.oodFallback }
  | .returned (some pod) =>
    { target := if wantsFallback then fallbackRouting cfg (env.fallbacks 7) pods subAlgorithm
        else .returned (some pod)
      failureFallback := some true
      oodFallback := some response.oodFallback }

/-- The end of `Route`: the last fallback, and the error where nothing was selected. -/
def conclude (cfg : PrefixConfig) (env : OnlineEnv κ) (ctx : RoutingContext) (pods : List Pod)
    (target : Outcome (Option Pod)) : Publication :=
  match target.orNext (fallbackRoutingWithPrefixCache1 cfg (env.fallbacks 8) pods) with
  | .returned (some pod) => .published (some pod)
  | .returned none =>
    .error ("all routing attempts failed, no available pod for requestID: " ++ ctx.requestID)
  | .blocked | .panicked => .panicked

/-- A fallback after which `Route` returns at once. -/
def publishFallback (message : String) (ctx : RoutingContext) : Outcome (Option Pod) → Publication
  | .returned (some pod) => .published (some pod)
  | .returned none => .error ("fallback routing failed after " ++ message ++ ", requestID: " ++ ctx.requestID)
  | .blocked | .panicked => .panicked

/-- The routing decision of `Route`, with what is recorded for the request. -/
def decideOnline (cfg : PrefixConfig) (env : OnlineEnv κ) (ctx : RoutingContext) (pods : List Pod) :
    Publication × Option Bool × Option ℤ :=
  let matchedPods := fillRatios env.found pods
  let mooncakeSelectedPodIP :=
    if ctx.subAlgorithm = "mooncake" then env.mooncakeScore.getD "" else ""
  if ctx.subAlgorithm ≠ "lodestar" then
    (conclude cfg env ctx pods (selectHeuristicTargetPod cfg env.heuristics pods matchedPods
      mooncakeSelectedPodIP ctx.subAlgorithm), some false, none)
  else
    match env.answer with
    | .marshalError => (publishFallback "marshal error" ctx
        (fallbackRouting cfg (env.fallbacks 0) pods ctx.subAlgorithm), none, none)
    | .requestError => (publishFallback "request creation error" ctx
        (fallbackRouting cfg (env.fallbacks 1) pods ctx.subAlgorithm), none, none)
    | .sendError => (conclude cfg env ctx pods (lmetricFallback cfg env (env.fallbacks 2) pods
        mooncakeSelectedPodIP ctx.subAlgorithm), none, none)
    | .readError _ => (conclude cfg env ctx pods (lmetricFallback cfg env (env.fallbacks 3) pods
        mooncakeSelectedPodIP ctx.subAlgorithm), none, none)
    | .body statusCode decodeError response =>
      let d := decideByBody cfg env pods mooncakeSelectedPodIP ctx.subAlgorithm statusCode decodeError
        response
      (conclude cfg env ctx pods d.target, d.failureFallback, d.oodFallback)

/-- What is published, with what is recorded for the request. -/
def publishOnline (cfg : PrefixConfig) (env : OnlineEnv κ) (ctx : RoutingContext) (pods : List Pod) :
    Publication × Option Bool × Option ℤ :=
  if env.firstRequest then
    (.published (selectTargetPodWithLeastRequestCount (fun name => (env.onFirstRequest name).toInt)
      pods env.drawOnFirstRequest), none, none)
  else
    match pods with
    | [] => (.error "no ready pods available", none, none)
    | [pod] => (.published (some pod), none, none)
    | pods => decideOnline cfg env ctx pods

/-- How `Route` of the online-learning router ends. -/
structure OnlineResult where
  outcome : Outcome (Except String String)
  ctx : RoutingContext
  failureFallback : Option Bool
  oodFallback : Option ℤ

/-- `Route`.  The address of a nil pointer is empty. -/
def routeOnline (cfg : PrefixConfig) (env : OnlineEnv κ) (ctx : RoutingContext) (pods : List Pod) :
    OnlineResult :=
  let (publication, failureFallback, oodFallback) := publishOnline cfg env ctx pods
  match publication with
  | .error message => ⟨.returned (.error message), ctx, failureFallback, oodFallback⟩
  | .panicked => ⟨.panicked, ctx, failureFallback, oodFallback⟩
  | .published none => ⟨.returned (.ok ""), ctx, failureFallback, oodFallback⟩
  | .published (some pod) =>
    let ctx := ctx.setTargetPod pod
    ⟨ctx.returnAddress, ctx, failureFallback, oodFallback⟩

/-! ### Every chain ends at a pod -/

section

variable {pods : List Pod} (cfg : PrefixConfig)
variable (hpods : pods ≠ [])
include hpods

/-- **`prefix_cache_1`** comes to one of the pods, whatever the ratios and the counts are. -/
lemma routeWithPrefixCache1_selects (reads : PrefixReads) (matchedPods : MatchedPods) :
    (routeWithPrefixCache1 cfg reads pods matchedPods).Selects pods := by
  obtain ⟨least, hleast, hselect⟩ :=
    leastRequest_isSome hpods reads.onLeastRequest reads.drawOnLeastRequest
  unfold routeWithPrefixCache1
  rcases getTargetPodOnLoadImbalance_cases cfg hpods reads.onImbalance reads.drawOnImbalance with
    ⟨pod, hpod, himbalance⟩ | hbalance
  · simp only [himbalance, Outcome.bind, reduceCtorEq, and_false, if_false,
      false_and]
    split
    · exact ⟨least, hleast, by rw [hselect]⟩
    · exact ⟨pod, hpod, rfl⟩
  · simp only [hbalance, Outcome.bind, Bool.false_eq_true, false_and, if_false, true_and]
    by_cases hmatched : matchedPods = []
    · exact ⟨least, hleast, by rw [if_pos (Or.inl hmatched), hselect]⟩
    · rw [if_pos hmatched]
      cases hratio : routePrefixRatioAndLoad cfg.standardDeviationFactor reads.onRatio reads.shuffle
          pods matchedPods with
      | none => exact ⟨least, hleast, by rw [if_pos (Or.inr rfl), hselect]⟩
      | some pod => exact ⟨pod, routePrefixRatioAndLoad_mem hratio, by simp [hmatched]⟩

lemma fallbackRoutingWithPrefixCache1_selects (fb : FallbackReads κ) :
    (fallbackRoutingWithPrefixCache1 cfg fb pods).Selects pods := by
  exact (routeWithPrefixCache1_selects cfg hpods fb.reads _).orNext

lemma fallbackRouting_selects (fb : FallbackReads κ) :
    (fallbackRouting cfg fb pods "lodestar").Selects pods := by
  have hselects := fallbackRoutingWithPrefixCache1_selects cfg hpods fb
  simpa [fallbackRouting] using hselects

omit hpods in
lemma preComputedPod_mem {selectedPodIP : String} {pod : Pod}
    (h : preComputedPod selectedPodIP pods = some pod) : pod ∈ pods := by
  unfold preComputedPod at h
  split at h
  · simp at h
  · exact filterPodByIP_mem h

lemma lmetricFallback_selects (env : OnlineEnv κ) (fb : FallbackReads κ)
    (mooncakeSelectedPodIP : String) :
    (lmetricFallback cfg env fb pods mooncakeSelectedPodIP "lodestar").Selects pods := by
  refine Outcome.SelectsFrom.orNext (Outcome.SelectsFrom.returned fun pod => podAt_mem) ?_
  refine Outcome.SelectsFrom.orNext (Outcome.SelectsFrom.returned fun pod => preComputedPod_mem) ?_
  exact fallbackRouting_selects cfg hpods fb

lemma heuristicBranch_selectsFrom (h : HeuristicReads κ) (matchedPods : MatchedPods)
    (mooncakeSelectedPodIP subAlgorithm : String) :
    (heuristicBranch cfg h pods matchedPods mooncakeSelectedPodIP subAlgorithm).SelectsFrom pods := by
  have hfallback := fallbackRoutingWithPrefixCache1_selects cfg hpods h.fallback
  refine .ite (.returned fun pod => toOption_selectRandomPod_mem) ?_
  refine .ite (.returned fun pod => selectBest_mem) ?_
  refine .ite (.returned fun pod => leastCount_mem) ?_
  refine .ite (.returned fun pod => selectBest_mem) ?_
  refine .ite (routeWithPrefixCache1_selects cfg hpods h.reads matchedPods).selectsFrom ?_
  refine .ite (.returned fun pod => routePrefixRatioAndLoad_mem) ?_
  refine .ite (.returned fun pod => leastCount_mem) ?_
  refine .ite (.returned fun pod => routePrefixHitThreshold_mem) ?_
  refine .ite (Outcome.SelectsFrom.orNext (.returned fun pod => podAt_mem) hfallback).selectsFrom ?_
  refine .ite (Outcome.SelectsFrom.orNext (.returned fun pod => preComputedPod_mem)
    hfallback).selectsFrom ?_
  exact .returned fun pod hpod => by simp at hpod

lemma decideByBody_selects (env : OnlineEnv κ) (mooncakeSelectedPodIP : String) (statusCode : ℤ)
    (decodeError : Bool) (response : RouteResponse) :
    (decideByBody cfg env pods mooncakeSelectedPodIP "lodestar" statusCode decodeError
      response).target.Selects pods := by
  -- the flag of the response replaces the target by a fallback, or leaves it
  have hflag : ∀ (fb : FallbackReads κ), ∀ pod ∈ pods, Outcome.Selects
      (if response.wantsFallback "lodestar" then fallbackRouting cfg fb pods "lodestar"
        else .returned (some pod)) pods := by
    intro fb pod hpod
    split
    · exact fallbackRouting_selects cfg hpods fb
    · exact ⟨pod, hpod, rfl⟩
  obtain ⟨decoded, hdecoded, hfallback⟩ := fallbackRouting_selects cfg hpods (env.fallbacks 4)
  unfold decideByBody
  cases decodeError with
  | true =>
    simp only [hfallback]
    exact hflag (env.fallbacks 7) decoded hdecoded
  | false =>
    refine Outcome.Selects.bind ?_ (hflag (env.fallbacks 6))
    exact (Outcome.SelectsFrom.returned fun pod => filterPodByIP_mem).orNext
      (lmetricFallback_selects cfg hpods env (env.fallbacks 5) mooncakeSelectedPodIP)

omit hpods in
lemma conclude_of_selects {env : OnlineEnv κ} {ctx : RoutingContext}
    {target : Outcome (Option Pod)} (h : target.Selects pods) :
    ∃ pod ∈ pods, conclude cfg env ctx pods target = .published (some pod) := by
  obtain ⟨pod, hpod, rfl⟩ := h
  exact ⟨pod, hpod, rfl⟩

omit hpods in
lemma publishFallback_of_selects {message : String} {ctx : RoutingContext}
    {target : Outcome (Option Pod)} (h : target.Selects pods) :
    ∃ pod ∈ pods, publishFallback message ctx target = .published (some pod) := by
  obtain ⟨pod, hpod, rfl⟩ := h
  exact ⟨pod, hpod, rfl⟩

lemma decideOnline_published (env : OnlineEnv κ) (ctx : RoutingContext) :
    ∃ pod ∈ pods, (decideOnline cfg env ctx pods).1 = .published (some pod) := by
  unfold decideOnline
  by_cases hsub : ctx.subAlgorithm = "lodestar"
  · rw [hsub]
    cases env.answer with
    | marshalError =>
      exact publishFallback_of_selects (fallbackRouting_selects cfg hpods (env.fallbacks 0))
    | requestError =>
      exact publishFallback_of_selects (fallbackRouting_selects cfg hpods (env.fallbacks 1))
    | sendError =>
      exact conclude_of_selects cfg (lmetricFallback_selects cfg hpods env (env.fallbacks 2) _)
    | readError statusCode =>
      exact conclude_of_selects cfg (lmetricFallback_selects cfg hpods env (env.fallbacks 3) _)
    | body statusCode decodeError response =>
      exact conclude_of_selects cfg
        (decideByBody_selects cfg hpods env _ statusCode decodeError response)
  · rw [if_pos hsub]
    exact conclude_of_selects cfg
      ((heuristicBranch_selectsFrom cfg hpods env.heuristics _ _ _).orNext
        (routeWithPrefixCache1_selects cfg hpods env.heuristics.safetyNet _))

lemma publishOnline_published (env : OnlineEnv κ) (ctx : RoutingContext) :
    ∃ pod ∈ pods, (publishOnline cfg env ctx pods).1 = .published (some pod) := by
  unfold publishOnline
  split
  · obtain ⟨pod, hpod, hselect⟩ := leastRequest_isSome hpods env.onFirstRequest env.drawOnFirstRequest
    exact ⟨pod, hpod, by rw [hselect]⟩
  · split
    · exact absurd rfl hpods
    · exact ⟨_, List.mem_singleton_self _, rfl⟩
    · exact decideOnline_published cfg hpods env ctx

end

/-- **The online-learning router always routes**: whatever the agent does and whichever sub-algorithm
is asked for, the address of a routable pod is returned and the request is marked as routed to it. -/
theorem routes_to_routable (cfg : PrefixConfig) (env : OnlineEnv κ) {ctx : RoutingContext}
    (hctx : ctx.targetPod = none) {pods : List Pod} (htwo : 2 ≤ (filterRoutablePods pods).length) :
    ∃ pod ∈ filterRoutablePods pods, (routeOnline cfg env ctx (filterRoutablePods pods)).outcome =
        .returned (.ok (pod.podIP ++ ":8000")) ∧
      (routeOnline cfg env ctx (filterRoutablePods pods)).ctx.targetPod = some pod := by
  have hpods : filterRoutablePods pods ≠ [] := List.ne_nil_of_length_pos (by omega)
  obtain ⟨pod, hpod, hpublish⟩ := publishOnline_published cfg hpods env ctx
  refine ⟨pod, hpod, ?_⟩
  unfold routeOnline
  simp only [hpublish]
  exact ⟨setTargetPod_returnAddress hctx pod, setTargetPod_targetPod hctx pod⟩

def idleReads : PrefixReads where
  onImbalance := fun _ => 0
  drawOnImbalance := 0
  onRatio := fun _ => 0
  shuffle := ⟨id, List.Perm.refl⟩
  onLeastRequest := fun _ => 0
  drawOnLeastRequest := 0

def idleFallback : FallbackReads ℕ where
  draw := 0
  running := fun _ => 0
  le := fun x y => x ≤ y
  maxFloat64 := 0
  kvCache := fun _ => none
  prefillTokens := fun _ => 0
  found := none
  reads := idleReads

/-- An agent that selects a pod which does not exist, and asks for a fallback. -/
def confusedEnv : OnlineEnv ℕ where
  firstRequest := false
  onFirstRequest := fun _ => 0
  drawOnFirstRequest := 0
  found := []
  mooncakeScore := none
  heuristics :=
    { idleFallback with
      shuffle := ⟨id, List.Perm.refl⟩, latency := fun _ => none, lmetricPod := none
      fallback := idleFallback, safetyNet := idleReads }
  answer := .body 500 false { selectedPod := "nowhere", oodFallback := 1 }
  lmetricFallbackPod := none
  fallbacks := fun _ => idleFallback

theorem routes_to_routable_small : (filterRoutablePods Small.pods).length = 2 ∧
    ∃ pod ∈ filterRoutablePods Small.pods,
      (routeOnline ⟨1, 8, 50⟩ confusedEnv { freshContext with subAlgorithm := "lodestar" }
        (filterRoutablePods Small.pods)).outcome = .returned (.ok (pod.podIP ++ ":8000")) ∧
      (routeOnline ⟨1, 8, 50⟩ confusedEnv { freshContext with subAlgorithm := "lodestar" }
        (filterRoutablePods Small.pods)).ctx.targetPod = some pod :=
  ⟨by decide, routes_to_routable ⟨1, 8, 50⟩ confusedEnv rfl (by decide)⟩

end Lodestar.Gateway
