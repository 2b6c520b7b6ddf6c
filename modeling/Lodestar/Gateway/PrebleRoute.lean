import Lodestar.Gateway.Process
import Lodestar.Routing.Histogram
import Lodestar.Lib.Select

/-!
# The target that the Preble router publishes

`Route` of `prefix_cache_and_load.go` once more, now with the selection of the target: the
pod of least load among those of the longest matching node, or else the pod of least cost.
The target is published by `SetTargetPod` on the routing context, and `TargetAddress` waits
for it.

Costs are compared as floating-point numbers are, by a relation of which nothing is
assumed, and the loads are those of the histogram, so that all its states are covered.
-/

namespace Lodestar.Gateway

open Indexer Lodestar.Routing Lodestar.Lib

/-- `SetTargetPod`: only the first target counts. -/
def RoutingContext.setTargetPod (ctx : RoutingContext) (pod : Pod) : RoutingContext :=
  { ctx with targetPod := ctx.targetPod.or (some pod) }

/-- `TargetAddress` as the end of a call of `Route`. -/
def RoutingContext.returnAddress (ctx : RoutingContext) : Outcome (Except String String) :=
  match ctx.targetAddress with
  | none => .blocked
  | some address => .returned (.ok address)

/-! ### The selection -/

def getPodLoad (h : SlidingWindowHistogram) (c : LPRadixCache) (podIP : String) : ℤ :=
  (h.nodeToCount.entries.map fun e =>
    if (c.heap e.1).modelToPods.entries.any fun m => (m.2.lookup podIP).isSome then e.2
    else 0).sum

/-- A node on the way to the root that records ready pods. -/
structure PrefixMatch where
  node : NodeId
  pods : List Pod
  depth : ℕ
  matchLength : ℕ

def nodePods (c : LPRadixCache) (model : String) (readyPods : List Pod) (node : NodeId) :
    List Pod :=
  match (c.heap node).modelToPods.lookup model with
  | none => []
  | some modelPods => modelPods.keys.flatMap fun podIP =>
      readyPods.filter fun pod => pod.podIP = podIP

def prefixMatches (c : LPRadixCache) (model : String) (readyPods : List Pod) (leaf : NodeId) :
    List PrefixMatch :=
  (c.ancestors leaf).filterMap fun node =>
    let pods := nodePods c model readyPods node
    if pods = [] then none
    else some ⟨node, pods, (c.heap node).depth, (c.heap node).contextLength⟩

/-- The first match after the longest ones are sorted to the front. -/
def longestMatch (ms : List PrefixMatch) : Option PrefixMatch :=
  (ms.insertionSort fun m m' => m'.matchLength ≤ m.matchLength).head?

/-- The loop over the pods of the longest match, where -1 stands for no load so far. -/
def leastLoaded (load : String → ℤ) (pods : List Pod) : Option Pod :=
  selectBest (fun v minLoad => minLoad = -1 ∨ v < minLoad) (fun pod => some (load pod.podIP)) (-1)
    pods

/-- What a call of `Route` is told: the clock, the threshold and the histogram, the costs of
the pods with the comparison of costs, and the nodes that the rebalancing migrates. -/
structure PrebleEnv (κ : Type) where
  insertTimes : ℕ → Time
  queryTimes : String → ℕ → Time
  now : Time
  prefixRoutingThreshold : ℤ
  histogram : SlidingWindowHistogram
  lt : κ → κ → Bool
  maxFloat64 : κ
  podCosts : String → κ
  migrations : List (NodeId × String)

variable {κ : Type}

def cheapest (env : PrebleEnv κ) (readyPods : List Pod) : Option Pod :=
  selectBest env.lt (fun pod => some (env.podCosts pod.podIP)) env.maxFloat64 readyPods

/-- The target of a prompt with tokens, `none` where no suitable pod is found. -/
def selectTarget (env : PrebleEnv κ) (inserted : LPRadixCache.Inserted) (model : String) (tokens : List Token)
    (readyPods : List Pod) : Option Pod :=
  let c := inserted.cache
  let matchPercentage := inserted.matched.length * 100 / tokens.length
  let byPrefix :=
    if (matchPercentage : ℤ) > env.prefixRoutingThreshold then
      (longestMatch (prefixMatches c model readyPods inserted.node)).bind fun longest =>
        leastLoaded (getPodLoad env.histogram c) longest.pods
    else none
  match byPrefix with
  | some pod => some pod
  | none => cheapest env readyPods

variable {c : LPRadixCache} {model : String} {readyPods : List Pod} {pod : Pod}

lemma mem_of_mem_nodePods {node : NodeId} (h : pod ∈ nodePods c model readyPods node) :
    pod ∈ readyPods := by
  unfold nodePods at h
  split at h
  · simp at h
  · obtain ⟨podIP, -, hpod⟩ := List.mem_flatMap.mp h
    exact List.mem_of_mem_filter hpod

lemma mem_of_longestMatch {leaf : NodeId} {longest : PrefixMatch}
    (h : longestMatch (prefixMatches c model readyPods leaf) = some longest) :
    ∀ pod ∈ longest.pods, pod ∈ readyPods := by
  have hmem := (List.perm_insertionSort _ _).mem_iff.mp (List.mem_of_mem_head? h)
  obtain ⟨node, -, hnode⟩ := List.mem_filterMap.mp hmem
  dsimp only at hnode
  split at hnode
  · simp at hnode
  · obtain rfl := Option.some.inj hnode
    exact fun pod hpod => mem_of_mem_nodePods hpod

/-- **A target is one of the ready pods**, whichever branch selects it. -/
lemma selectTarget_mem {env : PrebleEnv κ} {inserted : LPRadixCache.Inserted}
    {tokens : List Token} (h : selectTarget env inserted model tokens readyPods = some pod) :
    pod ∈ readyPods := by
  unfold selectTarget at h
  dsimp only at h
  split at h
  · rename_i pod' hprefix
    obtain rfl := Option.some.inj h
    split at hprefix
    · obtain ⟨longest, hlongest, hpod⟩ := Option.bind_eq_some_iff.mp hprefix
      exact mem_of_longestMatch hlongest pod' (selectBest_mem hpod)
    · simp at hprefix
  · exact selectBest_mem h

/-! ### Publication -/

/-- What a call of `Route` leaves behind. -/
structure PrebleResult where
  outcome : Outcome (Except String String)
  ctx : RoutingContext
  router : Router

def PrebleEnv.choice (env : PrebleEnv κ) (pick : Option ℕ) : PrebleChoice :=
  ⟨pick, env.migrations, env.insertTimes, env.queryTimes, env.now⟩

/-- The part of `Route` for several ready pods. -/
def routeAmong (s : Server) (env : PrebleEnv κ) (r : Router) (ctx : RoutingContext)
    (readyPods : List Pod) : PrebleResult :=
  let call := prebleCall s (env.choice none) ctx readyPods
  let r := r.updatePodSet call.readyPods
  let inserted := r.cache.addPrefix call.tokens call.model "" call.insertTimes fun _ => call.now
  let r := { r with cache := inserted.cache }
  -- without tokens a pod is drawn, but it is not set as the target
  if call.tokens = [] then ⟨ctx.returnAddress, ctx, r⟩
  else
    match selectTarget env inserted call.model call.tokens readyPods with
    | none => ⟨.returned (.error "no suitable pod found"), ctx, r⟩
    | some pod =>
      let cache := Router.queryAll r.cache call
      let cache := Router.attach cache inserted.node call.model pod.podIP call.now
      let r := { r with
        cache := Router.migrate cache call
        outstanding := r.outstanding.insert call.requestID ⟨inserted.node, pod.podIP⟩ }
      let ctx := ctx.setTargetPod pod
      ⟨ctx.returnAddress, ctx, r⟩

/-- `Route` of the Preble router. -/
def routePreble (s : Server) (env : PrebleEnv κ) (r : Router) (ctx : RoutingContext)
    (pods : List Pod) : PrebleResult :=
  match filterRoutablePods pods with
  | [] => ⟨.returned (.error "no pods to forward request"), ctx, r⟩
  | [pod] =>
    let ctx := ctx.setTargetPod pod
    ⟨ctx.returnAddress, ctx, r⟩
  | readyPods => routeAmong s env r ctx readyPods

/-- A call that returns without error has set one of the routable pods as the target and
returns its address, and no call waits. -/
def PrebleResult.Published (res : PrebleResult) (readyPods : List Pod) : Prop :=
  match res.outcome with
  | .returned (.error _) => True
  | .returned (.ok address) => ∃ pod ∈ readyPods,
      res.ctx.targetPod = some pod ∧ address = pod.podIP ++ ":8000"
  | .blocked => False
  | .panicked => False

variable {ctx : RoutingContext}

lemma setTargetPod_targetPod (h : ctx.targetPod = none) (pod : Pod) :
    (ctx.setTargetPod pod).targetPod = some pod := by
  simp [RoutingContext.setTargetPod, h]

lemma setTargetPod_returnAddress (h : ctx.targetPod = none) (pod : Pod) :
    (ctx.setTargetPod pod).returnAddress = .returned (.ok (pod.podIP ++ ":8000")) := by
  simp [RoutingContext.returnAddress, RoutingContext.targetAddress, setTargetPod_targetPod h]

lemma returnAddress_of_none (h : ctx.targetPod = none) : ctx.returnAddress = .blocked := by
  simp [RoutingContext.returnAddress, RoutingContext.targetAddress, h]

variable {s : Server} {env : PrebleEnv κ} {r : Router} {pods : List Pod}

lemma published_setTargetPod (hctx : ctx.targetPod = none) {readyPods : List Pod} {pod : Pod}
    (hpod : pod ∈ readyPods) (r : Router) : PrebleResult.Published
      ⟨(ctx.setTargetPod pod).returnAddress, ctx.setTargetPod pod, r⟩ readyPods := by
  rw [setTargetPod_returnAddress hctx]
  exact ⟨pod, hpod, setTargetPod_targetPod hctx pod, rfl⟩

lemma routeAmong_published_iff (hctx : ctx.targetPod = none) (readyPods : List Pod) :
    (routeAmong s env r ctx readyPods).Published readyPods ↔ s.tokenize ctx.message ≠ [] := by
  have htokens : (prebleCall s (env.choice none) ctx readyPods).tokens = s.tokenize ctx.message := rfl
  unfold routeAmong
  by_cases ht : s.tokenize ctx.message = []
  · simp [htokens, ht, returnAddress_of_none hctx, PrebleResult.Published]
  · simp only [htokens, ht, if_false, ne_eq, not_false_iff, iff_true]
    split
    · exact trivial
    · rename_i pod hselect
      exact published_setTargetPod hctx (selectTarget_mem hselect) _

/-- **The target is published exactly if** there is one routable pod only or the prompt has
tokens. -/
theorem published_iff (hctx : ctx.targetPod = none) (hpods : filterRoutablePods pods ≠ []) :
    (routePreble s env r ctx pods).Published (filterRoutablePods pods) ↔
      (filterRoutablePods pods).length = 1 ∨ s.tokenize ctx.message ≠ [] := by
  unfold routePreble
  match filterRoutablePods pods, hpods with
  | [pod], _ =>
    have hpublished := published_setTargetPod hctx (List.mem_singleton_self pod) r
    exact ⟨fun _ => Or.inl rfl, fun _ => hpublished⟩
  | pod₁ :: pod₂ :: rest, _ =>
    rw [routeAmong_published_iff hctx]
    simp

/-- Every pod costs the same, and the histogram is empty. -/
def evenEnv : PrebleEnv ℕ where
  insertTimes := fun _ => 0
  queryTimes := fun _ _ => 0
  now := 0
  prefixRoutingThreshold := 50
  histogram := {}
  lt := fun cost minCost => cost < minCost
  maxFloat64 := 1
  podCosts := fun _ => 0
  migrations := []

def freshContext : RoutingContext :=
  { algorithm := "preble", model := "m", message := "hi", requestID := "r" }

theorem published_small :
    (routePreble Small.server evenEnv (Router.new 0 0) freshContext Small.pods).Published
      (filterRoutablePods Small.pods) :=
  (published_iff rfl (by decide)).mpr (Or.inr (by decide))

/-- With two routable pods and a prompt without tokens the call waits for ever. -/
theorem waits_without_tokens : (filterRoutablePods Small.pods).length = 2 ∧
    (routePreble { Small.server with tokenize := fun _ => [] } evenEnv (Router.new 0 0) freshContext
      Small.pods).outcome = .blocked ∧
    ¬ (routePreble { Small.server with tokenize := fun _ => [] } evenEnv (Router.new 0 0) freshContext
      Small.pods).Published (filterRoutablePods Small.pods) :=
  ⟨by decide, rfl, id⟩

end Lodestar.Gateway
