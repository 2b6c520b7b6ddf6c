import Lodestar.Indexer.Runs

/-!
# The Preble router

`Route` of `pkg/plugins/gateway/algorithms/prefix_cache_and_load.go` with the
bookkeeping it does on the prefix tree, and `PrebleOnRequestComplete`.  A routed
request counts as live on every node from the leaf of its prompt to the root,
and is remembered in the map of outstanding requests until it completes.

Which of the ready pods is picked and which nodes the rebalancing migrates is
decided by the load histogram; here both are part of the call (`pick`,
`migrations`), so that statements about all calls cover every decision.
-/

namespace Lodestar.Routing

open Indexer Lodestar.Indexer.LPRadixCache

/-- What `Route` remembers about a request until it completes. -/
structure Outstanding where
  leaf : NodeId
  podIP : String
  deriving DecidableEq

/-- The state of the router: the prefix tree, the outstanding requests by their ID
and the number of pods it was last set up for. -/
structure Router where
  cache : LPRadixCache
  outstanding : AList (fun _ : String => Outstanding)
  numPods : ℕ

/-- One call of `Route`: the request, the ready pods, the readings of the clock and
the decisions taken from the histogram. -/
structure RouteCall where
  requestID : String
  model : String
  tokens : List Token
  readyPods : List String
  /-- The position of the selected pod, if a suitable one is found. -/
  pick : Option ℕ
  /-- The nodes that the rebalancing migrates, with the pod each one goes to. -/
  migrations : List (NodeId × String)
  insertTimes : ℕ → Time
  queryTimes : String → ℕ → Time
  now : Time

/-- How a call of `Route` ends: with an error, with a target, or never. -/
inductive Answer where
  | error (message : String)
  | blocked
  | routed (podIP : String)
  deriving DecidableEq

def RouteCall.target (call : RouteCall) : Option String :=
  call.pick.bind fun i => call.readyPods[i]?

def RouteCall.Inserts (call : RouteCall) : Prop := 2 ≤ call.readyPods.length

/-- The pod that the call attaches the request to in the tree, if it does. -/
def RouteCall.attached (call : RouteCall) : Option String :=
  if 2 ≤ call.readyPods.length ∧ call.tokens ≠ [] then call.target else none

namespace Router

def new (t : Time) (numPods : ℕ) : Router := ⟨LPRadixCache.new t, ∅, numPods⟩

/-- `updatePodSet`, called when the number of ready pods differs from the last one. -/
def updatePodSet (r : Router) (readyPods : List String) : Router :=
  if readyPods.length ≠ r.numPods then
    { r with cache := r.cache.removeDepartedPods readyPods, numPods := readyPods.dedup.length }
  else r

/-- The hit percentages of all ready pods are queried one after the other, on the
same token array. -/
def queryAll (c : LPRadixCache) (call : RouteCall) : LPRadixCache :=
  (call.readyPods.foldl (fun (s : LPRadixCache × List Token) podIP =>
    let r := s.1.matchPrefixWithPod s.2 call.model podIP (call.queryTimes podIP)
    (r.cache, r.array)) (c, call.tokens)).1

/-- The walk from the leaf to the root: the pod is recorded on every node and its
counter is incremented. -/
def attach (c : LPRadixCache) (leaf : NodeId) (model podIP : String) (now : Time) : LPRadixCache :=
  c.modifyAll (c.ancestors leaf) fun _ nd =>
    (nd.addOrUpdatePodForModel model podIP now).incrementRefCounterForPod podIP

/-- The nodes picked by `handleImportantNodeStealing` are re-homed. -/
def migrate (c : LPRadixCache) (call : RouteCall) : LPRadixCache :=
  call.migrations.foldl (fun c m => c.rehome m.1 call.model m.2 call.now) c

def route (r : Router) (call : RouteCall) : Answer × Router :=
  match call.readyPods with
  | [] => (.error "no pods to forward request", r)
  | [podIP] => (.routed podIP, r)
  | _ =>
    let r := r.updatePodSet call.readyPods
    let inserted := r.cache.addPrefix call.tokens call.model "" call.insertTimes fun _ => call.now
    let r := { r with cache := inserted.cache }
    -- without tokens a pod is drawn but not set, and `TargetAddress` waits for it
    if call.tokens = [] then (.blocked, r)
    else
      match call.target with
      | none => (.error "no suitable pod found", r)
      | some podIP =>
        let cache := queryAll r.cache call
        let cache := attach cache inserted.node call.model podIP call.now
        (.routed podIP, { r with
          cache := migrate cache call
          outstanding := r.outstanding.insert call.requestID ⟨inserted.node, podIP⟩ })

def prebleOnRequestComplete (r : Router) (requestID : String) : Router :=
  match r.outstanding.lookup requestID with
  | none => r
  | some st => { r with
      cache := r.cache.modifyAll (r.cache.ancestors st.leaf) fun _ nd =>
        nd.decrementRefCounterForPod st.podIP
      outstanding := r.outstanding.erase requestID }

/-- One event of the router: a call of `Route`, a completion, or a round of the
eviction loop. -/
inductive Event where
  | route (call : RouteCall)
  | complete (requestID : String)
  | evict (now : Time) (order : RangeOrder)

def step (r : Router) : Event → Router
  | .route call => (r.route call).2
  | .complete requestID => r.prebleOnRequestComplete requestID
  | .evict now order => { r with cache := r.cache.evict now order }

def run (r : Router) (es : List Event) : Router := es.foldl step r

/-! ### Edits that leave the counters alone -/

/-- Two trees of the same shape with the same live-request counters. -/
structure SameCounts (c c' : LPRadixCache) : Prop where
  shape : SameShape c c'
  refs : ∀ n, (c'.heap n).refCounterByPod = (c.heap n).refCounterByPod

namespace SameCounts

variable {c c' c'' : LPRadixCache}

lemma refl (c : LPRadixCache) : SameCounts c c := ⟨.refl c, fun _ => rfl⟩

lemma trans (h : SameCounts c c') (h' : SameCounts c' c'') : SameCounts c c'' :=
  ⟨h.shape.trans h'.shape, fun n => (h'.refs n).trans (h.refs n)⟩

lemma of_withoutPods (h : Same TreeNode.withoutPods c c') : SameCounts c c' := by
  refine ⟨.of_withoutPods h, fun n => ?_⟩
  show (c'.heap n).withoutPods.refCounterByPod = (c.heap n).withoutPods.refCounterByPod
  rw [h.heap]

lemma of_visited (h : OnlyVisited c c') : SameCounts c c' := ⟨h.sameShape, h.refCounterByPod⟩

lemma updatePodSet (r : Router) (readyPods : List String) :
    SameCounts r.cache (r.updatePodSet readyPods).cache := by
  unfold Router.updatePodSet
  split
  · exact of_withoutPods (.removeDepartedPods _ _)
  · exact refl _

lemma migrate (c : LPRadixCache) (call : RouteCall) : SameCounts c (Router.migrate c call) := by
  unfold Router.migrate
  generalize call.migrations = migrations
  induction migrations generalizing c with
  | nil => exact refl c
  | cons m migrations ih =>
    exact (of_withoutPods (.rehome call.model m.2 call.now c m.1)).trans (ih _)

lemma queryAll {path : NodeId → List Token} (hw : WF c path) (call : RouteCall) :
    SameCounts c (Router.queryAll c call) := by
  unfold Router.queryAll
  generalize call.tokens = array
  generalize call.readyPods = pods
  induction pods generalizing c array with
  | nil => exact refl c
  | cons podIP pods ih =>
    have hv := (matchPrefixWithPod_spec hw array call.model podIP (call.queryTimes podIP)).visited
    exact (of_visited hv).trans (ih (hv.sameShape.wf hw) _)

end SameCounts

lemma attach_sameShape {leaf : NodeId} {model podIP : String} {now : Time} (c : LPRadixCache) :
    SameShape c (attach c leaf model podIP now) :=
  Same.modifyAll (fun _ _ => by rfl) _ _

/-! ### The cases of a call -/

section

variable (r : Router) {call : RouteCall}

def inserted (call : RouteCall) : Inserted :=
  (r.updatePodSet call.readyPods).cache.insert call.tokens call.insertTimes

lemma route_short (h : ¬ call.Inserts) : (r.route call).2 = r := by
  unfold route
  match hp : call.readyPods with
  | [] => rfl
  | [_] => rfl
  | _ :: _ :: _ => exact absurd (by simp [RouteCall.Inserts, hp]) h

lemma route_unattached (h : call.Inserts) (ha : call.attached = none) : (r.route call).2 =
      { r.updatePodSet call.readyPods with cache := (r.inserted call).cache } := by
  have h' : 2 ≤ call.readyPods.length := h
  unfold route
  match hp : call.readyPods with
  | [] => simp [hp] at h'
  | [_] => simp [hp] at h'
  | a :: b :: pods =>
    by_cases ht : call.tokens = []
    · rw [if_pos ht, addPrefix_empty, inserted, hp]
    · have hnone : call.target = none := by simpa [RouteCall.attached, h', ht] using ha
      rw [if_neg ht, hnone, addPrefix_empty, inserted, hp]

lemma route_attached {podIP : String} (ha : call.attached = some podIP) :
    (r.route call).2 = { r.updatePodSet call.readyPods with
      cache := migrate (attach (queryAll (r.inserted call).cache call) (r.inserted call).node
        call.model podIP call.now) call
      outstanding := r.outstanding.insert call.requestID ⟨(r.inserted call).node, podIP⟩ } := by
  unfold RouteCall.attached at ha
  split at ha
  · rename_i h
    unfold route
    match hp : call.readyPods with
    | [] => simp [hp] at h
    | [_] => simp [hp] at h
    | a :: b :: pods =>
      rw [if_neg h.2, ha, inserted, hp]
      simp only [updatePodSet]
      split <;> rfl
  · simp at ha

end
end Router
end Lodestar.Routing
