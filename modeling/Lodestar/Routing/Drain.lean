import Lodestar.Routing.LiveCounts
import Lodestar.Routing.Outstanding

/-!
# The counters once all requests have completed

The counters of live requests need not be exact, because a split starts its upper half
without counters.  But a counter is never more than the number of outstanding requests it
stands for (`Bounded`): an insertion adds nodes with no counts, routing adds one on both
sides, and a completion takes one off on both sides and stops at 0.  So when all requests
have completed, no node has a count left.

Eviction breaks this.  It cuts the link of an evicted node to its parent, so the completion
of a request whose leaf was evicted does not reach the nodes above, and the root, which is
never evicted, keeps its count for ever.  A request that is routed under an ID that is still
outstanding loses the record of the other one.  `refCounters_run_drained` says that these
two are all that can go wrong.
-/

namespace Lodestar.Routing

open Lib Lodestar.Indexer Lodestar.Indexer.LPRadixCache

namespace Router

/-- No counter is more than the number of outstanding requests at its node. -/
def Bounded (r : Router) : Prop :=
  ∀ n ∈ r.cache.allNodes, ∀ podIP,
    (r.cache.heap n).getRefCounterForPod podIP ≤ r.outstandingAt n podIP

/-- What has to hold before an event for all requests to be released in the end: a request
is not routed under the ID of an outstanding one, and no eviction takes the leaf of an
outstanding one. -/
def ReleasesAll (r : Router) : Event → Prop
  | .route call => call.attached.isSome = true → call.requestID ∉ r.outstanding
  | .complete _ => True
  | .evict now order => ∀ e ∈ r.outstanding.entries, e.2.leaf ∉ r.cache.nodesToEvict now order

instance (r : Router) : ∀ e, Decidable (r.ReleasesAll e)
  | .route _ => by unfold ReleasesAll; infer_instance
  | .complete _ => isTrue trivial
  | .evict _ _ => by unfold ReleasesAll; infer_instance

/-! ### The parts of an event -/

variable {r r' : Router} {path path' : NodeId → List Token}

lemma shifts_le : Shifts (· ≤ ·) := ⟨by omega, by omega⟩

lemma Bounded.grows {S : NodeId → Prop} (hb : r.Bounded) (h : Registered r path)
    (hg : Grows S r.cache r'.cache path path') (ho : r'.outstanding = r.outstanding)
    (hw' : WF r'.cache path') : r'.Bounded := by
  refine (h.grows hg ho hw').related_iff.mpr fun n hn podIP => ?_
  rw [h.countAt_grows hg ho]
  by_cases hold : n ∈ r.cache.allNodes
  · rw [TreeNode.getRefCounterForPod, hg.refs_eq n hold, hg.path_eq n hold]
    exact h.related_iff.mp hb n hold podIP
  · simp [TreeNode.getRefCounterForPod, hg.new_refs n hn hold]

lemma Registered.evict (h : Registered r path) {now : Time} {order : RangeOrder}
    (hok : r.ReleasesAll (.evict now order)) : Registered (r.step (.evict now order)) path := by
  refine ⟨evict_wf h.wf now order, fun e he => ?_⟩
  refine (mem_allNodes_evict h.wf now order e.2.leaf).mpr ⟨h.leaf_mem e he, fun hd => hok e he ?_⟩
  exact (h.wf.mem_nodesToEvict e.2.leaf).mpr hd

lemma Bounded.evict (hb : r.Bounded) (h : Registered r path) {now : Time} {order : RangeOrder}
    (hok : r.ReleasesAll (.evict now order)) : (r.step (.evict now order)).Bounded := by
  refine (h.evict hok).related_iff.mpr fun n hn podIP => ?_
  have hold := ((mem_allNodes_evict h.wf now order n).mp hn).1
  have hrefs : ((r.step (.evict now order)).cache.heap n).refCounterByPod =
      (r.cache.heap n).refCounterByPod := congrArg Prod.fst (persistent_evict r.cache now order n)
  rw [TreeNode.getRefCounterForPod, hrefs]
  exact h.related_iff.mp hb n hold podIP

/-! ### Events and runs -/

variable {r : Router} {path : NodeId → List Token}

lemma Bounded.route (hb : r.Bounded) (h : Registered r path) {call : RouteCall}
    (hok : r.ReleasesAll (.route call)) :
    ∃ path', Registered (r.route call).2 path' ∧ (r.route call).2.Bounded := by
  by_cases hins : call.Inserts
  swap
  · rw [route_short r hins]
    exact ⟨path, h, hb⟩
  obtain ⟨h₀, path', hg, hw', hleaf⟩ := h.prepared call
  have hb₀ : (r.updatePodSet call.readyPods).Bounded :=
    (h.of_sameCounts (.updatePodSet r call.readyPods) (r.outstanding_prepared call)).2.mpr hb
  have h₁ : Registered (r.prepared call) path' := h₀.grows hg rfl hw'
  have hb₁ : (r.prepared call).Bounded := hb₀.grows h₀ hg rfl hw'
  cases ha : call.attached with
  | none =>
    rw [route_unattached r hins ha]
    exact ⟨path', h₁, hb₁⟩
  | some podIP =>
    obtain ⟨h₂, hfresh, -⟩ := h₁.routed hleaf ha
    exact ⟨path', h₂, (hfresh (hok (by rw [ha]; rfl)) _ shifts_le).mpr hb₁⟩

lemma Bounded.step (h : ∃ path, Registered r path ∧ r.Bounded) {e : Event}
    (hok : r.ReleasesAll e) : ∃ path, Registered (r.step e) path ∧ (r.step e).Bounded := by
  obtain ⟨path, h, hb⟩ := h
  cases e with
  | route call => exact hb.route h hok
  | complete requestID =>
    exact ⟨path, (h.complete requestID).1, (h.complete requestID).2 _ shifts_le hb⟩
  | evict now order => exact ⟨path, h.evict hok, hb.evict h hok⟩

def Event.completes (id : String) : Event → Bool
  | .complete requestID => requestID = id
  | _ => false

def AllCompleted : List Event → Prop
  | [] => True
  | .route call :: es =>
    (call.attached.isSome = true → es.any (Event.completes call.requestID) = true) ∧ AllCompleted es
  | _ :: es => AllCompleted es

instance AllCompleted.decidable : ∀ es, Decidable (AllCompleted es)
  | [] => isTrue trivial
  | .route _ :: es => @instDecidableAnd _ _ inferInstance (AllCompleted.decidable es)
  | .complete _ :: es => AllCompleted.decidable es
  | .evict _ _ :: es => AllCompleted.decidable es

lemma AllCompleted.completes {es₁ es₂ : List Event} {call : RouteCall}
    (h : AllCompleted (es₁ ++ .route call :: es₂)) (ha : call.attached.isSome = true) :
    es₂.any (Event.completes call.requestID) = true := by
  induction es₁ with
  | nil => exact h.1 ha
  | cons e es₁ ih =>
    cases e with
    | route call' => exact ih h.2
    | complete | evict => exact ih h

lemma routed_of_lookup (t : Time) (numPods : ℕ) {id : String} {st : Outstanding}
    {es : List Event} (h : ((new t numPods).run es).outstanding.lookup id = some st) :
    ∃ es₁ call es₂, es = es₁ ++ .route call :: es₂ ∧ call.attached.isSome = true ∧
      call.requestID = id ∧ es₂.any (Event.completes id) = false := by
  induction es using List.reverseRecOn generalizing st with
  | nil => simp [run, new] at h
  | append_singleton es e ih =>
    have hrun : (new t numPods).run (es ++ [e]) = ((new t numPods).run es).step e := by
      simp [run]
    rw [hrun] at h
    -- an event that keeps the record
    have hkept : ((new t numPods).run es).outstanding.lookup id = some st → e.completes id = false →
        ∃ es₁ call es₂, es ++ [e] = es₁ ++ .route call :: es₂ ∧ call.attached.isSome = true ∧
          call.requestID = id ∧ es₂.any (Event.completes id) = false := by
      intro hold hne
      obtain ⟨es₁, call, es₂, rfl, ha, hid, hnot⟩ := ih hold
      exact ⟨es₁, call, es₂ ++ [e], by simp, ha, hid, by rw [List.any_append, hnot]; simp [hne]⟩
    cases e with
    | route call =>
      rw [step, lookup_route] at h
      split at h
      · rename_i hid
        cases ha : call.attached with
        | none =>
          rw [ha] at h
          exact hkept (by simpa using h) rfl
        | some podIP => exact ⟨es, call, [], rfl, by rw [ha]; rfl, hid, rfl⟩
      · exact hkept h rfl
    | complete requestID =>
      rw [step, lookup_complete] at h
      split at h
      · simp at h
      · rename_i hne
        exact hkept h (by simpa [Event.completes] using hne)
    | evict now order => exact hkept h rfl

/-- **Once every routed request has completed, no node has a count left**, if no request is
routed under the ID of an outstanding one and no eviction takes the leaf of an outstanding
one. -/
theorem refCounters_run_drained (t : Time) (numPods : ℕ) (es : List Event)
    (hok : Along step ReleasesAll (new t numPods) es) (hdone : AllCompleted es) :
    let r := (new t numPods).run es
    ∀ n ∈ r.cache.allNodes, ∀ podIP, (r.cache.heap n).getRefCounterForPod podIP = 0 := by
  intro r n hn podIP
  have hstart : ∃ path, Registered (new t numPods) path ∧ (new t numPods).Bounded := by
    refine ⟨_, Registered.new t numPods, fun n hn podIP => ?_⟩
    exact (liveCounts_new t numPods n hn podIP).le
  have hinv : ∃ path, Registered r path ∧ r.Bounded :=
    hok.invariant hstart fun _ _ h hok => Bounded.step h hok
  obtain ⟨path, -, hb⟩ := hinv
  have hempty : r.outstanding.entries = [] := by
    refine List.eq_nil_iff_forall_not_mem.mpr fun e he => ?_
    obtain ⟨es₁, call, es₂, heq, ha, hid, hnot⟩ :=
      routed_of_lookup t numPods (AList.mem_lookup_iff.mpr he)
    have hcompletes := (heq ▸ hdone : AllCompleted (es₁ ++ .route call :: es₂)).completes ha
    rw [hid, hnot] at hcompletes
    simp at hcompletes
  have hle := hb n hn podIP
  rw [outstandingAt, hempty] at hle
  exact Nat.le_zero.mp hle

/-- The leaf of a request is evicted while the request is outstanding: its completion does
not reach the root. -/
theorem refCounters_run_left :
    let r := (new 0 2).run [.route (twoPodCall "a" [1, 2, 3] 0),
      .evict (evictionDuration + 1) RangeOrder.listed, .complete "a"]
    r.outstanding.entries = [] ∧ r.cache.rootNode ∈ r.cache.allNodes ∧
      (r.cache.heap r.cache.rootNode).getRefCounterForPod "p" = 1 := by
  decide +kernel

/-- A split below a live request, an eviction that takes nothing, and both completions. -/
theorem refCounters_run_split :
    let es := [.route (twoPodCall "a" [1, 2, 3] 0), .route (twoPodCall "b" [1, 2, 4] 0),
      .evict 1 RangeOrder.listed, .complete "a", .complete "b"]
    ∀ n ∈ ((new 0 2).run es).cache.allNodes, ∀ podIP,
      (((new 0 2).run es).cache.heap n).getRefCounterForPod podIP = 0 := by
  intro es
  exact refCounters_run_drained 0 2 es (by decide +kernel) (by decide +kernel)

end Router
end Lodestar.Routing
