import Lodestar.Routing.Preble

/-!
# The record of one outstanding request

Between routing and completion a request has a record: its leaf and its pod.  Only the
routing of the request itself sets the record, and only its completion removes it
(`lookup_route`, `lookup_complete`).  The nodes that were above the leaf when the request
was routed stay above it: insertions only add nodes to the chain, and an eviction that
spares the leaf spares all nodes above it (`Covers`).  So the completion decrements the
counter of the pod on every node that the routing incremented it on
(`heap_prebleOnRequestComplete`).
-/

namespace Lodestar.Routing

open Indexer Lodestar.Indexer.LPRadixCache

namespace Router

variable {r : Router} {path : NodeId → List Token} {call : RouteCall}

lemma lookup_route (r : Router) (call : RouteCall) (id : String) :
    (r.route call).2.outstanding.lookup id = if call.requestID = id then
      (call.attached.map fun podIP => (⟨(r.inserted call).node, podIP⟩ : Outstanding)).or
        (r.outstanding.lookup id) else r.outstanding.lookup id := by
  by_cases hins : call.Inserts
  · cases ha : call.attached with
    | none =>
      rw [route_unattached r hins ha]
      simp only [updatePodSet]
      split <;> simp
    | some podIP =>
      rw [route_attached r ha]
      by_cases hid : call.requestID = id
      · subst hid
        simp
      · simp [hid, AList.lookup_insert_ne (Ne.symm hid)]
  · have ha : call.attached = none := by
      rw [RouteCall.attached, if_neg fun h => hins h.1]
    rw [route_short r hins, ha]
    simp

lemma lookup_complete (r : Router) (requestID id : String) :
    (r.prebleOnRequestComplete requestID).outstanding.lookup id =
      if requestID = id then none else r.outstanding.lookup id := by
  unfold prebleOnRequestComplete
  by_cases hid : requestID = id
  · subst hid
    rw [if_pos rfl]
    cases h : r.outstanding.lookup requestID with
    | none => exact h
    | some st => simp
  · rw [if_neg hid]
    cases h : r.outstanding.lookup requestID with
    | none => rfl
    | some st => simp [AList.lookup_erase_ne (Ne.symm hid)]

lemma wf_route (hw : WF r.cache path) (call : RouteCall) :
    ∃ path', WF (r.route call).2.cache path' ∧
      (∀ n ∈ r.cache.allNodes, n ∈ (r.route call).2.cache.allNodes ∧ path' n = path n) ∧
      (call.attached.isSome = true → (r.inserted call).node ∈ (r.route call).2.cache.allNodes) := by
  by_cases hins : call.Inserts
  · have hup := (SameCounts.updatePodSet r call.readyPods).shape
    obtain ⟨path', hw', hg, hleaf, -⟩ := insert_spec (hup.wf hw) call.tokens call.insertTimes
    have hold : ∀ n ∈ r.cache.allNodes, n ∈ (r.inserted call).cache.allNodes ∧ path' n = path n :=
      fun n hn => ⟨hg.mem n (hup.allNodes ▸ hn), hg.path_eq n (hup.allNodes ▸ hn)⟩
    cases ha : call.attached with
    | none =>
      rw [route_unattached r hins ha]
      exact ⟨path', hw', hold, by simp⟩
    | some podIP =>
      rw [route_attached r ha]
      have hq := (SameCounts.queryAll hw' call).shape
      have hsame : SameShape (r.inserted call).cache (migrate (attach (queryAll
          (r.inserted call).cache call) (r.inserted call).node call.model podIP call.now) call) :=
        (hq.trans (attach_sameShape _)).trans (SameCounts.migrate _ call).shape
      refine ⟨path', hsame.wf hw', fun n hn => ?_, fun _ => ?_⟩
      · exact ⟨hsame.allNodes ▸ (hold n hn).1, (hold n hn).2⟩
      · exact hsame.allNodes ▸ hleaf
  · rw [route_short r hins]
    refine ⟨path, hw, fun n hn => ⟨hn, rfl⟩, fun ha => ?_⟩
    rw [RouteCall.attached, if_neg fun h => hins h.1] at ha
    simp at ha

lemma sameShape_complete (r : Router) (requestID : String) :
    SameShape r.cache (r.prebleOnRequestComplete requestID).cache := by
  unfold prebleOnRequestComplete
  split
  · exact .refl _
  · exact Same.modifyAll (fun _ nd => nd.shape_decrementRefCounterForPod _) _ _

/-! ### The chain -/

/-- The tree is well formed, and the nodes of `chain` are above the leaf. -/
structure Covers (r : Router) (leaf : NodeId) (chain : List NodeId) : Prop where
  wf : ∃ path, WF r.cache path
  leaf_mem : leaf ∈ r.cache.allNodes
  above : ∀ n ∈ chain, n ∈ r.cache.ancestors leaf

variable {leaf : NodeId} {chain : List NodeId}

lemma Covers.of_kept {r' : Router} {path' : NodeId → List Token} (hw : WF r.cache path)
    (hw' : WF r'.cache path') (hleaf : leaf ∈ r.cache.allNodes)
    (habove : ∀ n ∈ chain, n ∈ r.cache.ancestors leaf)
    (hkept : ∀ n ∈ r.cache.allNodes, path n <+: path leaf →
      n ∈ r'.cache.allNodes ∧ path' n = path n) : Covers r' leaf chain := by
  obtain ⟨hleaf', hpath'⟩ := hkept leaf hleaf (List.prefix_refl _)
  refine ⟨⟨path', hw'⟩, hleaf', fun n hn => ?_⟩
  obtain ⟨hmem, hpre⟩ := (hw.mem_ancestors_iff hleaf n).mp (habove n hn)
  obtain ⟨hmem', hpath⟩ := hkept n hmem hpre
  exact (hw'.mem_ancestors_iff hleaf' n).mpr ⟨hmem', by rw [hpath, hpath']; exact hpre⟩

lemma Covers.route (h : Covers r leaf chain) (call : RouteCall) :
    Covers (r.route call).2 leaf chain := by
  obtain ⟨path, hw⟩ := h.wf
  obtain ⟨path', hw', hkept, -⟩ := wf_route hw call
  exact .of_kept hw hw' h.leaf_mem h.above fun n hn _ => hkept n hn

lemma Covers.complete (h : Covers r leaf chain) (requestID : String) :
    Covers (r.prebleOnRequestComplete requestID) leaf chain := by
  obtain ⟨path, hw⟩ := h.wf
  have hs := r.sameShape_complete requestID
  exact .of_kept hw (hs.wf hw) h.leaf_mem h.above fun n hn _ => ⟨hs.allNodes ▸ hn, rfl⟩

lemma Covers.evict (h : Covers r leaf chain) {now : Time} {order : RangeOrder}
    (hleaf : leaf ∉ r.cache.nodesToEvict now order) :
    Covers { r with cache := r.cache.evict now order } leaf chain := by
  obtain ⟨path, hw⟩ := h.wf
  refine .of_kept hw (evict_wf hw now order) h.leaf_mem h.above fun n hn hpre => ⟨?_, rfl⟩
  refine (mem_allNodes_evict hw now order n).mpr ⟨hn, fun hd => hleaf ?_⟩
  obtain ⟨-, stale, hst, hpre'⟩ := hd
  exact (hw.mem_nodesToEvict leaf).mpr ⟨h.leaf_mem, stale, hst, hpre'.trans hpre⟩

lemma covers_route (hw : WF r.cache path) (ha : call.attached.isSome = true) :
    Covers (r.route call).2 (r.inserted call).node
      ((r.route call).2.cache.ancestors (r.inserted call).node) := by
  obtain ⟨path', hw', -, hleaf⟩ := wf_route hw call
  exact ⟨⟨path', hw'⟩, hleaf ha, fun n hn => hn⟩

/-- **The completion** of a request with a record takes it off the counter of its pod, once
on every node above its leaf and nowhere else. -/
lemma heap_prebleOnRequestComplete {id : String} {st : Outstanding}
    (hst : r.outstanding.lookup id = some st) (h : Covers r st.leaf chain) (n : NodeId) :
    (r.prebleOnRequestComplete id).cache.heap n = if n ∈ r.cache.ancestors st.leaf then
      (r.cache.heap n).decrementRefCounterForPod st.podIP else r.cache.heap n := by
  obtain ⟨path, hw⟩ := h.wf
  unfold prebleOnRequestComplete
  simp only [hst]
  rw [heap_modifyAll _ _ _ (hw.nodup_ancestors h.leaf_mem)]

end Router
end Lodestar.Routing
