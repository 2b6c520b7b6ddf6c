import Lodestar.Lib.AssocCount
import Lodestar.Routing.Preble

/-!
# The live-request counters of the prefix tree

Every routed request should count, on each node from its leaf to the root, as one
live request of its pod (`LiveCounts`).  A completion always keeps this.  A call
of `Route` keeps it in two cases only (`KeepsCounts`): the request ID is not that
of a request still outstanding, and the insertion of the prompt does not split a
node with live requests, because the new upper half starts without counters.
-/

namespace Lodestar.Routing

open Lib Lodestar.Indexer Lodestar.Indexer.LPRadixCache List

namespace Router

/-- The number of outstanding requests to the pod whose leaf is `n` or below it. -/
def outstandingAt (r : Router) (n : NodeId) (podIP : String) : ℕ :=
  r.outstanding.entries.countP fun e => e.2.podIP = podIP ∧ n ∈ r.cache.ancestors e.2.leaf

/-- **The counters are exact**: each one is the number of outstanding requests. -/
def LiveCounts (r : Router) : Prop :=
  ∀ n ∈ r.cache.allNodes, ∀ podIP,
    (r.cache.heap n).getRefCounterForPod podIP = r.outstandingAt n podIP

/-- What has to hold before an event for it to keep the counters exact. -/
def KeepsCounts (r : Router) : Event → Prop
  | .route call => call.Inserts → (call.attached.isSome → call.requestID ∉ r.outstanding) ∧
      ∀ n, r.cache.Splits call.tokens n → ∀ podIP, (r.cache.heap n).getRefCounterForPod podIP = 0
  | .complete _ => True
  | .evict _ _ => False

/-- The tree is well formed and holds the leaves of all outstanding requests. -/
structure Registered (r : Router) (path : NodeId → List Token) : Prop where
  wf : WF r.cache path
  leaf_mem : ∀ e ∈ r.outstanding.entries, e.2.leaf ∈ r.cache.allNodes

/-- Each counter and the number of outstanding requests that it stands for are related by `R`. -/
def Related (R : ℕ → ℕ → Prop) (r : Router) : Prop :=
  ∀ n ∈ r.cache.allNodes, ∀ podIP,
    R ((r.cache.heap n).getRefCounterForPod podIP) (r.outstandingAt n podIP)

/-- A relation that is kept when both sides change by the same number. -/
structure Shifts (R : ℕ → ℕ → Prop) : Prop where
  add_iff : ∀ a b k, R (a + k) (b + k) ↔ R a b
  sub : ∀ a b k, R a (b + k) → R (a - k) b

lemma shifts_eq : Shifts (· = ·) := ⟨by omega, by omega⟩

variable {r r' : Router} {path path' : NodeId → List Token}

variable {R : ℕ → ℕ → Prop}

/-- The number of outstanding requests at a node, in terms of paths. -/
def countAt (r : Router) (path : NodeId → List Token) (p : List Token) (podIP : String) : ℕ :=
  r.outstanding.entries.countP fun e => e.2.podIP = podIP ∧ p <+: path e.2.leaf

lemma Registered.related_iff (h : Registered r path) : r.Related R ↔
    ∀ n ∈ r.cache.allNodes, ∀ podIP,
      R ((r.cache.heap n).getRefCounterForPod podIP) (r.countAt path (path n) podIP) := by
  refine forall₂_congr fun n hn => forall_congr' fun podIP => ?_
  have hcount : r.outstandingAt n podIP = r.countAt path (path n) podIP := by
    refine countP_congr fun e he => ?_
    simp [h.wf.mem_ancestors_iff (h.leaf_mem e he), hn]
  rw [hcount]

lemma Registered.of_sameCounts {r' : Router} (h : Registered r path)
    (hc : SameCounts r.cache r'.cache) (ho : r'.outstanding = r.outstanding) :
    Registered r' path ∧ (r'.Related R ↔ r.Related R) := by
  have hr : Registered r' path :=
    ⟨hc.shape.wf h.wf, fun e he => hc.shape.allNodes ▸ h.leaf_mem e (ho ▸ he)⟩
  refine ⟨hr, ?_⟩
  rw [hr.related_iff, h.related_iff]
  simp [hc.shape.allNodes, TreeNode.getRefCounterForPod, hc.refs, countAt, ho]

/-! ### The insertion -/

section

variable {S : NodeId → Prop} (h : Registered r path) (hg : Grows S r.cache r'.cache path path')
  (ho : r'.outstanding = r.outstanding)
include h hg ho

lemma Registered.grows (hw' : WF r'.cache path') : Registered r' path' :=
  ⟨hw', fun e he => hg.mem _ (h.leaf_mem e (ho ▸ he))⟩

lemma Registered.countAt_grows (p : List Token) (podIP : String) :
    r'.countAt path' p podIP = r.countAt path p podIP := by
  unfold countAt
  rw [ho]
  refine countP_congr fun e he => ?_
  simp [hg.path_eq _ (h.leaf_mem e he)]

/-- **An insertion keeps the counters exact** exactly when no split node has live
requests. -/
lemma liveCounts_insert_iff (hw' : WF r'.cache path') (hl : r.LiveCounts) :
    r'.LiveCounts ↔ ∀ n, S n → ∀ podIP, (r.cache.heap n).getRefCounterForPod podIP = 0 := by
  replace hl := h.related_iff.mp hl
  refine (h.grows hg ho hw').related_iff.trans ?_
  -- the requests at the upper half of a split node are those of the split node
  have hsplit : ∀ ch x, NewSplit r.cache r'.cache path path' ch x → ∀ podIP,
      r.countAt path (path' x) podIP = r.countAt path (path ch) podIP := by
    rintro ch x ⟨_, hpre, _, hbelow⟩ podIP
    refine countP_congr fun e he => ?_
    simp only [decide_eq_true_eq]
    exact and_congr_right fun _ => ⟨hbelow _ (h.leaf_mem e he), fun hch => hpre.trans hch⟩
  have hnew : ∀ x ∈ r'.cache.allNodes, x ∉ r.cache.allNodes → ∀ podIP,
      (r'.cache.heap x).getRefCounterForPod podIP = 0 := by
    intro x hx hxc podIP
    simp [TreeNode.getRefCounterForPod, hg.new_refs x hx hxc]
  constructor
  · intro hl' ch hS podIP
    obtain ⟨x, hx, hxc, hs⟩ := hg.splits ch hS
    have hx0 := hl' x hx podIP
    rw [hnew x hx hxc, h.countAt_grows hg ho, hsplit ch x hs, ← hl ch hs.1] at hx0
    exact hx0.symm
  · intro hzero n hn podIP
    rw [h.countAt_grows hg ho]
    by_cases hold : n ∈ r.cache.allNodes
    · rw [TreeNode.getRefCounterForPod, hg.refs_eq n hold, hg.path_eq n hold]
      exact hl n hold podIP
    · rw [hnew n hn hold]
      rcases hg.new n hn hold with ⟨_, hleaf⟩ | ⟨ch, hS, hs⟩
      · refine (countP_eq_zero.mpr fun e he => ?_).symm
        simp only [decide_eq_true_eq, not_and]
        exact fun _ => hleaf _ (h.leaf_mem e he)
      · rw [hsplit ch n hs, ← hl ch hs.1, hzero ch hS]

lemma root_counts_insert (hl : r.LiveCounts) (podIP : String) :
    (r'.cache.heap r'.cache.rootNode).getRefCounterForPod podIP = r'.countAt path' [] podIP := by
  have hroot := h.wf.root_mem
  rw [hg.root, TreeNode.getRefCounterForPod, hg.refs_eq _ hroot, h.countAt_grows hg ho]
  have := (h.related_iff.mp hl) _ hroot podIP
  rw [h.wf.path_root] at this
  exact this

end

/-! ### The walk that attaches a request -/

section

variable {requestID model podIP : String} {leaf : NodeId} {now : Time}

lemma getRefCounterForPod_attach {c : LPRadixCache} (hw : WF c path) (hleaf : leaf ∈ c.allNodes)
    {n : NodeId} (hn : n ∈ c.allNodes) (q : String) :
    ((attach c leaf model podIP now).heap n).getRefCounterForPod q =
      (c.heap n).getRefCounterForPod q + if podIP = q ∧ path n <+: path leaf then 1 else 0 := by
  rw [attach, heap_modifyAll _ _ _ (hw.nodup_ancestors hleaf)]
  have hanc := hw.mem_ancestors_iff hleaf n
  by_cases hpre : path n <+: path leaf
  · rw [if_pos (hanc.mpr ⟨hn, hpre⟩), TreeNode.getRefCounterForPod_increment]
    simp only [hpre, and_true, eq_comm]
    rfl
  · rw [if_neg fun hm => hpre (hanc.mp hm).2]
    simp [hpre]

lemma countAt_insert (path : NodeId → List Token) (p : List Token) (q : String)
    (ho : r'.outstanding = r.outstanding.insert requestID ⟨leaf, podIP⟩) :
    r'.countAt path p q = countAt { r with outstanding := r.outstanding.erase requestID } path p q +
        if podIP = q ∧ p <+: path leaf then 1 else 0 := by
  rw [countAt, ho, countP_insert]
  simp [countAt]

variable (h : Registered r path) (hleaf : leaf ∈ r.cache.allNodes)
  (hc : r'.cache = attach r.cache leaf model podIP now)
  (ho : r'.outstanding = r.outstanding.insert requestID ⟨leaf, podIP⟩)
include h hleaf hc ho

lemma Registered.attach : Registered r' path := by
  have hs : SameShape r.cache r'.cache := hc ▸ attach_sameShape r.cache
  refine ⟨hs.wf h.wf, fun e he => ?_⟩
  rw [hs.allNodes]
  rw [ho] at he
  rcases mem_cons.mp he with rfl | he
  · exact hleaf
  · exact h.leaf_mem e ((kerase_sublist _ _).subset he)

lemma related_attach_iff {R : ℕ → ℕ → Prop} (hR : Shifts R) (hid : requestID ∉ r.outstanding) :
    r'.Related R ↔ r.Related R := by
  have hs : SameShape r.cache r'.cache := hc ▸ attach_sameShape r.cache
  rw [(h.attach hleaf hc ho).related_iff, h.related_iff, hs.allNodes]
  refine forall₂_congr fun n hn => forall_congr' fun q => ?_
  rw [hc, getRefCounterForPod_attach h.wf hleaf hn, countAt_insert path _ q ho, countAt,
    countP_erase_of_notMem _ hid]
  exact hR.add_iff _ _ _

lemma not_liveCounts_attach (hroot : ∀ q, (r.cache.heap r.cache.rootNode).getRefCounterForPod q =
    r.countAt path [] q) (hid : requestID ∈ r.outstanding) : ¬ r'.LiveCounts := by
  have hs : SameShape r.cache r'.cache := hc ▸ attach_sameShape r.cache
  obtain ⟨st, hst⟩ := Option.isSome_iff_exists.mp (AList.lookup_isSome.mpr hid)
  intro hl
  have hr := (h.attach hleaf hc ho).related_iff.mp hl _ (hs.allNodes ▸ h.wf.root_mem) st.podIP
  rw [hc, getRefCounterForPod_attach h.wf hleaf h.wf.root_mem, countAt_insert path _ _ ho,
    Nat.add_right_cancel_iff, hroot, h.wf.path_root] at hr
  have := countP_erase_add (fun e : Sigma fun _ => Outstanding =>
    e.2.podIP = st.podIP ∧ ([] : List Token) <+: path e.2.leaf) hst
  rw [if_pos (by simp)] at this
  simp only [countAt] at hr
  omega

end

/-! ### One event -/

/-- **A completion keeps the counters exact**, and any relation that may shift. -/
lemma Registered.complete (h : Registered r path) (requestID : String) :
    Registered (r.prebleOnRequestComplete requestID) path ∧ ∀ R, Shifts R → r.Related R →
      (r.prebleOnRequestComplete requestID).Related R := by
  unfold prebleOnRequestComplete
  cases hst : r.outstanding.lookup requestID with
  | none => exact ⟨h, fun _ _ => id⟩
  | some st =>
    have hmem : (⟨requestID, st⟩ : Sigma fun _ => Outstanding) ∈ r.outstanding.entries :=
      AList.mem_lookup_iff.mp hst
    have hleaf := h.leaf_mem _ hmem
    have hs : SameShape r.cache (r.cache.modifyAll (r.cache.ancestors st.leaf) fun _ nd =>
        nd.decrementRefCounterForPod st.podIP) :=
      Same.modifyAll (fun _ nd => nd.shape_decrementRefCounterForPod st.podIP) _ _
    have hr : Registered { r with
        cache := r.cache.modifyAll (r.cache.ancestors st.leaf) fun _ nd =>
          nd.decrementRefCounterForPod st.podIP
        outstanding := r.outstanding.erase requestID } path :=
      ⟨hs.wf h.wf, fun e he => by
        rw [hs.allNodes]
        exact h.leaf_mem e ((kerase_sublist _ _).subset he)⟩
    refine ⟨hr, fun R hR hl => ?_⟩
    rw [h.related_iff] at hl
    rw [hr.related_iff]
    intro n hn q
    rw [hs.allNodes] at hn
    have hanc := h.wf.mem_ancestors_iff hleaf n
    have hl := hl n hn q
    rw [countAt, ← countP_erase_add _ hst] at hl
    simp only [countAt]
    rw [heap_modifyAll _ _ _ (h.wf.nodup_ancestors hleaf)]
    by_cases hpre : path n <+: path st.leaf
    · rw [if_pos (hanc.mpr ⟨hn, hpre⟩), TreeNode.getRefCounterForPod_decrement]
      refine hR.sub _ _ _ ?_
      simpa only [hpre, and_true, decide_eq_true_eq, @eq_comm _ st.podIP] using hl
    · rw [if_neg fun hm => hpre (hanc.mp hm).2]
      simpa only [hpre, and_false, decide_false, Bool.false_eq_true, if_false, add_zero] using hl

/-- The router once the pod set is updated and the prompt of a call is inserted. -/
def prepared (r : Router) (call : RouteCall) : Router :=
  { r.updatePodSet call.readyPods with cache := (r.inserted call).cache }

lemma outstanding_prepared (r : Router) (call : RouteCall) :
    (r.prepared call).outstanding = r.outstanding := by
  simp only [prepared, updatePodSet]
  split <;> rfl

lemma Registered.prepared (h : Registered r path) (call : RouteCall) :
    Registered (r.updatePodSet call.readyPods) path ∧ ∃ path',
      Grows (r.cache.Splits call.tokens) (r.updatePodSet call.readyPods).cache (r.prepared call).cache
        path path' ∧
      WF (r.prepared call).cache path' ∧
      (r.inserted call).node ∈ (r.prepared call).cache.allNodes := by
  have hsc := SameCounts.updatePodSet r call.readyPods
  have h₀ := (h.of_sameCounts (R := (· = ·)) hsc (r.outstanding_prepared call)).1
  obtain ⟨path', hw', hg, hleaf, -⟩ := insert_spec h₀.wf call.tokens call.insertTimes
  refine ⟨h₀, path', hg.congr fun n => ?_, hw', hleaf⟩
  simp [Splits, matchedPath, hsc.shape.rootNode, hsc.shape.matchedPathFrom_eq,
    hsc.shape.key n]

/-- **Attaching a request**: the queries, the walk to the root and the migrations. -/
lemma Registered.routed {call : RouteCall} {podIP : String} (h : Registered (r.prepared call) path)
    (hleaf : (r.inserted call).node ∈ (r.prepared call).cache.allNodes)
    (ha : call.attached = some podIP) :
    Registered (r.route call).2 path ∧ (call.requestID ∉ r.outstanding → ∀ R, Shifts R →
        ((r.route call).2.Related R ↔ (r.prepared call).Related R)) ∧
      (call.requestID ∈ r.outstanding → (∀ q,
        ((r.prepared call).cache.heap (r.prepared call).cache.rootNode).getRefCounterForPod q =
          (r.prepared call).countAt path [] q) → ¬ (r.route call).2.LiveCounts) := by
  rw [route_attached r ha]
  let r₂ : Router := { r.prepared call with cache := queryAll (r.inserted call).cache call }
  have hsc : SameCounts (r.prepared call).cache r₂.cache := SameCounts.queryAll h.wf call
  have h₂ : Registered r₂ path := (h.of_sameCounts (R := (· = ·)) hsc rfl).1
  have hleaf₂ : (r.inserted call).node ∈ r₂.cache.allNodes := hsc.shape.allNodes ▸ hleaf
  have hid₂ : r₂.outstanding = r.outstanding := r.outstanding_prepared call
  let r₃ : Router := { r₂ with
    cache := Router.attach r₂.cache (r.inserted call).node call.model podIP call.now
    outstanding := r.outstanding.insert call.requestID ⟨(r.inserted call).node, podIP⟩ }
  have ho₃ : r₃.outstanding =
      r₂.outstanding.insert call.requestID ⟨(r.inserted call).node, podIP⟩ := by
    rw [hid₂]
  have h₃ : Registered r₃ path := h₂.attach hleaf₂ rfl ho₃
  let r₄ : Router := { r₃ with cache := Router.migrate r₃.cache call }
  have h₄ (R : ℕ → ℕ → Prop) : Registered r₄ path ∧ (r₄.Related R ↔ r₃.Related R) :=
    h₃.of_sameCounts (SameCounts.migrate _ call) rfl
  refine ⟨(h₄ (· = ·)).1, fun hid R hR => (h₄ R).2.trans ?_, fun hid hroot hl => ?_⟩
  · exact (related_attach_iff h₂ hleaf₂ rfl ho₃ hR (hid₂ ▸ hid)).trans (h.of_sameCounts hsc rfl).2
  · refine not_liveCounts_attach h₂ hleaf₂ rfl ho₃ (fun q => ?_) (hid₂ ▸ hid) ((h₄ _).2.mp hl)
    rw [TreeNode.getRefCounterForPod, hsc.refs, hsc.shape.rootNode]
    exact hroot q

/-- **A call of `Route` keeps the counters exact** exactly when its ID is not
outstanding and it splits no node with live requests. -/
lemma Registered.route (h : Registered r path) (hl : r.LiveCounts) (call : RouteCall) :
    (∃ path', Registered (r.route call).2 path') ∧
      ((r.route call).2.LiveCounts ↔ r.KeepsCounts (.route call)) := by
  by_cases hins : call.Inserts
  swap
  · rw [route_short r hins]
    exact ⟨⟨path, h⟩, iff_of_true hl fun h' => absurd h' hins⟩
  have hsc := SameCounts.updatePodSet r call.readyPods
  obtain ⟨h₀, path', hg, hw', hleaf⟩ := h.prepared call
  have hl₀ : (r.updatePodSet call.readyPods).LiveCounts :=
    (h.of_sameCounts hsc (r.outstanding_prepared call)).2.mpr hl
  have h₁ := h₀.grows hg rfl hw'
  have hl₁ := liveCounts_insert_iff h₀ hg rfl hw' hl₀
  simp only [TreeNode.getRefCounterForPod, hsc.refs] at hl₁
  cases ha : call.attached with
  | none =>
    rw [route_unattached r hins ha]
    refine ⟨⟨path', h₁⟩, hl₁.trans ?_⟩
    simp [KeepsCounts, TreeNode.getRefCounterForPod, hins, ha]
  | some podIP =>
    obtain ⟨h₂, hfresh, htaken⟩ := h₁.routed hleaf ha
    refine ⟨⟨path', h₂⟩, ?_⟩
    by_cases hid : call.requestID ∈ r.outstanding
    · refine iff_of_false (htaken hid (root_counts_insert h₀ hg rfl hl₀)) fun hk => ?_
      exact (hk hins).1 (by simp [ha]) hid
    · refine ((hfresh hid _ shifts_eq).trans hl₁).trans ?_
      simp [KeepsCounts, TreeNode.getRefCounterForPod, hins, hid]

def Event.NoEvict : Event → Prop
  | .evict _ _ => False
  | _ => True

/-- **One event keeps the counters exact** exactly when it meets `KeepsCounts`. -/
lemma Registered.step_iff (h : Registered r path) (hl : r.LiveCounts) {e : Event} (he : e.NoEvict) :
    (∃ path', Registered (r.step e) path') ∧ ((r.step e).LiveCounts ↔ r.KeepsCounts e) := by
  cases e with
  | route call => exact h.route hl call
  | complete requestID =>
    obtain ⟨h', hl'⟩ := h.complete requestID
    exact ⟨⟨path, h'⟩, iff_of_true (hl' _ shifts_eq hl) trivial⟩
  | evict now order => exact he.elim

/-! ### Whole runs -/

lemma Registered.run_iff {es : List Event} (h : Registered r path) (hl : r.LiveCounts)
    (hes : ∀ e ∈ es, e.NoEvict) :
    (∀ es', es' <+: es → (r.run es').LiveCounts) ↔
      ∀ es' e, es' ++ [e] <+: es → (r.run es').KeepsCounts e := by
  induction es generalizing r path with
  | nil =>
    refine iff_of_true (fun es' h' => ?_) (fun es' e h' => ?_)
    · rw [prefix_nil.mp h']
      exact hl
    · simp at h'
  | cons e es ih =>
    obtain ⟨⟨path', h'⟩, hstep⟩ := h.step_iff hl (hes e mem_cons_self)
    have hes' : ∀ e ∈ es, e.NoEvict := fun e he => hes e (mem_cons_of_mem _ he)
    constructor
    · intro hlive es' e' hpre
      have hl' : (r.step e).LiveCounts := hlive [e] (by simp)
      cases es' with
      | nil =>
        obtain rfl : e' = e := by simpa using hpre
        exact hstep.mp hl'
      | cons y ys =>
        obtain ⟨rfl, hpre'⟩ := cons_prefix_cons.mp hpre
        exact (ih h' hl' hes').mp (fun es' hp => hlive (y :: es')
          (cons_prefix_cons.mpr ⟨rfl, hp⟩)) ys e' hpre'
    · intro hkeep es' hpre
      have hl' : (r.step e).LiveCounts := hstep.mpr (hkeep [] e (by simp))
      cases es' with
      | nil => exact hl
      | cons y ys =>
        obtain ⟨rfl, hpre'⟩ := cons_prefix_cons.mp hpre
        exact (ih h' hl' hes').mpr (fun es' e' hp => hkeep (y :: es') e'
          (cons_prefix_cons.mpr ⟨rfl, hp⟩)) ys hpre'

lemma Registered.new (t : Time) (numPods : ℕ) : Registered (Router.new t numPods) fun _ => [] :=
  ⟨WF.new t, fun _ he => absurd he not_mem_nil⟩

lemma liveCounts_new (t : Time) (numPods : ℕ) : (Router.new t numPods).LiveCounts := by
  refine (Registered.new t numPods).related_iff.mpr fun n hn podIP => ?_
  obtain rfl : n = 0 := List.mem_singleton.mp hn
  rfl

/-- **The counters over whole runs.**  In a run of routing and completions from the
start, the counters are exact in every state reached exactly when every event of
the run meets `KeepsCounts` in the state it happens in. -/
theorem liveCounts_run_iff (t : Time) (numPods : ℕ) (es : List Event) (hes : ∀ e ∈ es, e.NoEvict) :
    (∀ es', es' <+: es → ((new t numPods).run es').LiveCounts) ↔
      ∀ es' e, es' ++ [e] <+: es → ((new t numPods).run es').KeepsCounts e := by
  exact (Registered.new t numPods).run_iff (liveCounts_new t numPods) hes

def twoPodCall (requestID : String) (tokens : List Token) (pick : ℕ) : RouteCall :=
  ⟨requestID, "m", tokens, ["p", "q"], some pick, [], fun _ => 0, fun _ _ => 0, 0⟩

/-- The second prompt splits the leaf of the first request: the node of the two shared
tokens counts no live request of the first pod, though the first request is below it. -/
theorem liveCounts_run_split :
    let r := (new 0 2).run
      [.route (twoPodCall "a" [1, 2, 3] 0), .route (twoPodCall "b" [1, 2, 4] 1)]
    ∃ n ∈ r.cache.allNodes, (r.cache.heap n).key = [1, 2] ∧
      (r.cache.heap n).getRefCounterForPod "p" = 0 ∧ r.outstandingAt n "p" = 1 := by
  decide +kernel

lemma keepsCounts_of_matchedPath_nil {call : RouteCall} (hid : call.requestID ∉ r.outstanding)
    (hpath : r.cache.matchedPath call.tokens = []) : r.KeepsCounts (.route call) := by
  refine fun _ => ⟨fun _ => hid, fun n hn => ?_⟩
  obtain ⟨k, hk, -⟩ := hn
  rw [hpath] at hk
  exact absurd hk not_mem_nil

/-- Prompts that part at the root, and a completion. -/
theorem liveCounts_run_apart :
    ((new 0 2).run [.route (twoPodCall "a" [1, 2, 3] 0), .route (twoPodCall "b" [4, 5] 1),
      .complete "a"]).LiveCounts := by
  refine (liveCounts_run_iff 0 2 [.route (twoPodCall "a" [1, 2, 3] 0),
    .route (twoPodCall "b" [4, 5] 1), .complete "a"] ?_).mpr ?_ _ (prefix_refl _)
  · simp [Event.NoEvict]
  · intro es' e hpre
    match es' with
    | [] =>
      obtain rfl : e = .route (twoPodCall "a" [1, 2, 3] 0) := by simpa using hpre
      exact keepsCounts_of_matchedPath_nil (by decide +kernel) (by decide +kernel)
    | [x] =>
      obtain ⟨rfl, rfl⟩ : x = .route (twoPodCall "a" [1, 2, 3] 0) ∧
        e = .route (twoPodCall "b" [4, 5] 1) := by simpa using hpre
      exact keepsCounts_of_matchedPath_nil (by decide +kernel) (by decide +kernel)
    | [x, y] =>
      obtain ⟨rfl, rfl, rfl⟩ : x = .route (twoPodCall "a" [1, 2, 3] 0) ∧
        y = .route (twoPodCall "b" [4, 5] 1) ∧ e = .complete "a" := by simpa using hpre
      trivial
    | x :: y :: z :: es' =>
      have := hpre.length_le
      simp at this
      omega

end Router
end Lodestar.Routing
