import Lodestar.Indexer.Eviction
import Lodestar.Indexer.History
import Lodestar.Lib.Run

/-!
# The radix tree over whole runs

`TreeOp` is one operation on the tree: an `AddPrefix`, an eviction, the re-homing
of a subtree, the removal of departed pods, or a query (which refreshes the access
times of the nodes it visits).  `run` performs a sequence of them on a new tree;
the clock readings and the orders of visits are part of the operations.
-/

namespace Lodestar.Indexer

open Lib

namespace LPRadixCache

inductive TreeOp where
  | addPrefix (a : Add)
  | evict (now : Time) (order : RangeOrder)
  | rehome (node : NodeId) (model podIP : String) (timestamp : Time)
  | removeDepartedPods (currentPodSet : List String)
  | query (tokens : List Token) (model podIP : String) (now : ℕ → Time)

def step (c : LPRadixCache) : TreeOp → LPRadixCache
  | .addPrefix a => (c.addPrefix a.tokens a.model a.podIP a.now a.stamp).cache
  | .evict now order => c.evict now order
  | .rehome node model podIP timestamp => c.rehome node model podIP timestamp
  | .removeDepartedPods set => c.removeDepartedPods set
  | .query tokens model podIP now => (c.matchPrefixWithPod tokens model podIP now).cache

def run (c : LPRadixCache) (ops : List TreeOp) : LPRadixCache := ops.foldl step c

variable {c : LPRadixCache} {path : NodeId → List Token}

/-! ### Every reachable tree is well formed -/

section

variable (model podIP : String) (timestamp : Time)

lemma Same.reallocateSubtreeToPod : ∀ (fuel : ℕ) (c : LPRadixCache) (node : NodeId),
    Same TreeNode.withoutPods c (c.reallocateSubtreeToPod fuel node model podIP timestamp) := by
  intro fuel
  induction fuel with
  | zero => intro c node; exact .refl _ c
  | succ fuel ih =>
    intro c node
    rw [LPRadixCache.reallocateSubtreeToPod]
    generalize c.childList node = children
    induction children generalizing c with
    | nil => exact .refl _ c
    | cons child children ihc =>
      exact ((Same.modify c child fun _ => by rfl).trans (ih _ child)).trans (ihc _)

lemma Same.rehome (c : LPRadixCache) (node : NodeId) :
    Same TreeNode.withoutPods c (c.rehome node model podIP timestamp) :=
  (Same.modify c node fun _ => by rfl).trans
    (Same.reallocateSubtreeToPod model podIP timestamp _ _ _)

lemma Same.removeDepartedPods (c : LPRadixCache) (set : List String) :
    Same TreeNode.withoutPods c (c.removeDepartedPods set) :=
  .modifyAll (fun _ _ => by rfl) _ _

end

lemma step_wf {c : LPRadixCache} {path : NodeId → List Token} (hw : WF c path) (op : TreeOp) :
    ∃ path', WF (c.step op) path' := by
  cases op with
  | addPrefix a =>
    obtain ⟨path', hw', _⟩ := insert_spec hw a.tokens a.now
    exact ⟨path', addPrefix_sameShape.wf hw'⟩
  | evict now order => exact ⟨path, evict_wf hw now order⟩
  | rehome node model podIP timestamp =>
    exact ⟨path, (SameShape.of_withoutPods (.rehome model podIP timestamp c node)).wf hw⟩
  | removeDepartedPods set =>
    exact ⟨path, (SameShape.of_withoutPods (.removeDepartedPods c set)).wf hw⟩
  | query tokens model podIP now =>
    exact ⟨path, (matchPrefixWithPod_spec hw tokens model podIP now).visited.sameShape.wf hw⟩

lemma run_wf (t : Time) (ops : List TreeOp) : ∃ path, WF ((LPRadixCache.new t).run ops) path :=
  Lib.foldl_invariant (I := fun c : LPRadixCache => ∃ path, WF c path) ⟨_, WF.new t⟩
    (fun _ op ⟨_, hw⟩ => step_wf hw op) ops

/-! ### What is fixed when a node is created -/

/-- The nodes that have been created keep their context length and their depth. -/
structure Created (c c' : LPRadixCache) : Prop where
  nextNodeID : c.nextNodeID ≤ c'.nextNodeID
  heap : ∀ n < c.nextNodeID, (c'.heap n).created = (c.heap n).created

namespace Created

variable {c c' c'' : LPRadixCache}

lemma trans (h : Created c c') (h' : Created c' c'') : Created c c'' :=
  ⟨h.nextNodeID.trans h'.nextNodeID, fun n hn =>
    (h'.heap n (hn.trans_le h.nextNodeID)).trans (h.heap n hn)⟩

lemma of_same (h : Same TreeNode.created c c') : Created c c' := ⟨h.nextNodeID.ge, fun n _ => h.heap n⟩

lemma of_withoutPods (h : Same TreeNode.withoutPods c c') : Created c c' := by
  refine of_same ⟨h.rootNode, h.allNodes, h.nextNodeID, fun n => ?_⟩
  show (c'.heap n).withoutPods.created = (c.heap n).withoutPods.created
  rw [h.heap]

lemma modify (h : Created c c') (n : NodeId) {f : TreeNode → TreeNode}
    (hf : ∀ nd, (f nd).created = nd.created) : Created c (c'.modify n f) :=
  h.trans (of_same (.modify c' n hf))

lemma newTreeNode (c : LPRadixCache) (parent : Option NodeId) (key value : List Token)
    (now : Time) : Created c (c.newTreeNode parent key value now).2 := by
  refine ⟨Nat.le_succ _, fun n hn => ?_⟩
  show (Function.update c.heap c.nextNodeID _ n).created = _
  rw [Function.update_of_ne hn.ne]

lemma setChild (h : Created c c') (p : Option NodeId) (key : List Token) (child : NodeId) :
    Created c (c'.setChild p key child) := by
  unfold LPRadixCache.setChild
  split
  · exact h.modify _ fun _ => rfl
  · exact h

lemma register (h : Created c c') (nodes : List NodeId) :
    Created c { c' with allNodes := nodes } := ⟨h.nextNodeID, h.heap⟩

lemma splitNode (c : LPRadixCache) (key : List Token) (child : NodeId) (splitLen : ℕ)
    (now : Time) : Created c (c.splitNode key child splitLen now).2 := by
  refine register (modify (modify (setChild (newTreeNode c _ _ _ now) _ _ _) _ ?_) _ ?_) _
  · exact fun _ => rfl
  · exact fun _ => rfl

lemma addLeaf (c : LPRadixCache) (node : NodeId) (key value : List Token) (now : Time) :
    Created c (c.addLeaf node key value now).2 := by
  exact register (setChild (newTreeNode c _ _ _ now) _ _ _) _

lemma touch (c : LPRadixCache) (n : NodeId) (now : Time) : Created c (c.touch n now) :=
  of_same (.modify c n fun _ => by rfl)

lemma inserts {path path' : NodeId → List Token} {node : NodeId} {key : List Token}
    {now : ℕ → Time} {r : Inserted} (h : Inserts c path node key now r path') :
    Created c r.cache := by
  induction h with
  | @here c path node now => exact touch c node (now 0)
  | @leaf c path node t rest now => exact (touch c node (now 0)).trans (addLeaf _ _ _ _ _)
  | @child c path node t child rest now => exact (touch c node (now 0)).trans (touch _ _ _)
  | @deeper c path node t child rest k now r path' hc hkey hk h ih =>
    rw [Inserted.above_cache]
    exact (touch c node (now 0)).trans ih
  | @split c path node t child rest s v now =>
    exact (touch c node (now 0)).trans (splitNode _ _ _ _ _)
  | @fork c path node t child u s v a w now =>
    exact (((touch c node (now 0)).trans (splitNode _ _ _ _ _)).trans (touch _ _ _)).trans
      (addLeaf _ _ _ _ _)

lemma step {path : NodeId → List Token} (hw : WF c path) (op : TreeOp) : Created c (c.step op) := by
  cases op with
  | addPrefix a =>
    obtain ⟨path', hins⟩ := insertHelper_inserts _ c path c.rootNode a.tokens a.now hw hw.root_mem
      (Nat.lt_succ_self _)
    unfold LPRadixCache.step addPrefix
    dsimp only
    split
    · exact inserts hins
    · exact (inserts hins).trans (of_withoutPods (.modifyAll (fun _ _ => by rfl) _ _))
  | evict now order =>
    have h := evict_evicted hw now order
    refine ⟨h.nextNodeID.ge, fun n _ => Prod.ext (h.contextLength n) ?_⟩
    exact congrArg (·.2.2) (persistent_evict c now order n)
  | rehome node model podIP timestamp => exact of_withoutPods (.rehome model podIP timestamp c node)
  | removeDepartedPods set => exact of_withoutPods (.removeDepartedPods c set)
  | query tokens model podIP now =>
    have hv := (matchPrefixWithPod_spec hw tokens model podIP now).visited
    refine ⟨hv.nextNodeID.ge, fun n _ => ?_⟩
    obtain ⟨ts, hts⟩ := hv.heap n
    show ((c.matchPrefixWithPod tokens model podIP now).cache.heap n).created = _
    rw [hts]
    rfl

end Created

/-! ### Child pointers -/

/-- `Spells c n u`: the child pointers lead from the root to `n`, and the keys on
the way spell `u`. -/
inductive Spells (c : LPRadixCache) : NodeId → List Token → Prop
  | root : Spells c c.rootNode []
  | child {p n : NodeId} {u : List Token} {t : Token} (hp : Spells c p u)
      (hc : (c.heap p).children.lookup t = some n) : Spells c n (u ++ (c.heap n).key)

/-- **A well-formed tree**, in terms of its pointers alone. -/
structure WellFormed (c : LPRadixCache) : Prop where
  key_ne_nil : ∀ n ∈ c.allNodes, n ≠ c.rootNode → (c.heap n).key ≠ []
  head_key : ∀ p ∈ c.allNodes, ∀ t n, (c.heap p).children.lookup t = some n →
    (c.heap n).key.head? = some t
  siblings : ∀ p ∈ c.allNodes, ∀ s t a b, (c.heap p).children.lookup s = some a →
    (c.heap p).children.lookup t = some b → a ≠ b → (c.heap a).key.head? ≠ (c.heap b).key.head?
  parent : ∀ p ∈ c.allNodes, ∀ t n, (c.heap p).children.lookup t = some n →
    (c.heap n).parent = some p
  contextLength : ∀ n u, Spells c n u → (c.heap n).contextLength = u.length
  registered : ∀ n, n ∈ c.allNodes ↔ ∃ u, Spells c n u

lemma WF.spells_iff (hw : WF c path) (n : NodeId) (u : List Token) :
    Spells c n u ↔ n ∈ c.allNodes ∧ path n = u := by
  constructor
  · intro h
    induction h with
    | root => exact ⟨hw.root_mem, hw.path_root⟩
    | @child p n u t hp hc ih =>
      obtain ⟨hpm, rfl⟩ := ih
      exact ⟨(hw.down hpm hc).1, hw.trie.path_child hpm hc⟩
  · rintro ⟨hn, rfl⟩
    -- by induction on the length of the path, through the parent
    generalize hlen : (path n).length = len
    induction len using Nat.strongRecOn generalizing n with
    | ind len ih =>
      by_cases hr : n = c.rootNode
      · subst hr
        rw [hw.path_root]
        exact .root
      · obtain ⟨p, t, r, hp, hpar, _, hc, hpath⟩ := hw.trie.up n hn hr
        have hlt := (hw.trie.parent_shorter hn hpar).2.2
        rw [hpath]
        exact (ih _ (hlen ▸ hlt) p hp rfl).child hc

lemma WF.wellFormed (hw : WF c path) : WellFormed c := by
  refine ⟨?_, ?_, ?_, ?_, ?_, ?_⟩
  · intro n hn hr
    obtain ⟨p, t, r, _, _, hk, _⟩ := hw.trie.up n hn hr
    rw [show (c.heap n).key = t :: r from hk]
    exact List.cons_ne_nil t r
  · intro p hp t n hc
    obtain ⟨_, _, _, r, hk⟩ := hw.down hp hc
    rw [hk]
    rfl
  · intro p hp s t a b ha hb hab
    obtain ⟨_, _, _, r, hka⟩ := hw.down hp ha
    obtain ⟨_, _, _, r', hkb⟩ := hw.down hp hb
    rw [hka, hkb]
    intro hst
    obtain rfl : s = t := by simpa using hst
    exact hab (Option.some.inj (ha.symm.trans hb))
  · exact fun p hp t n hc => (hw.down hp hc).2.2.1
  · intro n u hu
    obtain ⟨hn, rfl⟩ := (hw.spells_iff n u).mp hu
    exact hw.contextLength_eq n hn
  · intro n
    constructor
    · exact fun hn => ⟨path n, (hw.spells_iff n _).mpr ⟨hn, rfl⟩⟩
    · rintro ⟨u, hu⟩
      exact ((hw.spells_iff n u).mp hu).1

/-- **Every reachable tree is well formed**, whatever was inserted and evicted and
in whatever order the evictions visited the nodes. -/
theorem wellFormed_run (t : Time) (ops : List TreeOp) :
    WellFormed ((LPRadixCache.new t).run ops) := by
  obtain ⟨path, hw⟩ := run_wf t ops
  exact hw.wellFormed

/-! ### What the percentage counts -/

/-- **The hit percentage in every reachable tree** is the integer part of
`100 * M / len(tokens)`, where `M` is the number of tokens on those nodes of the
matched path that record the pod.  If no recording node of the path comes after
one that does not record the pod, `M` is the length of the longest prefix on
recording nodes, and the query leaves the caller's tokens unchanged. -/
theorem hitRatio_run (t : Time) (ops : List TreeOp) (tokens : List Token) (model podIP : String)
    (now : ℕ → Time) :
    let c := (LPRadixCache.new t).run ops
    c.getCacheHitRatioForTargetPod tokens model podIP now =
        100 * c.recordedLen model podIP (c.matchedPath tokens) / tokens.length ∧
      (c.Contiguous model podIP (c.matchedPath tokens) →
        c.getCacheHitRatioForTargetPod tokens model podIP now =
            100 * c.contiguousLen model podIP (c.matchedPath tokens) / tokens.length ∧
          (c.matchPrefixWithPod tokens model podIP now).array = tokens) := by
  intro c
  obtain ⟨path, hw⟩ := run_wf t ops
  have hhit := getCacheHitRatioForTargetPod_eq hw tokens model podIP now
  refine ⟨hhit, fun hc => ⟨?_, ?_⟩⟩
  · rw [hhit, recordedLen_eq_contiguousLen hc]
  · exact (matchPrefixWithPod_spec hw tokens model podIP now).array_eq hc

/-- The visits of a map in the order in which it lists its entries. -/
def RangeOrder.listed : RangeOrder :=
  ⟨id, fun _ _ l => l, fun l => List.Perm.refl l, fun _ _ l => List.Perm.refl l⟩

/-- Two prefixes that share their first two tokens are added four minutes apart,
and an eviction six minutes after the first one removes the old branch. -/
def sharedThenEvicted : List TreeOp :=
  [.addPrefix ⟨[1, 2, 3], "m", "10.0.0.1", fun _ => 0, fun _ => 0⟩,
    .addPrefix ⟨[1, 2, 4], "m", "10.0.0.1", fun _ => 240000000000, fun _ => 240000000000⟩,
    .evict 360000000000 RangeOrder.listed]

/-- After these operations the shared node no longer records the pod, but the node
below it does, and its token counts. -/
theorem hitRatio_run_gap :
    let c := (LPRadixCache.new 0).run sharedThenEvicted
    c.getCacheHitRatioForTargetPod [1, 2, 4] "m" "10.0.0.1" (fun _ => 0) = 33 ∧
      100 * c.contiguousLen "m" "10.0.0.1" (c.matchedPath [1, 2, 4]) / 3 = 0 := by
  decide +kernel

/-- Before the eviction the recording nodes are contiguous. -/
theorem hitRatio_run_shared :
    let c := (LPRadixCache.new 0).run (sharedThenEvicted.take 2)
    c.getCacheHitRatioForTargetPod [1, 2, 4] "m" "10.0.0.1" (fun _ => 0) = 100 ∧
      (c.matchPrefixWithPod [1, 2, 4] "m" "10.0.0.1" fun _ => 0).array = [1, 2, 4] := by
  intro c
  have hcont : c.Contiguous "m" "10.0.0.1" (c.matchedPath [1, 2, 4]) := by
    unfold Contiguous
    decide +kernel
  obtain ⟨hhit, harr⟩ := (hitRatio_run 0 (sharedThenEvicted.take 2) [1, 2, 4] "m" "10.0.0.1"
    fun _ => 0).2 hcont
  refine ⟨hhit.trans ?_, harr⟩
  decide +kernel

/-! ### When an eviction is invisible to a fresh query -/

/-- No node of the matched path has exceeded its time to live. -/
def FreshPath (c : LPRadixCache) (now : Time) (tokens : List Token) : Prop :=
  ∀ e ∈ c.matchedPath tokens, c.doesExceededTTL e.1 now = false

/-- A node of the matched path that records the pod has a stale node below it that
records the pod as well. -/
def SharedWithStale (c : LPRadixCache) (now : Time) (tokens : List Token) (model podIP : String) :
    Prop :=
  ∃ e ∈ c.matchedPath tokens, c.has model podIP e.1 = true ∧
    ∃ s, c.Stale now s ∧ e.1 ∈ c.ancestors s ∧ c.has model podIP s = true

variable {now : Time} {tokens : List Token} {model podIP : String} {e : NodeId × ℕ} {s : NodeId}

section

variable (hw : WF c path)
include hw

lemma WF.above_matchedPath (he : e ∈ c.matchedPath tokens) (hs : s ∈ c.allNodes)
    (hsr : s ≠ c.rootNode) (hpre : path s <+: path e.1) :
    ∃ k, (s, k) ∈ c.matchedPath tokens := by
  obtain ⟨n, k⟩ := e
  obtain ⟨p, t, hp, hc, hpt, _⟩ := (hw.mem_matchedPath_iff tokens n k).mp he
  obtain ⟨hn, _, hpar, _⟩ := hw.down hp hc
  rcases hw.trie.prefix_parent hn hs hpar hpre with rfl | hsp
  · exact ⟨k, he⟩
  · obtain ⟨q, a, r, hq, _, hkey, hcq, hpath⟩ := hw.trie.up s hs hsr
    refine ⟨_, (hw.mem_matchedPath_iff tokens s _).mpr ⟨q, a, hq, hcq, ?_, rfl⟩⟩
    have hqs : path q ++ [a] <+: path s := ⟨r, by rw [hpath, hkey]; simp⟩
    exact hqs.trans (hsp.trans ((List.prefix_append _ _).trans hpt))

lemma WF.matchedPath_pos (he : e ∈ c.matchedPath tokens) : 0 < e.2 := by
  obtain ⟨n, k⟩ := e
  obtain ⟨p, t, hp, hc, ⟨w, hpt⟩, rfl⟩ := (hw.mem_matchedPath_iff tokens n k).mp he
  obtain ⟨_, _, _, r, hkey⟩ := hw.down hp hc
  rw [← hpt, List.append_assoc, List.drop_left, hkey]
  show 0 < lcpLen (t :: r) (t :: w)
  rw [lcpLen_cons_self]
  omega

variable (hfresh : c.FreshPath now tokens) (order : RangeOrder)
include hfresh in
lemma WF.not_doomed_of_fresh (he : e ∈ c.matchedPath tokens) : ¬ c.Doomed path now e.1 := by
  rintro ⟨_, s, ⟨hs, hsr, hst⟩, hpre⟩
  obtain ⟨k, hk⟩ := hw.above_matchedPath he hs hsr hpre
  have := hfresh (s, k) hk
  rw [hst] at this
  simp at this

lemma matchedPathFrom_evict : ∀ (fuel : ℕ) (node : NodeId) (rest : List Token),
    node ∈ c.allNodes → ¬ c.Doomed path now node →
      (∀ e ∈ matchedPathFrom fuel c node rest, ¬ c.Doomed path now e.1) →
      matchedPathFrom fuel (c.evict now order) node rest = matchedPathFrom fuel c node rest := by
  have hev := evict_evicted hw now order
  have hd := mem_reverse_nodesToEvict hw now order
  intro fuel
  induction fuel with
  | zero => intro node rest _ _ _; rfl
  | succ fuel ih =>
    intro node rest hn hnd hsteps
    cases rest with
    | nil => rfl
    | cons t rest =>
      have hch := hev.children node hn (fun h => hnd ((hd node).mp h)) t
      cases hc : (c.heap node).children.lookup t with
      | none =>
        have hc' : ((c.evict now order).heap node).children.lookup t = none := by
          rw [Option.eq_none_iff_forall_ne_some]
          intro m hm
          simp [hc, hch] at hm
        rw [matchedPathFrom_of_none hc, matchedPathFrom_of_none hc']
      | some child =>
        have hchild : ¬ c.Doomed path now child :=
          hsteps (child, matchLen (c.heap child).key (t :: rest)) (by
            simp only [matchedPathFrom, hc]
            split <;> exact List.mem_cons_self)
        have hc' : ((c.evict now order).heap node).children.lookup t = some child :=
          (hch child).mpr ⟨hc, fun h => hchild ((hd child).mp h)⟩
        have hkey : ((c.evict now order).heap child).key = (c.heap child).key :=
          hev.key child fun h => hchild ((hd child).mp h)
        simp only [matchedPathFrom, hc, hc', hkey] at hsteps ⊢
        split
        · rename_i hk
          rw [if_pos hk] at hsteps
          rw [ih child _ (hw.down hn hc).1 hchild fun e he => hsteps e (List.mem_cons_of_mem _ he)]
        · rfl

include hfresh

lemma matchedPath_evict : (c.evict now order).matchedPath tokens = c.matchedPath tokens := by
  have hroot : ¬ c.Doomed path now c.rootNode := fun h => hw.doomed_ne_root h rfl
  rw [matchedPath, (evict_evicted hw now order).rootNode]
  exact matchedPathFrom_evict hw order _ _ _ hw.root_mem hroot
    fun e he => hw.not_doomed_of_fresh hfresh he

lemma has_evict_of_not_shared (hshared : ¬ c.SharedWithStale now tokens model podIP)
    (he : e ∈ c.matchedPath tokens) :
    (c.evict now order).has model podIP e.1 = c.has model podIP e.1 := by
  rw [Bool.eq_iff_iff]
  refine ⟨(evict_run hw now order).2 model podIP e.1, fun hhas => ?_⟩
  have hmem : e.1 ∈ c.allNodes := hw.mem_of_matchedPathFrom _ _ _ hw.root_mem e he
  refine Evicted.keeps hw hmem (hw.not_doomed_of_fresh hfresh he) (fun s hst hpre => ?_) _
    (fun y hy => (hw.mem_nodesToEvict y).mp hy) hw.guarded_nodesToEvict hhas
  rw [← Bool.not_eq_true]
  exact fun hs => hshared ⟨e, he, hhas, s, hst, (hw.mem_ancestors_iff hst.1 e.1).mpr ⟨hmem, hpre⟩, hs⟩

end

/-- The visits that come to the node `s` first. -/
def RangeOrder.first (s : NodeId) : RangeOrder where
  nodes l := if s ∈ l then s :: l.erase s else l
  children _ _ l := l
  nodes_perm l := by
    by_cases h : s ∈ l
    · rw [if_pos h]
      exact (List.perm_cons_erase h).symm
    · rw [if_neg h]
  children_perm _ _ l := List.Perm.refl l

lemma nodesToEvict_first (hst : c.Stale now s) :
    ∃ ys, c.nodesToEvict now (RangeOrder.first s) = s :: ys := by
  obtain ⟨l, hl⟩ := collectNodeAndChildren_head (RangeOrder.first s) hst.1 hst.2.1
  have hnodes : (RangeOrder.first s).nodes c.allNodes = s :: c.allNodes.erase s := if_pos hst.1
  rw [nodesToEvict, hnodes, List.flatMap_cons, if_pos ⟨hst.2.1, hst.2.2⟩, hl]
  exact ⟨_, rfl⟩

lemma has_evict_first (hw : WF c path) {s n : NodeId} (hst : c.Stale now s)
    (hn : n ∈ c.ancestors s) (hns : n ≠ s) (hs : c.has model podIP s = true) :
    (c.evict now (RangeOrder.first s)).has model podIP n = false := by
  obtain ⟨ys, hys⟩ := nodesToEvict_first hst
  have hmem : ∀ z ∈ s :: ys, z ∈ c.allNodes ∧ z ≠ c.rootNode :=
    fun z hz => hw.evictable ((hw.mem_nodesToEvict z).mp (hys ▸ hz))
  have hev := Evicted.refl hw
  obtain ⟨p, t, r, hc⟩ := hev.chain hw hst.1 hst.2.1 (List.not_mem_nil)
  have hna : n ∈ c.ancestors p := by
    obtain ⟨hn', hpre⟩ := (hw.mem_ancestors_iff hst.1 n).mp hn
    rcases hw.trie.prefix_parent hst.1 hn' hc.parent hpre with he | hnp
    · exact absurd he hns
    · exact (hw.mem_ancestors_iff hc.mem n).mpr ⟨hn', hnp⟩
  have hfirst : (c.evictNode s).has model podIP n = false := by
    rw [hc.has_eq hev hst.2.1 hns, hs]
    simp [hna]
  rw [evict, hys, ← Bool.not_eq_true]
  intro hlast
  have hhas := (Evicted.run hw ys (c.evictNode s) [s]
    (fun z hz => hmem z (List.mem_cons_of_mem s hz)) (hev.step hw hst.1 hst.2.1)).2 _ _ _ hlast
  simp [hfirst] at hhas

lemma recordedLen_lt {c' : LPRadixCache} {steps : List (NodeId × ℕ)}
    (hle : ∀ n, c'.has model podIP n = true → c.has model podIP n = true) (he : e ∈ steps)
    (hpos : 0 < e.2) (hhas : c.has model podIP e.1 = true)
    (hlost : c'.has model podIP e.1 = false) :
    c'.recordedLen model podIP steps < c.recordedLen model podIP steps := by
  refine List.sum_lt_sum _ _ (fun i _ => ?_) ⟨e, he, ?_⟩
  · by_cases hi : c'.has model podIP i.1 = true
    · rw [if_pos hi, if_pos (hle _ hi)]
    · rw [if_neg hi]
      exact Nat.zero_le _
  · rw [hlost, hhas]
    simpa using hpos

lemma percentage_lt {a b len : ℕ} (hab : a < b) (hpos : 0 < len) (hlen : len ≤ 100) :
    100 * a / len < 100 * b / len := by
  have hle : (100 * a + len) / len ≤ 100 * b / len := Nat.div_le_div_right (by omega)
  rw [Nat.add_div_right _ hpos] at hle
  omega

/-- **When an eviction is invisible to a fresh query.**  If no node of the
fresh matched path shares the pod with a stale node below it, the percentage stays the same in every
order of visits; and for up to a hundred tokens, if one does, some order changes it. -/
theorem hitRatio_evict (t : Time) (ops : List TreeOp) (now : Time) (tokens : List Token)
    (model podIP : String) (clock : ℕ → Time)
    (hfresh : ((LPRadixCache.new t).run ops).FreshPath now tokens) :
    let c := (LPRadixCache.new t).run ops
    (¬ c.SharedWithStale now tokens model podIP → ∀ order,
        (c.evict now order).getCacheHitRatioForTargetPod tokens model podIP clock =
          c.getCacheHitRatioForTargetPod tokens model podIP clock) ∧
      (tokens.length ≤ 100 → c.SharedWithStale now tokens model podIP → ∃ order,
        (c.evict now order).getCacheHitRatioForTargetPod tokens model podIP clock ≠
          c.getCacheHitRatioForTargetPod tokens model podIP clock) := by
  intro c
  obtain ⟨path, hw⟩ := run_wf t ops
  constructor
  · intro hshared order
    rw [getCacheHitRatioForTargetPod_eq (evict_wf hw now order),
      getCacheHitRatioForTargetPod_eq hw, matchedPath_evict hw hfresh]
    have hrec : (c.evict now order).recordedLen model podIP (c.matchedPath tokens) =
        c.recordedLen model podIP (c.matchedPath tokens) := by
      refine congrArg List.sum (List.map_congr_left fun e he => ?_)
      rw [has_evict_of_not_shared hw hfresh order hshared he]
    rw [hrec]
  · rintro hlen ⟨e, he, hhas, s, hst, hanc, hs⟩
    refine ⟨RangeOrder.first s, ?_⟩
    rw [getCacheHitRatioForTargetPod_eq (evict_wf hw now _),
      getCacheHitRatioForTargetPod_eq hw, matchedPath_evict hw hfresh]
    have hns : e.1 ≠ s := by
      intro hes
      have := hfresh e he
      rw [hes, hst.2.2] at this
      simp at this
    have hlt := recordedLen_lt ((evict_run hw now (RangeOrder.first s)).2 model podIP) he
      (hw.matchedPath_pos he) hhas (has_evict_first hw hst hanc hns hs)
    have hpos : 0 < tokens.length := by
      cases tokens with
      | nil => simp [matchedPath] at he
      | cons a l => simp
    exact (percentage_lt hlt hpos hlen).ne

/-- The two prefixes of `sharedThenEvicted` again: at the instant of the eviction the
matched path of the newer one is fresh, and its percentage drops. -/
theorem hitRatio_evict_shared :
    let c := (LPRadixCache.new 0).run (sharedThenEvicted.take 2)
    c.FreshPath 360000000000 [1, 2, 4] ∧
      c.getCacheHitRatioForTargetPod [1, 2, 4] "m" "10.0.0.1" (fun _ => 0) = 100 ∧
      (c.evict 360000000000 RangeOrder.listed).getCacheHitRatioForTargetPod [1, 2, 4] "m" "10.0.0.1"
        (fun _ => 0) = 33 := by
  unfold FreshPath
  decide +kernel

/-- A newer prefix on a branch of its own keeps its percentage. -/
theorem hitRatio_evict_apart :
    let c := (LPRadixCache.new 0).run
      [.addPrefix ⟨[1, 2, 3], "m", "10.0.0.1", fun _ => 0, fun _ => 0⟩,
        .addPrefix ⟨[5, 6], "m", "10.0.0.1", fun _ => 240000000000, fun _ => 240000000000⟩]
    (c.evict 360000000000 RangeOrder.listed).getCacheHitRatioForTargetPod [5, 7] "m" "10.0.0.1"
        (fun _ => 0) = 50 ∧
      c.nodesToEvict 360000000000 RangeOrder.listed = [1] := by
  intro c
  have hfresh : c.FreshPath 360000000000 [5, 7] := by
    unfold FreshPath
    decide +kernel
  have hapart : ∀ e ∈ c.matchedPath [5, 7], ∀ s ∈ c.allNodes, s ≠ c.rootNode →
      c.doesExceededTTL s 360000000000 = true → e.1 ∉ c.ancestors s := by
    decide +kernel
  have hshared : ¬ c.SharedWithStale 360000000000 [5, 7] "m" "10.0.0.1" := by
    rintro ⟨e, he, _, s, ⟨hs, hsr, hst⟩, hanc, _⟩
    exact hapart e he s hs hsr hst hanc
  refine ⟨((hitRatio_evict 0 _ 360000000000 [5, 7] "m" "10.0.0.1" (fun _ => 0) hfresh).1 hshared
    RangeOrder.listed).trans ?_, ?_⟩ <;> decide +kernel

/-- **What an eviction leaves**, in every reachable tree and for every order of visits: the
sequences on whose path no node below the root has exceeded its time to live, at the same nodes. -/
theorem spells_evict_iff (t : Time) (ops : List TreeOp) (now : Time) (order : RangeOrder)
    (n : NodeId) (u : List Token) :
    let c := (new t).run ops
    Spells (c.evict now order) n u ↔ Spells c n u ∧ ∀ s v, Spells c s v → v <+: u →
      s ≠ c.rootNode → c.doesExceededTTL s now = false := by
  obtain ⟨path, hw⟩ := run_wf t ops
  intro c
  rw [(evict_wf hw now order).spells_iff, mem_allNodes_evict hw, hw.spells_iff]
  constructor
  · rintro ⟨⟨hn, hdoomed⟩, rfl⟩
    refine ⟨⟨hn, rfl⟩, fun s v hs hpre hroot => ?_⟩
    obtain ⟨hmem, rfl⟩ := (hw.spells_iff s v).mp hs
    by_contra hold
    exact hdoomed ⟨hn, s, ⟨hmem, hroot, by simpa using hold⟩, hpre⟩
  · rintro ⟨⟨hn, rfl⟩, hfresh⟩
    refine ⟨⟨hn, ?_⟩, rfl⟩
    rintro ⟨-, s, ⟨hs, hroot, hold⟩, hpre⟩
    have hold' := hfresh s _ ((hw.spells_iff s _).mpr ⟨hs, rfl⟩) hpre hroot
    exact absurd (hold.symm.trans hold') (by simp)

end LPRadixCache
end Lodestar.Indexer
