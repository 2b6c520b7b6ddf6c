import Lodestar.Indexer.Invariant

/-!
# What an insertion does to the tree

`matchedPath` lists the nodes that a token sequence runs through from the root,
each with the number of tokens it covers.  Only the last of them can be covered
in part; if it is, an insertion of the tokens splits it.

An insertion is described by `Grows`: the old nodes keep their path, pods and
counters, and a new node is either a leaf with nothing old below it (`NewLeaf`)
or takes over the start of the edge to one old node `ch`, with a copy of the pods
of `ch` and no counters (`NewSplit`).  `Inserts` lists the ways through the
recursion of `insertHelper`; `Inserts.spec` shows that it does exactly this.
-/

namespace Lodestar.Indexer

open Lib List
open Function (update update_self update_of_ne update_apply)

namespace LPRadixCache

/-- The nodes below `node` that the tokens run through, with the number of tokens
each one covers. -/
def matchedPathFrom : ℕ → LPRadixCache → NodeId → List Token → List (NodeId × ℕ)
  | 0, _, _, _ => []
  | _ + 1, _, _, [] => []
  | fuel + 1, c, node, t :: rest =>
    match (c.heap node).children.lookup t with
    | none => []
    | some child =>
      let k := matchLen (c.heap child).key (t :: rest)
      if k = (c.heap child).key.length then
        (child, k) :: matchedPathFrom fuel c child ((t :: rest).drop k)
      else [(child, k)]

/-- The nodes that the tokens run through from the root. -/
def matchedPath (c : LPRadixCache) (tokens : List Token) : List (NodeId × ℕ) :=
  matchedPathFrom (tokens.length + 1) c c.rootNode tokens

/-- The tokens end or diverge strictly inside the edge to `n`. -/
def SplitsFrom (fuel : ℕ) (c : LPRadixCache) (node : NodeId) (tokens : List Token)
    (n : NodeId) : Prop :=
  ∃ k, (n, k) ∈ matchedPathFrom fuel c node tokens ∧ k < (c.heap n).key.length

/-- A node record read through `touch`. -/
lemma heap_touch (c : LPRadixCache) (n m : NodeId) (now : Time) :
    (c.touch n now).heap m = { c.heap m with
      lastAccess := if m = n then now else (c.heap m).lastAccess
      load := if m = n then (c.heap m).load + 1 else (c.heap m).load } := by
  by_cases h : m = n
  · subst h
    simp [touch]
  · rw [touch, heap_modify_of_ne _ _ h]
    simp [h]

/-- The new node `x` is a leaf: it has no pods and nothing old is below it. -/
def NewLeaf (c c' : LPRadixCache) (path path' : NodeId → List Token) (x : NodeId) : Prop :=
  (c'.heap x).modelToPods = ∅ ∧ ∀ y ∈ c.allNodes, ¬ path' x <+: path y

/-- The new node `x` takes over the start of the edge to `ch`, with its pods. -/
def NewSplit (c c' : LPRadixCache) (path path' : NodeId → List Token) (ch x : NodeId) : Prop :=
  ch ∈ c.allNodes ∧ path' x <+: path ch ∧ (c'.heap x).modelToPods = (c.heap ch).modelToPods ∧
    ∀ y ∈ c.allNodes, path' x <+: path y → path ch <+: path y

/-- **What an insertion may do**, where `S` holds of the nodes that it splits. -/
structure Grows (S : NodeId → Prop) (c c' : LPRadixCache) (path path' : NodeId → List Token) :
    Prop where
  root : c'.rootNode = c.rootNode
  mem : ∀ n ∈ c.allNodes, n ∈ c'.allNodes
  path_eq : ∀ n ∈ c.allNodes, path' n = path n
  pods_eq : ∀ n ∈ c.allNodes, (c'.heap n).modelToPods = (c.heap n).modelToPods
  refs_eq : ∀ n ∈ c.allNodes, (c'.heap n).refCounterByPod = (c.heap n).refCounterByPod
  new_refs : ∀ x ∈ c'.allNodes, x ∉ c.allNodes → (c'.heap x).refCounterByPod = ∅
  new : ∀ x ∈ c'.allNodes, x ∉ c.allNodes →
    NewLeaf c c' path path' x ∨ ∃ ch, S ch ∧ NewSplit c c' path path' ch x
  splits : ∀ ch, S ch → ∃ x ∈ c'.allNodes, x ∉ c.allNodes ∧ NewSplit c c' path path' ch x

variable {S T : NodeId → Prop} {c c' c'' : LPRadixCache} {path path' path'' : NodeId → List Token}

namespace Grows

lemma of_touch (c : LPRadixCache) (n : NodeId) (now : Time) (path : NodeId → List Token) :
    Grows (fun _ => False) c (c.touch n now) path path :=
  ⟨rfl, fun _ h => h, fun _ _ => rfl, fun m _ => by rw [heap_touch], fun m _ => by rw [heap_touch],
    fun _ h h' => absurd h h', fun _ h h' => absurd h h', fun _ h => h.elim⟩

lemma trans (h : Grows S c c' path path') (h' : Grows T c' c'' path' path'')
    (hT : ∀ n, T n → n ∈ c.allNodes) :
    Grows (fun n => S n ∨ T n) c c'' path path'' := by
  -- a node that is new in the first step looks the same after the second
  have hleaf : ∀ x ∈ c'.allNodes, NewLeaf c c' path path' x → NewLeaf c c'' path path'' x := by
    rintro x hx ⟨hp, hy⟩
    exact ⟨(h'.pods_eq x hx).trans hp, fun y hyc => h'.path_eq x hx ▸ hy y hyc⟩
  have hsplit : ∀ ch, ∀ x ∈ c'.allNodes, NewSplit c c' path path' ch x →
      NewSplit c c'' path path'' ch x := by
    rintro ch x hx ⟨hch, hpre, hp, hy⟩
    refine ⟨hch, h'.path_eq x hx ▸ hpre, (h'.pods_eq x hx).trans hp, fun y hyc => ?_⟩
    rw [h'.path_eq x hx]
    exact hy y hyc
  -- a node that is new in the second step is seen from the first tree
  have hsplit' : ∀ ch, T ch → ∀ x, NewSplit c' c'' path' path'' ch x →
      NewSplit c c'' path path'' ch x := by
    rintro ch hch x ⟨_, hpre, hp, hy⟩
    have hc := hT ch hch
    refine ⟨hc, h.path_eq ch hc ▸ hpre, hp.trans (h.pods_eq ch hc), fun y hyc hxy => ?_⟩
    rw [← h.path_eq ch hc, ← h.path_eq y hyc]
    exact hy y (h.mem y hyc) (by rw [h.path_eq y hyc]; exact hxy)
  refine ⟨h'.root.trans h.root, fun n hn => h'.mem n (h.mem n hn),
    fun n hn => (h'.path_eq n (h.mem n hn)).trans (h.path_eq n hn),
    fun n hn => (h'.pods_eq n (h.mem n hn)).trans (h.pods_eq n hn),
    fun n hn => (h'.refs_eq n (h.mem n hn)).trans (h.refs_eq n hn), ?_, ?_, ?_⟩
  · intro x hx hxc
    by_cases hx' : x ∈ c'.allNodes
    · exact (h'.refs_eq x hx').trans (h.new_refs x hx' hxc)
    · exact h'.new_refs x hx hx'
  · intro x hx hxc
    by_cases hx' : x ∈ c'.allNodes
    · rcases h.new x hx' hxc with hl | ⟨ch, hS, hs⟩
      · exact .inl (hleaf x hx' hl)
      · exact .inr ⟨ch, .inl hS, hsplit ch x hx' hs⟩
    · rcases h'.new x hx hx' with ⟨hp, hy⟩ | ⟨ch, hS, hs⟩
      · refine .inl ⟨hp, fun y hyc => ?_⟩
        rw [← h.path_eq y hyc]
        exact hy y (h.mem y hyc)
      · exact .inr ⟨ch, .inr hS, hsplit' ch hS x hs⟩
  · rintro ch (hS | hS)
    · obtain ⟨x, hx, hxc, hs⟩ := h.splits ch hS
      exact ⟨x, h'.mem x hx, hxc, hsplit ch x hx hs⟩
    · obtain ⟨x, hx, hxc, hs⟩ := h'.splits ch hS
      exact ⟨x, hx, fun hm => hxc (h.mem x hm), hsplit' ch hS x hs⟩

lemma congr (h : Grows S c c' path path') (hST : ∀ n, S n ↔ T n) : Grows T c c' path path' := by
  obtain rfl : S = T := funext fun n => propext (hST n)
  exact h

end Grows

/-! ### One more node -/

/-- The tree `c'` has one node `x` more than `c`; the paths of the old nodes stay. -/
structure Extends (c c' : LPRadixCache) (path path' : NodeId → List Token) (x : NodeId) : Prop where
  root : c'.rootNode = c.rootNode
  allNodes : c'.allNodes = x :: c.allNodes
  nextNodeID : c'.nextNodeID = x + 1
  path_eq : ∀ n ∈ c.allNodes, path' n = path n
  old : ∀ n ∈ c.allNodes, (c'.heap n).contextLength = (c.heap n).contextLength ∧
    ((c.heap n).value = (c.heap n).key → (c'.heap n).value = (c'.heap n).key) ∧
    (c'.heap n).modelToPods = (c.heap n).modelToPods ∧
    (c'.heap n).refCounterByPod = (c.heap n).refCounterByPod
  value_new : (c'.heap x).value = (c'.heap x).key
  context_new : (c'.heap x).contextLength = (path' x).length
  refs_new : (c'.heap x).refCounterByPod = ∅

namespace Extends

lemma wf (h : Extends c c' path path' c.nextNodeID) (hw : WF c path) (htrie : Trie c'.links path') :
    WF c' path' := by
  refine ⟨htrie, ?_, ?_, ?_, ?_⟩
  · intro n hn
    rw [h.allNodes] at hn
    rcases mem_cons.mp hn with rfl | hn
    · exact h.context_new
    · rw [(h.old n hn).1, h.path_eq n hn]
      exact hw.contextLength_eq n hn
  · intro n hn
    rw [h.allNodes] at hn
    rcases mem_cons.mp hn with rfl | hn
    · exact h.value_new
    · exact (h.old n hn).2.1 (hw.value_eq n hn)
  · intro n hn
    rw [h.allNodes] at hn
    rw [h.nextNodeID]
    rcases mem_cons.mp hn with rfl | hn
    · exact Nat.lt_succ_self _
    · exact (hw.lt_nextNodeID n hn).trans (Nat.lt_succ_self _)
  · rw [h.allNodes]
    exact nodup_cons.mpr ⟨hw.next_notMem, hw.nodup⟩

lemma grows (h : Extends c c' path path' c.nextNodeID) (hw : WF c path)
    (hnew : NewLeaf c c' path path' c.nextNodeID ∨
      ∃ ch, S ch ∧ NewSplit c c' path path' ch c.nextNodeID)
    (hS : ∀ ch, S ch → NewSplit c c' path path' ch c.nextNodeID) : Grows S c c' path path' := by
  have heq : ∀ y ∈ c'.allNodes, y ∉ c.allNodes → y = c.nextNodeID := fun y hy hyc =>
    (mem_cons.mp (h.allNodes ▸ hy)).resolve_right hyc
  refine ⟨h.root, fun n hn => ?_, h.path_eq, fun n hn => (h.old n hn).2.2.1,
    fun n hn => (h.old n hn).2.2.2, fun y hy hyc => heq y hy hyc ▸ h.refs_new,
    fun y hy hyc => heq y hy hyc ▸ hnew, fun ch hch => ⟨_, ?_, hw.next_notMem, hS ch hch⟩⟩
  · rw [h.allNodes]
    exact mem_cons_of_mem _ hn
  · rw [h.allNodes]
    exact mem_cons_self

end Extends

lemma WF.ne_next (hw : WF c path) {n : NodeId} (hn : n ∈ c.allNodes) :
    n ≠ c.nextNodeID := fun he => hw.next_notMem (he ▸ hn)

lemma WF.update_path (hw : WF c path) (l : List Token) :
    ∀ n ∈ c.allNodes, update path c.nextNodeID l n = path n :=
  fun _ hn => update_of_ne (hw.ne_next hn) _ _

lemma lookup_insert_eq (l : AList fun _ : Token => NodeId) (a t : Token) (n : NodeId) :
    (l.insert t n).lookup a = if a = t then some n else l.lookup a := by
  split_ifs with h
  · rw [h, AList.lookup_insert]
  · exact AList.lookup_insert_ne h

/-! ### A new leaf -/

section

variable {p : NodeId} {t : Token} {r value : List Token} {now : Time}

lemma heap_addLeaf (hp : p ≠ c.nextNodeID) (n : NodeId) :
    (c.addLeaf p (t :: r) value now).2.heap n = if n = c.nextNodeID then { TreeNode.zero with
        parent := some p
        key := t :: r
        value := value
        load := 1
        lastAccess := now
        depth := (c.heap p).depth + 1
        contextLength := (c.heap p).contextLength + (t :: r).length }
      else if n = p then { c.heap p with children := (c.heap p).children.insert t c.nextNodeID }
      else c.heap n := by
  by_cases hx : n = c.nextNodeID
  · subst hx
    simp [addLeaf, setChild, newTreeNode, modify, hp.symm]
  · by_cases hn : n = p
    · subst hn
      simp [addLeaf, setChild, newTreeNode, modify, hp]
    · simp [addLeaf, setChild, newTreeNode, modify, hx, hn]

lemma links_addLeaf (hp : p ≠ c.nextNodeID) :
    (c.addLeaf p (t :: r) value now).2.links = c.links.addLeaf p c.nextNodeID t r := by
  simp only [links, Links.addLeaf, Links.mk.injEq, heap_addLeaf hp]
  refine ⟨rfl, ?_, ?_, ?_, ?_⟩
  · funext n
    simp [addLeaf, setChild, newTreeNode]
  · funext n
    split_ifs <;> simp_all
  · funext n
    split_ifs <;> simp_all
  · funext n s
    split_ifs <;> simp_all [TreeNode.zero, lookup_insert_eq]

lemma WF.addLeaf (hw : WF c path) (hp : p ∈ c.allNodes) (hc : (c.heap p).children.lookup t = none) :
    WF (c.addLeaf p (t :: r) (t :: r) now).2
        (update path c.nextNodeID (path p ++ t :: r)) ∧
      Grows (fun _ => False) c (c.addLeaf p (t :: r) (t :: r) now).2 path
        (update path c.nextNodeID (path p ++ t :: r)) := by
  have hheap := @heap_addLeaf c p t r (t :: r) now (hw.ne_next hp)
  have hext : Extends c (c.addLeaf p (t :: r) (t :: r) now).2 path
      (update path c.nextNodeID (path p ++ t :: r)) c.nextNodeID := by
    refine ⟨rfl, rfl, rfl, hw.update_path _, fun n hn => ?_, ?_, ?_, ?_⟩
    · rw [hheap, if_neg (hw.ne_next hn)]
      split_ifs with hnp
      · exact hnp ▸ ⟨rfl, id, rfl, rfl⟩
      · exact ⟨rfl, id, rfl, rfl⟩
    · rw [hheap, if_pos rfl]
    · rw [hheap]
      simp [hw.contextLength_eq p hp]
    · rw [hheap, if_pos rfl]
      rfl
  refine ⟨hext.wf hw ?_, hext.grows hw (.inl ⟨?_, fun y hy hpre => ?_⟩) fun _ h => h.elim⟩
  · rw [links_addLeaf (hw.ne_next hp)]
    exact hw.trie.addLeaf hp hw.next_notMem hc
  · rw [hheap, if_pos rfl]
    rfl
  · rw [update_self] at hpre
    have hpt : path p ++ [t] <+: path y := (prefix_append_right_inj _ |>.mpr (by simp)).trans hpre
    obtain ⟨m, hm, _⟩ := hw.trie.descend hp hy hpt
    rw [show c.links.child p t = none from hc] at hm
    simp at hm

end

/-! ### A split edge -/

/-- The key `t :: rest`, given to `insertHelper` at `node`, enters the edge to `child`. -/
structure Enters (c : LPRadixCache) (path : NodeId → List Token) (node : NodeId) (t : Token)
    (child : NodeId) : Prop where
  wf : WF c path
  mem : node ∈ c.allNodes
  lookup : (c.heap node).children.lookup t = some child

section

variable {p ch : NodeId} {t s : Token} {rest u v : List Token} {k : ℕ} {now : Time}
  (hc : Enters c path p t ch)
include hc

lemma Enters.child_mem : ch ∈ c.allNodes := (hc.wf.down hc.mem hc.lookup).1

lemma Enters.parent : (c.heap ch).parent = some p := (hc.wf.down hc.mem hc.lookup).2.2.1

lemma Enters.path_child : path ch = path p ++ (c.heap ch).key :=
  hc.wf.trie.path_child hc.mem hc.lookup

lemma Enters.ne : p ≠ ch := by
  rintro rfl
  exact absurd (hc.wf.trie.parent_shorter hc.child_mem hc.parent).2.2 (lt_irrefl _)

lemma Enters.touch (n : NodeId) (now : Time) : Enters (c.touch n now) path p t ch :=
  ⟨(SameShape.touch c n now).wf hc.wf, hc.mem, by rw [heap_touch]; exact hc.lookup⟩

attribute [local simp] splitNode

lemma heap_splitNode (hd : (c.heap ch).key.drop k = s :: v) (n : NodeId) :
    (c.splitNode (t :: rest) ch k now).2.heap n = if n = c.nextNodeID then { TreeNode.zero with
        parent := some p
        key := (c.heap ch).key.take k
        value := (c.heap ch).value.take k
        children := (∅ : AList fun _ : Token => NodeId).insert s ch
        load := (c.heap ch).load
        lastAccess := now
        depth := (c.heap p).depth + 1
        contextLength := (c.heap p).contextLength + ((c.heap ch).key.take k).length
        modelToPods := (c.heap ch).modelToPods }
      else if n = ch then { c.heap ch with
        key := (c.heap ch).key.drop k
        value := (c.heap ch).value.drop k
        parent := some c.nextNodeID }
      else if n = p then { c.heap p with children := (c.heap p).children.insert t c.nextNodeID }
      else c.heap n := by
  have hpar := hc.parent
  have hp := hc.wf.ne_next hc.mem
  have hch := hc.wf.ne_next hc.child_mem
  have hpch := hc.ne
  by_cases hx : n = c.nextNodeID
  · subst hx
    simp [setChild, newTreeNode, modify, hp.symm, hch.symm, hpar, hd]
  · by_cases hnc : n = ch
    · subst hnc
      simp [setChild, newTreeNode, modify, hpch.symm, hch, hpar]
    · by_cases hn : n = p
      · subst hn
        simp [setChild, newTreeNode, modify, hp, hpch, hpar]
      · simp [setChild, newTreeNode, modify, hx, hn, hnc, hpar]

lemma links_splitNode (htk : (c.heap ch).key.take k = t :: u)
    (hd : (c.heap ch).key.drop k = s :: v) :
    (c.splitNode (t :: rest) ch k now).2.links = c.links.splitEdge p ch c.nextNodeID t u s v := by
  have hch := hc.wf.ne_next hc.child_mem
  have hpch := hc.ne
  simp only [links, Links.splitEdge, Links.mk.injEq, heap_splitNode hc hd]
  refine ⟨by simp [setChild, newTreeNode, hc.parent], ?_, ?_, ?_, ?_⟩
  · funext n
    simp [setChild, newTreeNode, hc.parent]
  · funext n
    simp only [update_apply]
    split_ifs <;> simp_all
  · funext n
    simp only [update_apply]
    split_ifs <;> simp_all
  · funext n a
    split_ifs <;> simp_all [lookup_insert_eq, -AList.insert_empty]

lemma allNodes_splitNode :
    (c.splitNode (t :: rest) ch k now).2.allNodes = c.nextNodeID :: c.allNodes := by
  simp [setChild, newTreeNode, hc.parent]

lemma nextNodeID_splitNode :
    (c.splitNode (t :: rest) ch k now).2.nextNodeID = c.nextNodeID + 1 := by
  simp [setChild, newTreeNode, hc.parent]

lemma lookup_splitNode_new {a : Token} (hd : (c.heap ch).key.drop k = s :: v) (has : a ≠ s) :
    ((c.splitNode (t :: rest) ch k now).2.heap c.nextNodeID).children.lookup a = none := by
  rw [heap_splitNode hc hd, if_pos rfl]
  exact (AList.lookup_insert_ne has).trans (AList.lookup_empty a)

lemma wf_splitNode (htk : (c.heap ch).key.take k = t :: u) (hd : (c.heap ch).key.drop k = s :: v) :
    WF (c.splitNode (t :: rest) ch k now).2
        (update path c.nextNodeID (path p ++ t :: u)) ∧
      Grows (fun n => n = ch) c (c.splitNode (t :: rest) ch k now).2 path
        (update path c.nextNodeID (path p ++ t :: u)) := by
  have hw := hc.wf
  have hkey : (c.heap ch).key = t :: u ++ s :: v := by
    rw [← htk, ← hd, take_append_drop]
  have hheap := @heap_splitNode c path p ch t s rest v k now hc hd
  have hext : Extends c (c.splitNode (t :: rest) ch k now).2 path
      (update path c.nextNodeID (path p ++ t :: u)) c.nextNodeID := by
    refine ⟨by simp [setChild, newTreeNode, hc.parent], allNodes_splitNode hc,
      nextNodeID_splitNode hc, hw.update_path _, fun n hn => ?_, ?_, ?_, ?_⟩
    · rw [hheap, if_neg (hw.ne_next hn)]
      split_ifs with hnc hnp
      · exact hnc ▸ ⟨rfl, fun h => congrArg _ h, rfl, rfl⟩
      · exact hnp ▸ ⟨rfl, id, rfl, rfl⟩
      · exact ⟨rfl, id, rfl, rfl⟩
    · rw [hheap, if_pos rfl]
      exact congrArg _ (hw.value_eq ch hc.child_mem)
    · rw [hheap, htk]
      simp [hw.contextLength_eq p hc.mem]
    · rw [hheap, if_pos rfl]
      rfl
  have hsplit : NewSplit c (c.splitNode (t :: rest) ch k now).2 path
      (update path c.nextNodeID (path p ++ t :: u)) ch c.nextNodeID := by
    refine ⟨hc.child_mem, ?_, by rw [hheap, if_pos rfl], fun y hy hpre => ?_⟩
    · rw [update_self, hc.path_child, prefix_append_right_inj]
      exact ⟨s :: v, hkey.symm⟩
    · rw [update_self] at hpre
      have hpt : path p ++ [t] <+: path y := (prefix_append_right_inj _ |>.mpr (by simp)).trans hpre
      exact hw.trie.under_child hc.mem hy hc.lookup hpt
  refine ⟨hext.wf hw ?_, hext.grows hw (.inr ⟨ch, rfl, hsplit⟩) fun _ h => h ▸ hsplit⟩
  rw [links_splitNode hc htk hd]
  exact hw.trie.splitEdge hc.mem hw.next_notMem hc.lookup hkey

end

/-! ### The recursion of the insertion -/

lemma SameShape.matchedPathFrom_eq {c c' : LPRadixCache} (h : SameShape c c') :
    ∀ (fuel : ℕ) (node : NodeId) (tokens : List Token),
      matchedPathFrom fuel c' node tokens = matchedPathFrom fuel c node tokens := by
  intro fuel
  induction fuel with
  | zero => intro node tokens; rfl
  | succ fuel ih =>
    intro node tokens
    cases tokens with
    | nil => rfl
    | cons t rest =>
      simp only [matchedPathFrom, h.children node]
      cases (c.heap node).children.lookup t with
      | none => rfl
      | some child => simp only [h.key child, ih]

variable {fuel : ℕ} {t : Token} {rest : List Token}

lemma matchedPathFrom_of_none {node : NodeId} (h : (c.heap node).children.lookup t = none) :
    matchedPathFrom (fuel + 1) c node (t :: rest) = [] := by
  simp [matchedPathFrom, h]

lemma matchedPathFrom_of_full {node child : NodeId}
    (h : (c.heap node).children.lookup t = some child)
    (hk : matchLen (c.heap child).key (t :: rest) = (c.heap child).key.length) :
    matchedPathFrom (fuel + 1) c node (t :: rest) = (child, (c.heap child).key.length) ::
        matchedPathFrom fuel c child ((t :: rest).drop (c.heap child).key.length) := by
  simp only [matchedPathFrom, h, hk, if_true]

lemma matchedPathFrom_of_part {node child : NodeId}
    (h : (c.heap node).children.lookup t = some child)
    (hk : matchLen (c.heap child).key (t :: rest) ≠ (c.heap child).key.length) :
    matchedPathFrom (fuel + 1) c node (t :: rest) =
      [(child, matchLen (c.heap child).key (t :: rest))] := by
  simp only [matchedPathFrom, h, hk, if_false]

@[simp] lemma matchedPathFrom_nil (fuel : ℕ) (c : LPRadixCache) (node : NodeId) :
    matchedPathFrom fuel c node [] = [] := by
  cases fuel <;> rfl

lemma WF.mem_of_matchedPathFrom (hw : WF c path) :
    ∀ (fuel : ℕ) (node : NodeId) (tokens : List Token), node ∈ c.allNodes →
      ∀ e ∈ matchedPathFrom fuel c node tokens, e.1 ∈ c.allNodes := by
  intro fuel
  induction fuel with
  | zero => intro node tokens _ e he; simp [matchedPathFrom] at he
  | succ fuel ih =>
    intro node tokens hn e he
    cases tokens with
    | nil => simp [matchedPathFrom] at he
    | cons t rest =>
      cases hc : (c.heap node).children.lookup t with
      | none => simp [matchedPathFrom_of_none hc] at he
      | some child =>
        have hch : child ∈ c.allNodes := (hw.down hn hc).1
        by_cases hk : matchLen (c.heap child).key (t :: rest) = (c.heap child).key.length
        · rw [matchedPathFrom_of_full hc hk] at he
          rcases mem_cons.mp he with rfl | he
          · exact hch
          · exact ih child _ hch e he
        · rw [matchedPathFrom_of_part hc hk] at he
          obtain rfl := List.mem_singleton.mp he
          exact hch

@[simp] lemma Inserted.above_cache (r : Inserted) (key : List Token) (k : ℕ) :
    (r.above key k).cache = r.cache := by
  unfold Inserted.above
  split <;> rfl

@[simp] lemma Inserted.above_node (r : Inserted) (key : List Token) (k : ℕ) :
    (r.above key k).node = r.node := by
  unfold Inserted.above
  split <;> rfl

/-- **The ways through `insertHelper`** on a well-formed tree, with the paths after it.  The keys are
written as concatenations; in `fork` the rest of the key leaves the new node with another token than
the old child, so that the recursive call stores a leaf. -/
inductive Inserts : LPRadixCache → (NodeId → List Token) → NodeId → List Token → (ℕ → Time) →
    Inserted → (NodeId → List Token) → Prop
  | here {c path node now} (hw : WF c path) (hn : node ∈ c.allNodes) :
    Inserts c path node [] now ⟨c.touch node (now 0), node, [], []⟩ path
  | leaf {c path node t rest now} (hw : WF c path) (hn : node ∈ c.allNodes)
      (hc : (c.heap node).children.lookup t = none) :
    Inserts c path node (t :: rest) now
      ⟨((c.touch node (now 0)).addLeaf node (t :: rest) (t :: rest) (now 1)).2, c.nextNodeID, [],
        t :: rest⟩
      (update path c.nextNodeID (path node ++ t :: rest))
  | child {c path node t child rest now} (hc : Enters c path node t child)
      (hkey : (c.heap child).key = t :: rest) :
    Inserts c path node (t :: rest) now
      ⟨(c.touch node (now 0)).touch child (now 1), child, t :: rest, []⟩ path
  | deeper {c path node t child rest k now r path'} (hc : Enters c path node t child)
      (hkey : t :: rest = (c.heap child).key ++ k) (hk : k ≠ [])
      (h : Inserts (c.touch node (now 0)) path child k (fun i => now (i + 1)) r path') :
    Inserts c path node (t :: rest) now (r.above (t :: rest) (c.heap child).key.length) path'
  | split {c path node t child rest s v now} (hc : Enters c path node t child)
      (hkey : (c.heap child).key = t :: rest ++ s :: v) :
    Inserts c path node (t :: rest) now
      ⟨((c.touch node (now 0)).splitNode (t :: rest) child (t :: rest).length (now 1)).2,
        c.nextNodeID, t :: rest, []⟩
      (update path c.nextNodeID (path node ++ t :: rest))
  | fork {c path node t child u s v a w now} (hc : Enters c path node t child)
      (hkey : (c.heap child).key = t :: u ++ s :: v) (has : a ≠ s) :
    Inserts c path node (t :: u ++ a :: w) now
      ⟨((((c.touch node (now 0)).splitNode (t :: u ++ a :: w) child (t :: u).length (now 1)).2.touch
          c.nextNodeID (now 2)).addLeaf c.nextNodeID (a :: w) (a :: w) (now 3)).2,
        c.nextNodeID + 1, t :: u, a :: w⟩
      (update (update path c.nextNodeID (path node ++ t :: u)) (c.nextNodeID + 1)
        (path node ++ t :: u ++ a :: w))

lemma insertHelper_leaf {node : NodeId} {rest value : List Token} {now : ℕ → Time}
    (hc : (c.heap node).children.lookup t = none) :
    insertHelper (fuel + 1) c node (t :: rest) value now =
      ⟨((c.touch node (now 0)).addLeaf node (t :: rest) value (now 1)).2, c.nextNodeID, [],
        t :: rest⟩ := by
  simp only [insertHelper, heap_touch, hc]
  rfl

lemma insertHelper_inserts : ∀ (fuel : ℕ) (c : LPRadixCache) (path : NodeId → List Token)
    (node : NodeId) (key : List Token) (now : ℕ → Time), WF c path → node ∈ c.allNodes →
    key.length < fuel →
    ∃ path', Inserts c path node key now (insertHelper fuel c node key key now) path' := by
  intro fuel
  induction fuel with
  | zero => intro c path node key now _ _ hlt; omega
  | succ fuel ih =>
    intro c path node key now hw hn hlt
    cases key with
    | nil => exact ⟨path, .here hw hn⟩
    | cons t rest =>
      cases hc : (c.heap node).children.lookup t with
      | none =>
        rw [insertHelper_leaf hc]
        exact ⟨_, .leaf hw hn hc⟩
      | some child =>
        have henter : Enters c path node t child := ⟨hw, hn, hc⟩
        obtain ⟨hch, _, _, r, hkey⟩ := hw.down hn hc
        obtain ⟨p, v, w, rfl, rfl, hlen, hdiff⟩ := exists_lcpLen_append r rest
        have hmatch : matchLen (t :: (p ++ v)) (t :: (p ++ w)) = (t :: p).length := by
          rw [matchLen, lcpLen_cons_self, hlen, length_cons]
        have hdrop : (t :: (p ++ w)).drop (t :: p).length = w := by simp
        have henter1 := henter.touch node (now 0)
        simp only [length_cons, length_append] at hlt
        rcases v with _ | ⟨s, v⟩ <;> rcases w with _ | ⟨a, w⟩
        · refine ⟨path, ?_⟩
          rw [append_nil] at hkey hmatch ⊢
          simp only [insertHelper, heap_touch, hc, hkey, hmatch, if_true]
          exact .child henter hkey
        · have hne : (t :: p).length ≠ (t :: (p ++ a :: w)).length := by simp
          obtain ⟨path', hins⟩ := ih (c.touch node (now 0)) path child (a :: w)
            (fun i => now (i + 1)) henter1.wf hch (by rw [length_cons] at hlt ⊢; omega)
          refine ⟨path', ?_⟩
          rw [append_nil] at hkey hmatch
          simp only [insertHelper, heap_touch, hc, hkey, hmatch, if_true, hne, if_false, hdrop]
          have hdeeper := Inserts.deeper henter (by rw [hkey]; rfl) (cons_ne_nil a w) hins
          rwa [hkey] at hdeeper
        · have hne : (t :: p).length ≠ (t :: (p ++ s :: v)).length := by simp
          refine ⟨update path c.nextNodeID (path node ++ t :: p), ?_⟩
          rw [append_nil] at hmatch ⊢
          simp only [insertHelper, heap_touch, hc, hkey, hmatch, hne, if_false, if_true]
          exact .split henter hkey
        · have hne : (t :: p).length ≠ (t :: (p ++ s :: v)).length := by simp
          have hne' : (t :: p).length ≠ (t :: (p ++ a :: w)).length := by simp
          obtain ⟨fuel, rfl⟩ : ∃ f, fuel = f + 1 :=
            Nat.exists_eq_succ_of_ne_zero (by rw [length_cons] at hlt; omega)
          have hlook := @lookup_splitNode_new _ _ _ _ _ s (p ++ a :: w) v (t :: p).length (now 1)
            henter1 a (by rw [heap_touch, hkey]; simp) (hdiff s v a w rfl rfl).symm
          refine ⟨update (update path c.nextNodeID (path node ++ t :: p))
            (c.nextNodeID + 1) (path node ++ t :: p ++ a :: w), ?_⟩
          rw [insertHelper]
          simp only [heap_touch, hc, hkey, hmatch, hne, hne', if_false, hdrop]
          convert Inserts.fork henter hkey (hdiff s v a w rfl rfl).symm using 1
          · rfl
          show (insertHelper (fuel + 1) _ (c.touch node (now 0)).nextNodeID _ _ _).above _ _ = _
          rw [insertHelper_leaf hlook, nextNodeID_splitNode henter1]
          simp [Inserted.above, touch]

section

variable {fuel : ℕ} {node child : NodeId} {t : Token} {rest k : List Token} {now : ℕ → Time}
  {r : Inserted}

lemma splitsFrom_full (hc : (c.heap node).children.lookup t = some child)
    (hkey : t :: rest = (c.heap child).key ++ k) (n : NodeId) :
    SplitsFrom (fuel + 1) c node (t :: rest) n ↔ SplitsFrom fuel c child k n := by
  have hk : matchLen (c.heap child).key (t :: rest) = (c.heap child).key.length :=
    (lcpLen_eq_left_iff _ _).mpr ⟨k, hkey.symm⟩
  rw [SplitsFrom, matchedPathFrom_of_full hc hk, hkey, drop_left]
  constructor
  · rintro ⟨i, hmem, hlt⟩
    rcases mem_cons.mp hmem with he | hmem
    · obtain ⟨rfl, rfl⟩ := Prod.mk.inj he
      exact absurd hlt (lt_irrefl _)
    · exact ⟨i, hmem, hlt⟩
  · rintro ⟨i, hmem, hlt⟩
    exact ⟨i, mem_cons_of_mem _ hmem, hlt⟩

lemma splitsFrom_part (hc : (c.heap node).children.lookup t = some child)
    (hk : ¬ (c.heap child).key <+: t :: rest) (n : NodeId) :
    SplitsFrom (fuel + 1) c node (t :: rest) n ↔ n = child := by
  have hne := mt (lcpLen_eq_left_iff _ _).mp hk
  rw [SplitsFrom, matchedPathFrom_of_part hc hne]
  constructor
  · rintro ⟨i, hmem, -⟩
    exact (Prod.mk.inj (List.mem_singleton.mp hmem)).1
  · rintro rfl
    exact ⟨_, mem_singleton_self _, lt_of_le_of_ne (lcpLen_le_left _ _) hne⟩

lemma Enters.splitNode {u v : List Token} {s : Token} (hc : Enters c path node t child)
    (hkey : (c.heap child).key = t :: u ++ s :: v) (rest : List Token) (now : ℕ → Time) :
    WF ((c.touch node (now 0)).splitNode (t :: rest) child (t :: u).length (now 1)).2
        (update path c.nextNodeID (path node ++ t :: u)) ∧
      Grows (fun n => n = child) c
        ((c.touch node (now 0)).splitNode (t :: rest) child (t :: u).length (now 1)).2 path
        (update path c.nextNodeID (path node ++ t :: u)) ∧
      c.nextNodeID ∈
        ((c.touch node (now 0)).splitNode (t :: rest) child (t :: u).length (now 1)).2.allNodes := by
  obtain ⟨hw, hg⟩ := @wf_splitNode _ _ _ _ _ s rest u v (t :: u).length (now 1)
    (hc.touch node (now 0)) (by rw [heap_touch, hkey, take_left])
    (by rw [heap_touch, hkey, drop_left])
  refine ⟨hw, ((Grows.of_touch c node (now 0) path).trans hg ?_).congr fun n => by simp, ?_⟩
  · rintro _ rfl
    exact hc.child_mem
  · exact mem_cons_self

/-- **What `insertHelper` does**: it keeps the tree well formed, splits exactly the
node in whose edge the key ends or diverges, and returns the node that the key
leads to. -/
lemma Inserts.spec (h : Inserts c path node k now r path') : WF r.cache path' ∧
      (∀ fuel, k.length < fuel → Grows (SplitsFrom fuel c node k) c r.cache path path') ∧
      r.node ∈ r.cache.allNodes ∧ path' r.node = path node ++ k := by
  induction h with
  | @here c path node now hw hn =>
    refine ⟨(SameShape.touch c node (now 0)).wf hw, fun fuel _ => ?_, hn, by simp⟩
    exact (Grows.of_touch c node (now 0) path).congr fun n => by simp [SplitsFrom]
  | @leaf c path node t rest now hw hn hc =>
    obtain ⟨hw', hg⟩ := @WF.addLeaf (c.touch node (now 0)) path node t rest (now 1)
      ((SameShape.touch c node (now 0)).wf hw) hn (by rw [heap_touch]; exact hc)
    refine ⟨hw', fun fuel hlt => ?_, mem_cons_self, update_self _ _ _⟩
    obtain ⟨fuel, rfl⟩ := Nat.exists_eq_add_of_lt hlt
    refine ((Grows.of_touch c node (now 0) path).trans hg fun _ h => h.elim).congr fun n => ?_
    simp [SplitsFrom, matchedPathFrom_of_none hc]
  | @child c path node t child rest now hc hkey =>
    refine ⟨((hc.touch node (now 0)).touch child (now 1)).wf, fun fuel hlt => ?_, hc.child_mem, ?_⟩
    · obtain ⟨fuel, rfl⟩ := Nat.exists_eq_add_of_lt hlt
      refine ((Grows.of_touch c node (now 0) path).trans (Grows.of_touch _ child (now 1) path)
        fun _ h => h.elim).congr fun n => ?_
      rw [splitsFrom_full hc.lookup (by rw [hkey, append_nil])]
      simp [SplitsFrom]
    · exact hc.path_child.trans (congrArg _ hkey)
  | @deeper c path node t child rest k now r path' hc hkey hk h ih =>
    obtain ⟨hw', hg, hmem, hpath⟩ := ih
    have hshape := SameShape.touch c node (now 0)
    rw [Inserted.above_cache, Inserted.above_node]
    refine ⟨hw', fun fuel hlt => ?_, hmem, ?_⟩
    · obtain ⟨fuel, rfl⟩ : ∃ f, fuel = f + 1 := ⟨fuel - 1, by omega⟩
      have hpos : 0 < (c.heap child).key.length := by
        obtain ⟨_, _, _, l, hl⟩ := hc.wf.down hc.mem hc.lookup
        simp [hl]
      have hlen := congrArg List.length hkey
      rw [length_append] at hlen
      refine ((Grows.of_touch c node (now 0) path).trans (hg fuel (by omega)) ?_).congr fun n => ?_
      · rintro n ⟨i, hi, _⟩
        rw [hshape.matchedPathFrom_eq] at hi
        exact hc.wf.mem_of_matchedPathFrom _ _ _ hc.child_mem _ hi
      · rw [splitsFrom_full hc.lookup hkey]
        simp [SplitsFrom, hshape.matchedPathFrom_eq, hshape.key n]
    · rw [hpath, hkey, ← append_assoc]
      exact congrArg (· ++ k) hc.path_child
  | @split c path node t child rest s v now hc hkey =>
    obtain ⟨hw', hg, hmem⟩ := hc.splitNode hkey rest now
    refine ⟨hw', fun fuel hlt => ?_, hmem, update_self _ _ _⟩
    obtain ⟨fuel, rfl⟩ := Nat.exists_eq_add_of_lt hlt
    refine hg.congr fun n => (splitsFrom_part hc.lookup ?_ n).symm
    rw [hkey]
    intro hpre
    simpa using hpre.length_le
  | @fork c path node t child u s v a w now hc hkey has =>
    obtain ⟨hw', hg, hmem⟩ := hc.splitNode hkey (u ++ a :: w) now
    have hc1 := hc.touch node (now 0)
    have hnext := @nextNodeID_splitNode _ _ _ _ _ (u ++ a :: w) (t :: u).length (now 1) hc1
    have hlook := @lookup_splitNode_new _ _ _ _ _ s (u ++ a :: w) v (t :: u).length (now 1) hc1 a
      (by rw [heap_touch, hkey, drop_left]) has
    generalize hc2 : ((c.touch node (now 0)).splitNode (t :: (u ++ a :: w)) child (t :: u).length
      (now 1)).2 = c2 at *
    obtain ⟨hw3, hg3⟩ := @WF.addLeaf (c2.touch c.nextNodeID (now 2)) _ c.nextNodeID a w (now 3)
      ((SameShape.touch c2 c.nextNodeID (now 2)).wf hw') hmem (by rw [heap_touch]; exact hlook)
    have hnext' : (c2.touch c.nextNodeID (now 2)).nextNodeID = c.nextNodeID + 1 := hnext
    rw [hnext', update_self] at hw3 hg3
    simp only [cons_append] at hw3 hg3 ⊢
    rw [hc2]
    refine ⟨hw3, fun fuel hlt => ?_, ?_, ?_⟩
    · obtain ⟨fuel, rfl⟩ := Nat.exists_eq_add_of_lt hlt
      refine ((hg.trans (Grows.of_touch c2 c.nextNodeID (now 2) _) fun _ h => h.elim).trans hg3
        fun _ h => h.elim).congr fun n => ?_
      rw [splitsFrom_part hc.lookup]
      · simp
      · rw [hkey, cons_append, cons_prefix_cons, prefix_append_right_inj, cons_prefix_cons]
        exact fun h => has h.2.1.symm
    · rw [← hnext']
      exact mem_cons_self
    · simp

end

/-- The tokens end or diverge strictly inside the edge to `n`, so that inserting
them splits `n`. -/
def Splits (c : LPRadixCache) (tokens : List Token) (n : NodeId) : Prop :=
  ∃ k, (n, k) ∈ c.matchedPath tokens ∧ k < (c.heap n).key.length

/-- The tree after the insertion that `AddPrefix` starts with. -/
def insert (c : LPRadixCache) (tokens : List Token) (now : ℕ → Time) : Inserted :=
  insertHelper (tokens.length + 1) c c.rootNode tokens tokens now

lemma insert_spec (hw : WF c path) (tokens : List Token) (now : ℕ → Time) :
    ∃ path', WF (c.insert tokens now).cache path' ∧
      Grows (c.Splits tokens) c (c.insert tokens now).cache path path' ∧
      (c.insert tokens now).node ∈ (c.insert tokens now).cache.allNodes ∧
      path' (c.insert tokens now).node = tokens := by
  obtain ⟨path', hins⟩ := insertHelper_inserts (tokens.length + 1) c path c.rootNode tokens now hw
    hw.root_mem (Nat.lt_succ_self _)
  obtain ⟨hw', hg, hmem, hpath⟩ := hins.spec
  rw [hw.path_root] at hpath
  exact ⟨path', hw', hg _ (Nat.lt_succ_self _), hmem, hpath⟩

section

variable {tokens : List Token} {model podIP : String} {now : ℕ → Time} {stamp : NodeId → Time}

lemma addPrefix_empty : c.addPrefix tokens model "" now stamp = c.insert tokens now := rfl

lemma addPrefix_of_ne (hpod : podIP ≠ "") : c.addPrefix tokens model podIP now stamp =
    { c.insert tokens now with
      cache := (c.insert tokens now).cache.modifyAll
        ((c.insert tokens now).cache.ancestors (c.insert tokens now).node)
        fun n nd => nd.initAndUpdateModelPod model podIP (stamp n) } := by
  rw [addPrefix, if_neg hpod]
  rfl

lemma addPrefix_sameShape :
    SameShape (c.insert tokens now).cache (c.addPrefix tokens model podIP now stamp).cache := by
  by_cases hpod : podIP = ""
  · subst hpod
    exact .refl _
  · rw [addPrefix_of_ne hpod]
    exact .of_withoutPods (.modifyAll (fun _ _ => by rfl) _ _)

lemma addPrefix_hasPodForModel (hw : WF (c.insert tokens now).cache path')
    (hmem : (c.insert tokens now).node ∈ (c.insert tokens now).cache.allNodes)
    (hpath : path' (c.insert tokens now).node = tokens) (hpod : podIP ≠ "")
    {n : NodeId} (hn : n ∈ (c.insert tokens now).cache.allNodes) (m p : String) :
    ((c.addPrefix tokens model podIP now stamp).cache.heap n).hasPodForModel m p = true ↔
      ((c.insert tokens now).cache.heap n).hasPodForModel m p = true ∨
        m = model ∧ p = podIP ∧ path' n <+: tokens := by
  have hanc := hw.mem_ancestors_iff hmem n
  rw [hpath] at hanc
  rw [addPrefix_of_ne hpod, heap_modifyAll _ _ _ (hw.nodup_ancestors hmem)]
  by_cases hpre : path' n <+: tokens
  · rw [if_pos (hanc.mpr ⟨hn, hpre⟩)]
    simp [hpre, or_comm]
  · rw [if_neg fun h => hpre (hanc.mp h).2]
    simp [hpre]

end
end LPRadixCache
end Lodestar.Indexer
