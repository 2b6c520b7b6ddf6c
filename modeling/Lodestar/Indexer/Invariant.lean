import Lodestar.Indexer.RadixCache

/-!
# The shape of the radix tree

`WF c path` says that the registered nodes of `c` form a compressed trie in
which `path n` spells the tokens from the root to `n`, and that the recorded
context length is the length of that path.  The operations that only edit pods,
counters and times keep it, because they keep the shape (`SameShape`): every
such edit goes through `Same.modify` or `Same.modifyAll`.

For a well-formed tree the loop from a node to the root visits the nodes whose
path starts the path of the node, each once (`WF.mem_ancestors_iff`,
`WF.nodup_ancestors`).
-/

namespace Lodestar.Indexer

open Lib List

namespace TreeNode

/-- What the shape of the tree depends on. -/
def shape (nd : TreeNode) :=
  (nd.key, nd.value, nd.parent, nd.children, nd.contextLength)

/-- What an eviction leaves alone, also on the nodes that it takes out. -/
def persistent (nd : TreeNode) := (nd.refCounterByPod, nd.lastAccess, nd.depth)

/-- What is set when a node is created and never changed. -/
def created (nd : TreeNode) := (nd.contextLength, nd.depth)

/-- Everything but the recorded pods. -/
def withoutPods (nd : TreeNode) : TreeNode := { nd with modelToPods := ∅ }

lemma shape_decrementRefCounterForPod (nd : TreeNode) (podIP : String) :
    (nd.decrementRefCounterForPod podIP).shape = nd.shape := by
  unfold decrementRefCounterForPod
  split
  · rfl
  · split
    · split <;> rfl
    · rfl

end TreeNode

namespace LPRadixCache

/-! ### Reading after writing -/

section

variable (c : LPRadixCache) (n m : NodeId) (f : TreeNode → TreeNode)

@[simp] lemma rootNode_modify : (c.modify n f).rootNode = c.rootNode := rfl
@[simp] lemma allNodes_modify : (c.modify n f).allNodes = c.allNodes := rfl
@[simp] lemma nextNodeID_modify : (c.modify n f).nextNodeID = c.nextNodeID := rfl

@[simp] lemma heap_modify_self : (c.modify n f).heap n = f (c.heap n) := by
  simp [modify]

lemma heap_modify_of_ne {n m : NodeId} (h : m ≠ n) : (c.modify n f).heap m = c.heap m := by
  simp [modify, h]

end

lemma heap_modifyAll (f : NodeId → TreeNode → TreeNode) :
    ∀ (ns : List NodeId) (c : LPRadixCache), ns.Nodup → ∀ m,
      (c.modifyAll ns f).heap m = if m ∈ ns then f m (c.heap m) else c.heap m := by
  intro ns
  induction ns with
  | nil => intro c _ m; rfl
  | cons n ns ih =>
    intro c hnd m
    obtain ⟨hn, hnd⟩ := nodup_cons.mp hnd
    show ((c.modify n (f n)).modifyAll ns f).heap m = _
    rw [ih (c.modify n (f n)) hnd m]
    by_cases hm : m = n
    · subst hm
      simp [hn]
    · simp [hm, heap_modify_of_ne]

lemma modifyAll_eq (f : NodeId → TreeNode → TreeNode) : ∀ (ns : List NodeId) (c : LPRadixCache),
    c.modifyAll ns f = { c with heap := (c.modifyAll ns f).heap } := by
  intro ns
  induction ns with
  | nil => intro c; rfl
  | cons n ns ih => intro c; exact ih (c.modify n (f n))

section

variable (c : LPRadixCache) (ns : List NodeId) (f : NodeId → TreeNode → TreeNode)

@[simp] lemma rootNode_modifyAll : (c.modifyAll ns f).rootNode = c.rootNode := by
  rw [modifyAll_eq]

@[simp] lemma allNodes_modifyAll : (c.modifyAll ns f).allNodes = c.allNodes := by
  rw [modifyAll_eq]

@[simp] lemma nextNodeID_modifyAll : (c.modifyAll ns f).nextNodeID = c.nextNodeID := by
  rw [modifyAll_eq]

end

/-! ### Edits that keep the shape -/

lemma field_modify {α : Type*} (g : TreeNode → α) (c : LPRadixCache) (n m : NodeId)
    {f : TreeNode → TreeNode} (hf : ∀ nd, g (f nd) = g nd) :
    g ((c.modify n f).heap m) = g (c.heap m) := by
  by_cases hm : m = n
  · subst hm
    rw [heap_modify_self, hf]
  · rw [heap_modify_of_ne _ _ hm]

/-- Two trees with the same nodes, which agree on what `g` reads of them. -/
structure Same {α : Type*} (g : TreeNode → α) (c c' : LPRadixCache) : Prop where
  rootNode : c'.rootNode = c.rootNode
  allNodes : c'.allNodes = c.allNodes
  nextNodeID : c'.nextNodeID = c.nextNodeID
  heap : ∀ n, g (c'.heap n) = g (c.heap n)

namespace Same

variable {α : Type*} {g : TreeNode → α} {c c' c'' : LPRadixCache}

lemma refl (g : TreeNode → α) (c : LPRadixCache) : Same g c c := ⟨rfl, rfl, rfl, fun _ => rfl⟩

lemma trans (h : Same g c c') (h' : Same g c' c'') : Same g c c'' :=
  ⟨h'.rootNode.trans h.rootNode, h'.allNodes.trans h.allNodes, h'.nextNodeID.trans h.nextNodeID,
    fun n => (h'.heap n).trans (h.heap n)⟩

lemma modify (c : LPRadixCache) (n : NodeId) {f : TreeNode → TreeNode}
    (hf : ∀ nd, g (f nd) = g nd) : Same g c (c.modify n f) :=
  ⟨rfl, rfl, rfl, fun m => field_modify g c n m hf⟩

lemma modifyAll {f : NodeId → TreeNode → TreeNode} (hf : ∀ n nd, g (f n nd) = g nd) :
    ∀ (ns : List NodeId) (c : LPRadixCache), Same g c (c.modifyAll ns f) := by
  intro ns
  induction ns with
  | nil => exact fun c => refl g c
  | cons n ns ih => exact fun c => (modify c n (hf n)).trans (ih (c.modify n (f n)))

end Same

/-- Two trees that differ only in pods, counters and times. -/
abbrev SameShape : LPRadixCache → LPRadixCache → Prop := Same TreeNode.shape

namespace SameShape

variable {c c' : LPRadixCache}

section

variable (h : SameShape c c') (n : NodeId)
include h

lemma key : (c'.heap n).key = (c.heap n).key := congrArg Prod.fst (h.heap n)

lemma value : (c'.heap n).value = (c.heap n).value := congrArg (·.2.1) (h.heap n)

lemma parent : (c'.heap n).parent = (c.heap n).parent := congrArg (·.2.2.1) (h.heap n)

lemma children : (c'.heap n).children = (c.heap n).children := congrArg (·.2.2.2.1) (h.heap n)

lemma contextLength : (c'.heap n).contextLength = (c.heap n).contextLength :=
  congrArg (·.2.2.2.2) (h.heap n)

end

lemma of_withoutPods (h : Same TreeNode.withoutPods c c') : SameShape c c' := by
  refine ⟨h.rootNode, h.allNodes, h.nextNodeID, fun n => ?_⟩
  show (c'.heap n).withoutPods.shape = (c.heap n).withoutPods.shape
  rw [h.heap]

lemma refl (c : LPRadixCache) : SameShape c c := Same.refl _ c

lemma touch (c : LPRadixCache) (n : NodeId) (now : Time) : SameShape c (c.touch n now) :=
  Same.modify c n fun _ => rfl

end SameShape

/-! ### The shape invariant -/

def links (c : LPRadixCache) : Links NodeId Token where
  root := c.rootNode
  nodes n := n ∈ c.allNodes
  key n := (c.heap n).key
  parent n := (c.heap n).parent
  child n t := (c.heap n).children.lookup t

/-- **The tree is well formed** and `path` gives the tokens on the way to each
registered node. -/
structure WF (c : LPRadixCache) (path : NodeId → List Token) : Prop where
  trie : Trie c.links path
  contextLength_eq : ∀ n ∈ c.allNodes, (c.heap n).contextLength = (path n).length
  value_eq : ∀ n ∈ c.allNodes, (c.heap n).value = (c.heap n).key
  lt_nextNodeID : ∀ n ∈ c.allNodes, n < c.nextNodeID
  nodup : c.allNodes.Nodup

namespace SameShape

variable {c c' : LPRadixCache}

lemma links_eq (h : SameShape c c') : c'.links = c.links := by
  have hk : (fun n => (c'.heap n).key) = fun n => (c.heap n).key := funext fun n => h.key n
  have hp : (fun n => (c'.heap n).parent) = fun n => (c.heap n).parent :=
    funext fun n => h.parent n
  have hc : (fun n (t : Token) => (c'.heap n).children.lookup t) =
      fun n t => (c.heap n).children.lookup t :=
    funext fun n => by rw [h.children n]
  simp [links, h.rootNode, h.allNodes, hk, hp, hc]

lemma wf (h : SameShape c c') {path : NodeId → List Token} (hw : WF c path) : WF c' path := by
  refine ⟨h.links_eq ▸ hw.trie, ?_, ?_, ?_, h.allNodes ▸ hw.nodup⟩ <;> intro n hn <;>
    rw [h.allNodes] at hn
  · rw [h.contextLength n]
    exact hw.contextLength_eq n hn
  · rw [h.value n, h.key n]
    exact hw.value_eq n hn
  · rw [h.nextNodeID]
    exact hw.lt_nextNodeID n hn

end SameShape

lemma WF.new (now : Time) : WF (LPRadixCache.new now) (fun _ => []) := by
  have hall : (LPRadixCache.new now).allNodes = [0] := rfl
  have hnd : (LPRadixCache.new now).heap 0 = { TreeNode.zero with load := 1, lastAccess := now } := by
    simp [LPRadixCache.new, newTreeNode, TreeNode.zero]
  refine ⟨⟨by simp [links, LPRadixCache.new], rfl, ?_, ?_, ?_⟩, ?_, ?_, ?_, ?_⟩
  · show ((LPRadixCache.new now).heap 0).parent = none
    rfl
  · intro n hn hr
    obtain rfl : n = 0 := by simpa [links, hall] using hn
    exact absurd rfl hr
  · intro p t n hp hc
    obtain rfl : p = 0 := by simpa [links, hall] using hp
    simp [links, hnd, TreeNode.zero] at hc
  · intro n hn
    obtain rfl : n = 0 := by simpa [hall] using hn
    rfl
  · intro n hn
    obtain rfl : n = 0 := by simpa [hall] using hn
    rfl
  · intro n hn
    obtain rfl : n = 0 := by simpa [hall] using hn
    exact Nat.one_pos
  · simp [hall]

/-! ### The chain of ancestors -/

namespace WF

variable {c : LPRadixCache} {path : NodeId → List Token}

section

variable (hw : WF c path)
include hw

lemma mem_ancestors_iff {n : NodeId} (hn : n ∈ c.allNodes) (m : NodeId) :
    m ∈ c.ancestors n ↔ m ∈ c.allNodes ∧ path m <+: path n := by
  have hlt : (path n).length < (c.heap n).contextLength + 1 := by
    rw [hw.contextLength_eq n hn]
    omega
  exact hw.trie.mem_chainUp_iff _ hn hlt m

lemma nodup_ancestors {n : NodeId} (hn : n ∈ c.allNodes) : (c.ancestors n).Nodup :=
  hw.trie.nodup_chainUp _ hn

lemma down {p n : NodeId} {t : Token} (hp : p ∈ c.allNodes)
    (hc : (c.heap p).children.lookup t = some n) : n ∈ c.allNodes ∧ n ≠ c.rootNode ∧
      (c.heap n).parent = some p ∧ ∃ r, (c.heap n).key = t :: r :=
  hw.trie.down p t n hp hc

lemma root_mem : c.rootNode ∈ c.allNodes := hw.trie.root_mem

lemma path_root : path c.rootNode = [] := hw.trie.path_root

lemma next_notMem : c.nextNodeID ∉ c.allNodes := fun h =>
  absurd (hw.lt_nextNodeID _ h) (lt_irrefl _)

end
end WF
end LPRadixCache
end Lodestar.Indexer
