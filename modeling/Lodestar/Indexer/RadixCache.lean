import Lodestar.Lib.CompressedTrie
import Lodestar.Indexer.TreeNode

/-!
# The radix prefix tree

`LPRadixCache` of `pkg/utils/prefixcacheindexer/tree.go` and the two operations
the Preble router performs on it from outside (`reallocateSubtreeToPod` and the
removal of departed pods in `updatePodSet`).

The heap maps a node number to its record; a number is never used twice, as
`nextNodeID` only grows, so it stands for the pointer.  A node that eviction has
removed stays in the heap with its links cleared, as it does in Go while
somebody holds a pointer to it.

Two things that the source leaves open are arguments here, and every theorem
holds for all of their values: the readings of `time.Now()` (a sequence for the
calls one operation makes) and the order in which `range` visits a map
(`RangeOrder`).  Recursion through pointers takes fuel; `Invariant` shows that
it never runs out.
-/

namespace Lodestar.Indexer

open Lib

/-- The radix tree: the nodes, the root, the registered nodes and the next
number. -/
structure LPRadixCache where
  heap : NodeId → TreeNode
  rootNode : NodeId
  allNodes : List NodeId
  nextNodeID : ℕ

/-- `matchLen`: the number of leading tokens on which `key` and `seq` agree. -/
def matchLen (key seq : List Token) : ℕ := lcpLen key seq

/-- The time after which an unused node is evicted: five minutes. -/
def evictionDuration : Time := 5 * 60 * 1000000000

/-- The order in which `range` visits the node map and, while the subtree of a
node is collected, the children of each node in it. -/
structure RangeOrder where
  nodes : List NodeId → List NodeId
  children : NodeId → NodeId → List NodeId → List NodeId
  nodes_perm : ∀ l, (nodes l).Perm l
  children_perm : ∀ n m l, (children n m l).Perm l

namespace LPRadixCache

def modify (c : LPRadixCache) (n : NodeId) (f : TreeNode → TreeNode) : LPRadixCache :=
  { c with heap := Function.update c.heap n (f (c.heap n)) }

def modifyAll (c : LPRadixCache) (ns : List NodeId) (f : NodeId → TreeNode → TreeNode) :
    LPRadixCache :=
  ns.foldl (fun c n => c.modify n (f n)) c

/-- The nodes a loop `for cur := n; cur != nil; cur = cur.parent` visits. -/
def ancestors (c : LPRadixCache) (n : NodeId) : List NodeId :=
  chainUp (fun m => (c.heap m).parent) ((c.heap n).contextLength + 1) n

def childList (c : LPRadixCache) (n : NodeId) : List NodeId :=
  (c.heap n).children.entries.map Sigma.snd

def newTreeNode (c : LPRadixCache) (parent : Option NodeId) (key value : List Token)
    (now : Time) : NodeId × LPRadixCache :=
  let node : TreeNode := { TreeNode.zero with
    parent := parent
    key := key
    value := value
    load := 1
    lastAccess := now
    depth := match parent with
      | none => 0
      | some p => (c.heap p).depth + 1
    contextLength := match parent with
      | none => 0
      | some p => (c.heap p).contextLength + key.length }
  (c.nextNodeID, { c with
    heap := Function.update c.heap c.nextNodeID node
    nextNodeID := c.nextNodeID + 1 })

/-- `NewLPRadixCache` and `reset`: the tree with only a root. -/
def new (now : Time) : LPRadixCache :=
  let r := newTreeNode ⟨fun _ => TreeNode.zero, 0, [], 0⟩ none [] [] now
  { r.2 with rootNode := r.1, allNodes := [r.1] }

/-- Store `child` under the first token of `key` in the children of `p`. -/
def setChild (c : LPRadixCache) (p : Option NodeId) (key : List Token) (child : NodeId) :
    LPRadixCache :=
  match p, key with
  | some p, t :: _ => c.modify p fun n => { n with children := n.children.insert t child }
  | _, _ => c

/-- `splitNode`: a new node takes over the first `splitLen` tokens of the key of
`child` and a copy of its pods. -/
def splitNode (c : LPRadixCache) (key : List Token) (child : NodeId) (splitLen : ℕ)
    (now : Time) : NodeId × LPRadixCache :=
  let ch := c.heap child
  let (newNode, c) := c.newTreeNode ch.parent (ch.key.take splitLen) (ch.value.take splitLen) now
  let c := c.setChild ch.parent key newNode
  let c := c.modify child fun n => { n with
    key := ch.key.drop splitLen
    value := ch.value.drop splitLen
    parent := some newNode }
  let c := c.modify newNode fun n => { n with
    children := match ch.key.drop splitLen with
      | [] => ∅
      | s :: _ => (∅ : AList fun _ : Token => NodeId).insert s child
    load := ch.load
    modelToPods := ch.modelToPods }
  (newNode, { c with allNodes := newNode :: c.allNodes })

/-- The end of `insertHelper`: no child matches, so a new leaf is stored. -/
def addLeaf (c : LPRadixCache) (node : NodeId) (key value : List Token) (now : Time) :
    NodeId × LPRadixCache :=
  let (newNode, c) := c.newTreeNode (some node) key value now
  let c := c.setChild (some node) key newNode
  (newNode, { c with allNodes := newNode :: c.allNodes })

/-- What `insertHelper` and `AddPrefix` return, with the tree they leave. -/
structure Inserted where
  cache : LPRadixCache
  node : NodeId
  matched : List Token
  unmatched : List Token

/-- The results of an insertion below a node whose key matched `prefixLen`
tokens of `key`. -/
def Inserted.above (r : Inserted) (key : List Token) (prefixLen : ℕ) : Inserted :=
  if 0 < r.matched.length then
    { r with matched := key.take (prefixLen + r.matched.length) }
  else
    { r with matched := key.take prefixLen, unmatched := key.drop prefixLen }

/-- `node.lastAccess = time.Now(); node.load++`. -/
def touch (c : LPRadixCache) (n : NodeId) (now : Time) : LPRadixCache :=
  c.modify n fun nd => { nd with lastAccess := now, load := nd.load + 1 }

/-- `insertHelper`; `now i` is the `i`-th reading of the clock. -/
def insertHelper : ℕ → LPRadixCache → NodeId → List Token → List Token → (ℕ → Time) → Inserted
  | 0, c, node, _, _, _ => ⟨c, node, [], []⟩
  | fuel + 1, c, node, key, value, now =>
    let c := c.touch node (now 0)
    match key with
    | [] => ⟨c, node, [], []⟩
    | t :: _ =>
      match (c.heap node).children.lookup t with
      | some child =>
        let prefixLen := matchLen (c.heap child).key key
        if prefixLen = (c.heap child).key.length then
          if prefixLen = key.length then
            ⟨c.touch child (now 1), child, key, []⟩
          else
            (insertHelper fuel c child (key.drop prefixLen) (value.drop prefixLen)
              fun i => now (i + 1)).above key prefixLen
        else
          let (newNode, c) := c.splitNode key child prefixLen (now 1)
          if prefixLen = key.length then
            ⟨c, newNode, key, []⟩
          else
            (insertHelper fuel c newNode (key.drop prefixLen) (value.drop prefixLen)
              fun i => now (i + 2)).above key prefixLen
      | none =>
        let (newNode, c) := c.addLeaf node key value (now 1)
        ⟨c, newNode, [], key⟩

section

variable (c : LPRadixCache)

/-- `AddPrefix`: insert the tokens, then record the pod on the node and on all
its ancestors; `stamp` is the clock reading at each of them. -/
def addPrefix (tokens : List Token) (model podIP : String)
    (now : ℕ → Time) (stamp : NodeId → Time) : Inserted :=
  let r := insertHelper (tokens.length + 1) c c.rootNode tokens tokens now
  if podIP = "" then r
  else
    let mark (n : NodeId) (nd : TreeNode) := nd.initAndUpdateModelPod model podIP (stamp n)
    { r with cache := r.cache.modifyAll (r.cache.ancestors r.node) mark }

def doesExceededTTL (n : NodeId) (now : Time) : Bool :=
  decide (now - (c.heap n).lastAccess > evictionDuration)

/-- `collectNodeAndChildren`: the search pops from the end of its stack, so the
child pushed last comes first. -/
def collectNodeAndChildren (order : RangeOrder) (n : NodeId) : List NodeId :=
  if n = c.rootNode then []
  else collect (fun m => (order.children n m (c.childList m)).reverse) c.allNodes.length [n]

def evictNode (n : NodeId) : LPRadixCache :=
  if n = c.rootNode then c
  else
    let node := c.heap n
    let c := match node.parent with
      | none => c
      | some p => c.modifyAll (c.ancestors p) fun _ parent => parent.removePodsOf node
    let c := match node.parent, node.key with
      | some p, t :: _ => c.modify p fun nd => { nd with children := nd.children.erase t }
      | _, _ => c
    let c := c.modify n fun nd => { nd with
      parent := none
      children := ∅
      modelToPods := ∅
      value := []
      key := [] }
    { c with allNodes := c.allNodes.erase n }

/-- The nodes that `Evict` collects, in the order in which it evicts them; a node
can occur several times. -/
def nodesToEvict (now : Time) (order : RangeOrder) : List NodeId :=
  (order.nodes c.allNodes).flatMap fun n =>
    if n ≠ c.rootNode ∧ c.doesExceededTTL n now then c.collectNodeAndChildren order n else []

def evict (now : Time) (order : RangeOrder) : LPRadixCache :=
  (c.nodesToEvict now order).foldl evictNode c

end

/-! ### The matcher for one pod -/

/-- What `matchPrefixWithPodHelper` returns: the tree and the caller's array as
the call leaves them, and the node with the matched slice of that array (its
start and its length), if there is one. -/
structure PodMatch where
  cache : LPRadixCache
  array : List Token
  found : Option (NodeId × ℕ × ℕ)

/-- `node.lastAccess = time.Now()` of the matcher. -/
def visit (c : LPRadixCache) (n : NodeId) (now : Time) : LPRadixCache :=
  c.modify n fun nd => { nd with lastAccess := now }

/-- `append(tokens[:i], xs...)` where the array has room: the elements from
position `i` on are overwritten in place. -/
def overwrite (array : List Token) (i : ℕ) (xs : List Token) : List Token :=
  array.take i ++ xs ++ array.drop (i + xs.length)

/-- The part of the matcher after the recursive call: a child whose whole key
matched adds its tokens to the deeper match if it records the pod, and passes the
deeper match on if not. -/
def PodMatch.aboveChild (r : PodMatch) (start prefixLen : ℕ) (child : NodeId) (childHasPod : Bool)
    (fallback : LPRadixCache → List Token → PodMatch) : PodMatch :=
  match r.found with
  | some (deeperNode, s, len) =>
    if childHasPod then
      if len > 0 then
        let deeperMatched := (r.array.drop s).take len
        ⟨r.cache, overwrite r.array (start + prefixLen) deeperMatched,
          some (deeperNode, start, prefixLen + len)⟩
      else ⟨r.cache, r.array, some (child, start, prefixLen)⟩
    else ⟨r.cache, r.array, some (deeperNode, s, len)⟩
  | none => fallback r.cache r.array

/-- `matchPrefixWithPodHelper`, at `node` with the tokens of `array` from
position `start` on. -/
def matchPrefixWithPodHelper : ℕ → LPRadixCache → NodeId → List Token → ℕ → String → String →
    (ℕ → Time) → PodMatch
  | 0, c, _, array, _, _, _, _ => ⟨c, array, none⟩
  | fuel + 1, c, node, array, start, model, podIP, now =>
    let hasPod := (c.heap node).hasPodForModel model podIP
    let fallback (c : LPRadixCache) (array : List Token) : PodMatch :=
      ⟨c, array, if hasPod then some (node, start, 0) else none⟩
    match array.drop start with
    | [] => fallback c array
    | t :: rest =>
      let c := c.visit node (now 0)
      match (c.heap node).children.lookup t with
      | none => fallback c array
      | some child =>
        let prefixLen := matchLen (c.heap child).key (t :: rest)
        if prefixLen > 0 then
          let childHasPod := (c.heap child).hasPodForModel model podIP
          if prefixLen = (c.heap child).key.length then
            if prefixLen = (t :: rest).length then
              if childHasPod then ⟨c, array, some (child, start, prefixLen)⟩
              else fallback c array
            else
              (matchPrefixWithPodHelper fuel c child array (start + prefixLen) model podIP
                fun i => now (i + 1)).aboveChild start prefixLen child childHasPod fallback
          else
            if childHasPod then ⟨c, array, some (child, start, prefixLen)⟩
            else fallback c array
        else fallback c array

/-- The matcher as `GetCacheHitRatioForTargetPod` calls it. -/
def matchPrefixWithPod (c : LPRadixCache) (tokens : List Token) (model podIP : String)
    (now : ℕ → Time) : PodMatch :=
  matchPrefixWithPodHelper (tokens.length + 1) c c.rootNode tokens 0 model podIP now

/-- `GetCacheHitRatioForTargetPod`: the matched percentage. -/
def getCacheHitRatioForTargetPod (c : LPRadixCache) (tokens : List Token) (model podIP : String)
    (now : ℕ → Time) : ℕ :=
  match (c.matchPrefixWithPod tokens model podIP now).found with
  | none => 0
  | some (_, _, len) => if len = 0 then 0 else len * 100 / tokens.length

/-! ### Edits by the router -/

/-- `reallocateSubtreeToPod`: re-home everything below a node. -/
def reallocateSubtreeToPod : ℕ → LPRadixCache → NodeId → String → String → Time → LPRadixCache
  | 0, c, _, _, _, _ => c
  | fuel + 1, c, node, model, podIP, timestamp =>
    (c.childList node).foldl (fun c child => reallocateSubtreeToPod fuel
        (c.modify child fun nd => nd.setOnlyPodForModel model podIP timestamp)
        child model podIP timestamp) c

/-- The largest recorded context length: no path in the tree has more nodes. -/
def maxContextLength (c : LPRadixCache) : ℕ :=
  (c.allNodes.map fun n => (c.heap n).contextLength).foldr max 0

/-- The migration of one node in `rebalanceRecursive`: the node and everything
below it get the pod as the only one of the model. -/
def rehome (c : LPRadixCache) (node : NodeId) (model podIP : String) (timestamp : Time) :
    LPRadixCache :=
  reallocateSubtreeToPod c.maxContextLength
    (c.modify node fun nd => nd.setOnlyPodForModel model podIP timestamp)
    node model podIP timestamp

/-- The loop of `updatePodSet` over the registered nodes. -/
def removeDepartedPods (c : LPRadixCache) (currentPodSet : List String) : LPRadixCache :=
  c.modifyAll c.allNodes fun _ nd => (nd.removePodsNotInSet currentPodSet).1

end LPRadixCache
end Lodestar.Indexer
