import Lodestar.Routing.Preble

/-!
# The sliding-window histogram of the Preble router

`SlidingWindowHistogram` of `pkg/plugins/gateway/algorithms/prefix_cache_and_load.go`.  It
keeps one entry for every routed request of the last three minutes, and sums over these
entries by node: how many there are, how many prompt tokens they had and how many of them
were in the tree already.  Expired entries are subtracted again, entries of evicted nodes
are dropped with the sums of their node, and a change of the pod set drops the entries of
nodes without pods.

The maps of the source give 0 for a missing key; a map here is an association list with
the same default.  `podAllocations` and `avgTimePerTokenPerPod` are never filled and left
out.
-/

namespace Lodestar.Routing

open Indexer Lodestar.Indexer.LPRadixCache

abbrev NodeMap := AList fun _ : NodeId => ℤ

namespace NodeMap

def get (m : NodeMap) (n : NodeId) : ℤ := (m.lookup n).getD 0

/-- `m[n] += v`. -/
def add (m : NodeMap) (n : NodeId) (v : ℤ) : NodeMap := m.insert n (m.get n + v)

lemma get_add (m : NodeMap) (n : NodeId) (v : ℤ) (k : NodeId) :
    (m.add n v).get k = m.get k + if k = n then v else 0 := by
  unfold add get
  by_cases h : k = n
  · subst h
    simp
  · simp [h]

lemma get_erase (m : NodeMap) (n k : NodeId) :
    get (m.erase n) k = if k = n then 0 else m.get k := by
  unfold get
  by_cases h : k = n
  · subst h
    simp
  · simp [h]

end NodeMap

/-- `histogramEntry`.  `added` is the context length of the leaf when the entry was
recorded; the source does not keep it, and no function here reads it. -/
structure HistogramEntry where
  timestamp : Time
  node : NodeId
  leafNode : NodeId
  added : ℕ
  deriving DecidableEq

def slidingWindowPeriod : Time := 3 * 60 * 1000000000

structure SlidingWindowHistogram where
  windowDuration : Time := slidingWindowPeriod
  histogram : NodeMap := ∅
  nodeToCount : NodeMap := ∅
  hitTokens : NodeMap := ∅
  promptTokens : NodeMap := ∅
  decodingSize : NodeMap := ∅
  timestamps : List HistogramEntry := []
  numPods : ℕ := 0
  currentDecodeLengthsPerPod : AList (fun _ : String => ℤ) := ∅
  perNodeTotalDecodeLengths : NodeMap := ∅

namespace SlidingWindowHistogram

variable (h : SlidingWindowHistogram) (c : LPRadixCache)

def contextLength (n : NodeId) : ℕ := (c.heap n).contextLength

def numTokens (n : NodeId) : ℕ := (c.heap n).value.length

def update (timestamp : Time) (node leafNode : NodeId) (podIP : String) (decodingLength : ℤ) :
    SlidingWindowHistogram :=
  { h with
    timestamps := h.timestamps ++ [⟨timestamp, node, leafNode, contextLength c leafNode⟩]
    histogram := h.histogram.add node (contextLength c leafNode)
    nodeToCount := h.nodeToCount.add node 1
    decodingSize := h.decodingSize.insert node decodingLength
    hitTokens := h.hitTokens.add node (contextLength c leafNode - numTokens c leafNode)
    promptTokens := h.promptTokens.add node (contextLength c leafNode)
    currentDecodeLengthsPerPod := h.currentDecodeLengthsPerPod.insert podIP
      ((h.currentDecodeLengthsPerPod.lookup podIP).getD 0 + decodingLength)
    perNodeTotalDecodeLengths := h.perNodeTotalDecodeLengths.add node decodingLength }

def forget (node : NodeId) : SlidingWindowHistogram :=
  { h with
    histogram := h.histogram.erase node
    nodeToCount := h.nodeToCount.erase node
    hitTokens := h.hitTokens.erase node
    promptTokens := h.promptTokens.erase node
    decodingSize := h.decodingSize.erase node }

def removeEvictedNodes (nodes : List NodeId) : SlidingWindowHistogram :=
  let h := { h with timestamps := h.timestamps.filter fun entry => entry.node ∉ nodes }
  nodes.foldl forget h

/-- The entry is still in the window at the given time. -/
def inWindow (currentTime : Time) (entry : HistogramEntry) : Bool :=
  currentTime - h.windowDuration < entry.timestamp

/-- An expired entry is subtracted, by the length that its leaf has now. -/
def expire (entry : HistogramEntry) : SlidingWindowHistogram :=
  let node := entry.node
  let leafNode := entry.leafNode
  let h := { h with
    histogram := h.histogram.add node (-contextLength c leafNode)
    nodeToCount := h.nodeToCount.add node (-1)
    hitTokens := h.hitTokens.add node (-(contextLength c leafNode - numTokens c leafNode))
    promptTokens := h.promptTokens.add node (-contextLength c leafNode) }
  if h.histogram.get node ≤ 0 then h.forget node else h

def removeOldEntries (currentTime : Time) : SlidingWindowHistogram :=
  let step (g : SlidingWindowHistogram) (entry : HistogramEntry) :=
    if h.inWindow currentTime entry then g else g.expire c entry
  { h.timestamps.foldl step h with timestamps := h.timestamps.filter (h.inWindow currentTime) }

end SlidingWindowHistogram

def hasValidPods (nd : TreeNode) (currentPodSet : List String) : Bool :=
  nd.modelToPods.entries.any fun e => e.2.keys.any fun podIP => podIP ∈ currentPodSet

/-! ### The histogram and the tree -/

/-- What the histogram is kept along with: the tree and the number of pods of the router. -/
structure Window where
  cache : LPRadixCache
  histogram : SlidingWindowHistogram := {}
  numPods : ℕ := 0

namespace Window

variable (w : Window)

/-- Some node of the tree records a pod that is not in the set. -/
def podsChanged (currentPodSet : List String) : Bool :=
  w.cache.allNodes.any fun n => ((w.cache.heap n).removePodsNotInSet currentPodSet).2

/-- The pod set has changed, as far as `updatePodSet` can see. -/
def noticesChange (readyPods : List String) : Bool :=
  w.podsChanged readyPods || readyPods.dedup.length ≠ w.numPods

/-- `updatePodSet`, with what it does to the histogram. -/
def updatePodSet (readyPods : List String) : Window :=
  let cache := w.cache.removeDepartedPods readyPods
  if w.noticesChange readyPods then
    { cache := cache
      numPods := readyPods.dedup.length
      histogram := { w.histogram with
        numPods := readyPods.dedup.length
        currentDecodeLengthsPerPod := w.histogram.currentDecodeLengthsPerPod.keys.foldl
          (fun m podIP => if podIP ∈ readyPods then m else m.erase podIP)
          w.histogram.currentDecodeLengthsPerPod
        timestamps := w.histogram.timestamps.filter fun entry =>
          hasValidPods (cache.heap entry.node) readyPods } }
  else { w with cache := cache }

/-- What happens to the histogram and the tree: an operation on the tree, the walk that
attaches a request, a recorded request, a round of expiry, the removal of evicted nodes, and
a change of the pod set. -/
inductive Event where
  | tree (op : TreeOp)
  | attach (leaf : NodeId) (model podIP : String) (now : Time)
  | update (timestamp : Time) (node leafNode : NodeId) (podIP : String) (decodingLength : ℤ)
  | removeOldEntries (currentTime : Time)
  | removeEvictedNodes (nodes : List NodeId)
  | updatePodSet (readyPods : List String)

/-- The state after an event.  A request is recorded for nodes that have been created. -/
def step : Event → Window
  | .tree op => { w with cache := w.cache.step op }
  | .attach leaf model podIP now =>
    { w with cache := Router.attach w.cache leaf model podIP now }
  | .update timestamp node leafNode podIP decodingLength =>
    if leafNode < w.cache.nextNodeID then
      { w with histogram :=
          w.histogram.update w.cache timestamp node leafNode podIP decodingLength }
    else w
  | .removeOldEntries currentTime =>
    { w with histogram := w.histogram.removeOldEntries w.cache currentTime }
  | .removeEvictedNodes nodes => { w with histogram := w.histogram.removeEvictedNodes nodes }
  | .updatePodSet readyPods => w.updatePodSet readyPods

def run (es : List Event) : Window := es.foldl step w

def new (t : Time) : Window := { cache := LPRadixCache.new t }

end Window
end Lodestar.Routing
