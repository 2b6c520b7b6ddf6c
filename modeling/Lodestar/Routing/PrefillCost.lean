import Lodestar.Routing.Histogram

/-!
# Prefill costs of histogram nodes

`getPrefillCost` of `prefix_cache_and_load.go` in exact arithmetic.  `getCurrentAllocationCostPerPod`
adds the cost of a node to a pod once for every model for which the node records the pod, but the cost
has been divided by the number of models, not of pods.  `prefill_shared_iff` says when the parts sum
up to the whole.
-/

namespace Lodestar.Routing

open Indexer

/-- The constants of the formulas for one GPU, in the order of the source. -/
structure GpuTimes where
  linear : ℚ × ℚ
  quadratic : ℚ × ℚ × ℚ
  constant : ℚ
  shortContext : ℚ
  attention : ℚ × ℚ
  attnQuad : ℚ × ℚ × ℚ

namespace GpuTimes

def mistral7BA6000 : GpuTimes :=
  ⟨(0.10842571, 4.209777054806409), (-118, 1.25, 2.56e-3), 22, 0.32, (1.86e-4, 0.159),
    (-7.37, 3.86e-3, 2.16e-6)⟩

def mistral7BV100 : GpuTimes :=
  ⟨(0.27106428, 10.52444263), (-295, 3.125, 6.4e-3), 55, 0.80, (4.65e-4, 0.398),
    (-18.425, 9.65e-3, 5.4e-6)⟩

def llama3A30 : GpuTimes :=
  ⟨(0.22064632, 8.56689631), (-240.13, 2.54375, 5.2096e-3), 44.77, 0.448, (2.418e-4, 0.21465),
    (-13.6345, 7.141e-3, 3.996e-6)⟩

def llama3L20 : GpuTimes :=
  ⟨(0.16264, 6.314665), (-177, 1.875, 3.84e-3), 33, 0.384, (2.232e-4, 0.191),
    (-13.266, 6.948e-3, 3.888e-6)⟩

/-- An unknown GPU counts as a Tesla V100. -/
def ofGpu : String → GpuTimes
  | "A6000" => mistral7BA6000
  | "NVIDIA-A30" => llama3A30
  | "NVIDIA-L20" => llama3L20
  | _ => mistral7BV100

variable (g : GpuTimes)

def linearTime (numBatchedTokens : ℕ) : ℚ :=
  (if 384 ≤ numBatchedTokens then g.linear.1 * numBatchedTokens + g.linear.2
    else if 192 ≤ numBatchedTokens then
      g.quadratic.1 + g.quadratic.2.1 * numBatchedTokens - g.quadratic.2.2 * numBatchedTokens ^ 2
    else g.constant) / 1000

def attentionTime (numReqs totalContext numUniqueKV : ℕ) : ℚ :=
  let numUniqueKV := if numUniqueKV = 0 then totalContext else numUniqueKV
  let forwardTime := g.attention.1 * totalContext + g.attention.2
  (if totalContext ≤ 1024 then g.shortContext
    else if (numUniqueKV : ℚ) / numReqs ≤ 1024 ∧ numReqs * numUniqueKV ≤ 32 * 256 * 2048 then
      forwardTime / 2
    else forwardTime) / 1000

/-- The quadratic part without a sequence length. -/
def calculateAttnQuad (numTokens : ℕ) : ℚ :=
  (if 4096 ≤ numTokens then
    g.attnQuad.1 + g.attnQuad.2.1 * numTokens + g.attnQuad.2.2 * numTokens ^ 2 else 0) / 1000

end GpuTimes

def getModelToPodCount (nd : TreeNode) : ℕ := nd.modelToPods.entries.length

/-- The pods of all models of a node, in the order of the visits; a pod of two models comes twice. -/
def podsOf (nd : TreeNode) : List String := nd.modelToPods.entries.flatMap fun e => e.2.keys

namespace SlidingWindowHistogram

variable (h : SlidingWindowHistogram) (c : LPRadixCache) (targetGPU : String) (node : NodeId)

def missRate : ℚ :=
  if 0 < h.promptTokens.get node then 1 - h.hitTokens.get node / h.promptTokens.get node else 1

def prefillTime : ℚ :=
  let g := GpuTimes.ofGpu targetGPU
  let n := numTokens c node
  (g.linearTime n + g.attentionTime 1 (contextLength c node) n + g.calculateAttnQuad n) / 0.9

def getPrefillCost : ℚ :=
  h.missRate node * h.nodeToCount.get node * prefillTime c targetGPU node /
    getModelToPodCount (c.heap node)

/-- The decoding part of `getNodeCost`; no time per token is ever recorded, so the default counts. -/
def decodeCost (podIP : String) : ℚ :=
  ((c.heap node).refCounterByPod.lookup podIP).getD 0 * h.decodingSize.get node * 0.15

def getNodeCost (podIP : String) : ℚ :=
  h.getPrefillCost c targetGPU node + h.decodeCost c node podIP

/-- `costs[podIP] += cost podIP` for every pod of every model of a node. -/
def addCosts (cost : String → ℚ) (nd : TreeNode) (costs : String → ℚ) : String → ℚ :=
  (podsOf nd).foldl (fun costs podIP => Function.update costs podIP (costs podIP + cost podIP)) costs

def getCurrentAllocationCostPerPod : String → ℚ :=
  h.histogram.keys.foldl
    (fun costs node => addCosts (h.getNodeCost c targetGPU node) (c.heap node) costs) 0

/-- The prefill part of what the loop attributes to the pods of the node. -/
def prefillPart : String → ℚ :=
  addCosts (fun _ => h.getPrefillCost c targetGPU node) (c.heap node) 0

lemma addCosts_add (f g : String → ℚ) (nd : TreeNode) (a b : String → ℚ) :
    addCosts (f + g) nd (a + b) = addCosts f nd a + addCosts g nd b := by
  unfold addCosts
  induction podsOf nd generalizing a b with
  | nil => rfl
  | cons q pods ih =>
    rw [List.foldl_cons, List.foldl_cons, List.foldl_cons, ← ih]
    congr 1
    funext p
    by_cases hp : p = q
    · subst hp
      simp
      ring
    · simp [hp]

lemma addCosts_assoc (f : String → ℚ) (nd : TreeNode) (a b : String → ℚ) :
    addCosts f nd (a + b) = a + addCosts f nd b := by
  have hzero : addCosts 0 nd a = a := by simp [addCosts]
  conv_lhs => rw [← zero_add f, addCosts_add, hzero]

lemma sum_foldl_update (cost : String → ℚ) (S : Finset String) (pods : List String)
    (hS : ∀ p ∈ pods, p ∈ S) (costs : String → ℚ) :
    ∑ p ∈ S, pods.foldl (fun costs podIP => Function.update costs podIP (costs podIP + cost podIP))
      costs p = ∑ p ∈ S, costs p + (pods.map cost).sum := by
  induction pods generalizing costs with
  | nil => simp
  | cons q pods ih =>
    have hupdate : Function.update costs q (costs q + cost q) = costs + Pi.single q (cost q) := by
      funext p
      by_cases hp : p = q
      · subst hp
        simp
      · simp [hp]
    rw [List.foldl_cons, ih (fun p hp => hS p (List.mem_cons_of_mem _ hp)), hupdate]
    simp [Finset.sum_add_distrib,
      hS q List.mem_cons_self, add_assoc]

lemma addCosts_getNodeCost (costs : String → ℚ) :
    addCosts (h.getNodeCost c targetGPU node) (c.heap node) costs =
      h.prefillPart c targetGPU node + addCosts (h.decodeCost c node) (c.heap node) costs := by
  rw [prefillPart, ← addCosts_add, zero_add]
  rfl

/-- What has been added up before stays beside what the loop adds. -/
lemma foldl_addCosts_add (cost : NodeId → String → ℚ) (nodes : List NodeId) (a b : String → ℚ) :
    nodes.foldl (fun costs node => addCosts (cost node) (c.heap node) costs) (a + b) =
      a + nodes.foldl (fun costs node => addCosts (cost node) (c.heap node) costs) b := by
  induction nodes generalizing b with
  | nil => rfl
  | cons node nodes ih => rw [List.foldl_cons, List.foldl_cons, addCosts_assoc, ih]

lemma foldl_addCosts (nodes : List NodeId) (costs : String → ℚ) :
    nodes.foldl (fun costs node => addCosts (h.getNodeCost c targetGPU node) (c.heap node) costs)
        costs =
      (nodes.map (h.prefillPart c targetGPU)).sum +
        nodes.foldl (fun costs node => addCosts (h.decodeCost c node) (c.heap node) costs) costs := by
  induction nodes generalizing costs with
  | nil => simp
  | cons node nodes ih =>
    rw [List.foldl_cons, List.foldl_cons, List.map_cons, List.sum_cons, ih, addCosts_getNodeCost,
      foldl_addCosts_add]
    abel

/-- **The prefill cost is shared among the pods** exactly if the node records as many pods as models,
a pod counted once for each of its models, or if there is no cost to share.  The parts are what the
loop over the nodes gives the pods besides the decoding costs. -/
theorem prefill_shared_iff :
    h.getCurrentAllocationCostPerPod c targetGPU =
      (h.histogram.keys.map (h.prefillPart c targetGPU)).sum + h.histogram.keys.foldl
        (fun costs node => addCosts (h.decodeCost c node) (c.heap node) costs) 0 ∧
    (∀ costs, addCosts (h.getNodeCost c targetGPU node) (c.heap node) costs =
      h.prefillPart c targetGPU node + addCosts (h.decodeCost c node) (c.heap node) costs) ∧
    (∑ p ∈ (podsOf (c.heap node)).toFinset, h.prefillPart c targetGPU node p =
        h.missRate node * h.nodeToCount.get node * prefillTime c targetGPU node ↔
      h.missRate node * h.nodeToCount.get node * prefillTime c targetGPU node = 0 ∨
        0 < getModelToPodCount (c.heap node) ∧
          (podsOf (c.heap node)).length = getModelToPodCount (c.heap node)) := by
  refine ⟨foldl_addCosts h c targetGPU _ 0, addCosts_getNodeCost h c targetGPU node, ?_⟩
  have hsum := sum_foldl_update (fun _ => h.getPrefillCost c targetGPU node)
    (podsOf (c.heap node)).toFinset (podsOf (c.heap node)) (fun p hp => List.mem_toFinset.mpr hp) 0
  rw [prefillPart, addCosts, hsum, getPrefillCost]
  simp only [Pi.zero_apply, Finset.sum_const_zero, zero_add, List.map_const', List.sum_replicate,
    nsmul_eq_mul]
  generalize h.missRate node * h.nodeToCount.get node * prefillTime c targetGPU node = whole
  rcases Nat.eq_zero_or_pos (getModelToPodCount (c.heap node)) with hzero | hpos
  · simp [hzero, eq_comm]
  · have hne : (getModelToPodCount (c.heap node) : ℚ) ≠ 0 := by exact_mod_cast hpos.ne'
    rw [and_iff_right hpos, mul_div_assoc', div_eq_iff hne, mul_comm whole, mul_eq_mul_right_iff,
      Nat.cast_inj, or_comm]

/-- A node with one model and two pods: each of them gets the whole cost. -/
theorem prefill_counted_twice :
    let w := (Window.new 0).run [.tree (.addPrefix ⟨[1, 2], "m", "p", fun _ => 1, fun _ => 1⟩),
      .tree (.addPrefix ⟨[1, 2], "m", "q", fun _ => 2, fun _ => 2⟩), .update 3 1 1 "q" 0]
    w.histogram.missRate 1 * w.histogram.nodeToCount.get 1 * prefillTime w.cache "Tesla-V100" 1 =
        0.062 ∧
      ∑ p ∈ (podsOf (w.cache.heap 1)).toFinset, w.histogram.prefillPart w.cache "Tesla-V100" 1 p =
        0.124 := by
  decide +kernel

end SlidingWindowHistogram
end Lodestar.Routing
