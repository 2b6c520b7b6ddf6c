import Mathlib

/-!
# The nodes of the radix prefix tree

A node of the tree in `pkg/utils/prefixcacheindexer/tree.go`, and its methods.
The pointers of the source are node numbers into a heap, which `RadixCache`
holds; the Go maps are association lists.

Each method that edits the pods of a node is summed up by one lemma on
`hasPodForModel`, the only question the matcher asks of them.
-/

namespace Lodestar.Indexer

abbrev Token := ℤ
abbrev Time := ℤ

/-- The number of a node, standing for the pointer to it. -/
abbrev NodeId := ℕ

/-- The pods of one model, each with its last access time. -/
abbrev PodMap := AList (fun _ : String => Time)

structure TreeNode where
  children : AList (fun _ : Token => NodeId)
  parent : Option NodeId
  value : List Token
  key : List Token
  refCounterByPod : AList (fun _ : String => ℕ)
  load : ℕ
  lastAccess : Time
  /-- Total length of the keys from the root to this node. -/
  contextLength : ℕ
  depth : ℕ
  modelToPods : AList (fun _ : String => PodMap)

namespace TreeNode

/-- The node that `new(TreeNode)` would give: every field empty. -/
def zero : TreeNode where
  children := ∅
  parent := none
  value := []
  key := []
  refCounterByPod := ∅
  load := 0
  lastAccess := 0
  contextLength := 0
  depth := 0
  modelToPods := ∅

section

variable (n : TreeNode)

/-- `HasPodForModel`: does the node record the pod for the model? -/
def hasPodForModel (model podIP : String) : Bool :=
  match n.modelToPods.lookup model with
  | none => false
  | some pods => (pods.lookup podIP).isSome

def initAndUpdateModelPod (model podIP : String) (timestamp : Time) : TreeNode :=
  let pods := (n.modelToPods.lookup model).getD ∅
  { n with modelToPods := n.modelToPods.insert model (pods.insert podIP timestamp) }

/-- `AddOrUpdatePodForModel`, which does the same. -/
def addOrUpdatePodForModel (model podIP : String) (timestamp : Time) : TreeNode :=
  n.initAndUpdateModelPod model podIP timestamp

def incrementRefCounterForPod (podIP : String) : TreeNode :=
  let v := (n.refCounterByPod.lookup podIP).getD 0
  { n with refCounterByPod := n.refCounterByPod.insert podIP (v + 1) }

/-- `DecrementRefCounterForPod`: clamped at zero, and a zero entry is pruned. -/
def decrementRefCounterForPod (podIP : String) : TreeNode :=
  match n.refCounterByPod.lookup podIP with
  | none => n
  | some v =>
    if v > 0 then
      if v - 1 = 0 then { n with refCounterByPod := n.refCounterByPod.erase podIP }
      else { n with refCounterByPod := n.refCounterByPod.insert podIP (v - 1) }
    else n

def getRefCounterForPod (podIP : String) : ℕ :=
  (n.refCounterByPod.lookup podIP).getD 0

/-- `SetOnlyPodForModel`: the pod becomes the only one of the model. -/
def setOnlyPodForModel (model podIP : String) (timestamp : Time) : TreeNode :=
  { n with modelToPods := n.modelToPods.insert model ((∅ : PodMap).insert podIP timestamp) }

end

/-- Put the pods back under the model, or drop the model when none is left. -/
def storePods (m : AList (fun _ : String => PodMap)) (model : String) (pods : PodMap) :
    AList (fun _ : String => PodMap) :=
  if pods.entries.isEmpty then m.erase model else m.insert model pods

/-- `RemovePodsNotInSet`; also says whether a pod was removed. -/
def removePodsNotInSet (n : TreeNode) (currentPodSet : List String) : TreeNode × Bool :=
  let keep (pods : PodMap) : PodMap :=
    pods.keys.foldl (fun acc podIP => if podIP ∈ currentPodSet then acc else acc.erase podIP) pods
  ({ n with modelToPods :=
      n.modelToPods.entries.foldl (fun m e => storePods m e.1 (keep e.2)) n.modelToPods },
    n.modelToPods.entries.any fun e => e.2.keys.any fun podIP => podIP ∉ currentPodSet)

/-- Delete the pods of one model from a table, and the model if none is left. -/
def deletePods (m : AList (fun _ : String => PodMap)) (e : Sigma fun _ : String => PodMap) :
    AList (fun _ : String => PodMap) :=
  match m.lookup e.1 with
  | none => m
  | some parentPods => storePods m e.1 (e.2.keys.foldl (fun acc ip => acc.erase ip) parentPods)

/-- One round of the inner loop of `evictNode`: the pods that `current` records
are deleted from `parent`, and models left without pods are dropped. -/
def removePodsOf (parent current : TreeNode) : TreeNode :=
  { parent with modelToPods := current.modelToPods.entries.foldl deletePods parent.modelToPods }

/-! ### What the edits do to the recorded pods -/

def records (m : AList (fun _ : String => PodMap)) (model podIP : String) : Bool :=
  match m.lookup model with
  | none => false
  | some pods => (pods.lookup podIP).isSome

lemma hasPodForModel_eq (n : TreeNode) (model podIP : String) :
    n.hasPodForModel model podIP = records n.modelToPods model podIP := rfl

section

variable (m : AList (fun _ : String => PodMap))

lemma records_insert (model : String) (pods : PodMap)
    (model' podIP : String) : records (m.insert model pods) model' podIP =
      if model' = model then (pods.lookup podIP).isSome else records m model' podIP := by
  by_cases h : model' = model
  · subst h
    simp [records]
  · simp [records, h]

lemma records_erase (model model' podIP : String) :
    records (m.erase model) model' podIP =
      if model' = model then false else records m model' podIP := by
  by_cases h : model' = model
  · subst h
    simp [records]
  · simp [records, h]

lemma records_storePods (model : String) (pods : PodMap)
    (model' podIP : String) : records (storePods m model pods) model' podIP =
      if model' = model then (pods.lookup podIP).isSome else records m model' podIP := by
  unfold storePods
  split
  · rename_i hempty
    have hpods : pods = ∅ := AList.ext (by simpa using hempty)
    rw [records_erase, hpods]
    simp
  · exact records_insert m model pods model' podIP

end

lemma isSome_lookup_insert (pods : PodMap) (podIP : String) (ts : Time) (podIP' : String) :
    ((pods.insert podIP ts).lookup podIP').isSome =
      (decide (podIP' = podIP) || (pods.lookup podIP').isSome) := by
  by_cases h : podIP' = podIP
  · subst h
    simp
  · simp [h]

lemma lookup_foldl_erase (ips : List String) (podIP : String) (pods : PodMap) :
    ((ips.foldl (fun acc ip => acc.erase ip) pods).lookup podIP).isSome =
      ((pods.lookup podIP).isSome && decide (podIP ∉ ips)) := by
  induction ips generalizing pods with
  | nil => simp
  | cons ip ips ih =>
    rw [List.foldl_cons, ih]
    by_cases h : podIP = ip
    · subst h
      simp
    · simp [h]

@[simp] lemma hasPodForModel_initAndUpdateModelPod (n : TreeNode) (model podIP : String)
    (ts : Time) (model' podIP' : String) :
    (n.initAndUpdateModelPod model podIP ts).hasPodForModel model' podIP' =
      (decide (model' = model ∧ podIP' = podIP) || n.hasPodForModel model' podIP') := by
  rw [hasPodForModel_eq, hasPodForModel_eq, initAndUpdateModelPod, records_insert,
    isSome_lookup_insert]
  by_cases hm : model' = model
  · subst hm
    cases hl : n.modelToPods.lookup model' <;> simp [records, hl]
  · simp [hm]

lemma records_iff (m : AList (fun _ : String => PodMap)) (model podIP : String) :
    records m model podIP = true ↔
      ∃ pods, (⟨model, pods⟩ : Sigma fun _ : String => PodMap) ∈ m.entries ∧ podIP ∈ pods := by
  constructor
  · intro h
    cases hl : m.lookup model with
    | none => simp [records, hl] at h
    | some pods =>
      refine ⟨pods, AList.mem_lookup_iff.mp hl, ?_⟩
      simpa [records, hl, AList.lookup_isSome] using h
  · rintro ⟨pods, he, hp⟩
    have hl : m.lookup model = some pods := AList.mem_lookup_iff.mpr he
    simpa [records, hl, AList.lookup_isSome] using hp

lemma records_deletePods (m : AList (fun _ : String => PodMap))
    (e : Sigma fun _ : String => PodMap) (model podIP : String) :
    records (deletePods m e) model podIP =
      (records m model podIP && decide (e.1 = model → podIP ∉ e.2)) := by
  unfold deletePods
  by_cases hm : model = e.1
  · subst hm
    cases hl : m.lookup e.1 with
    | none => simp [records, hl]
    | some pods =>
      simp only [records_storePods, lookup_foldl_erase]
      simp [records, hl, AList.mem_keys]
  · have hm' : e.1 ≠ model := fun h => hm h.symm
    cases hl : m.lookup e.1 with
    | none => simp [hm']
    | some pods => simp [records_storePods, hm, hm']

lemma records_foldl_deletePods (model podIP : String)
    (es : List (Sigma fun _ : String => PodMap)) (m : AList (fun _ : String => PodMap)) :
    records (es.foldl deletePods m) model podIP =
      (records m model podIP && decide (∀ e ∈ es, e.1 = model → podIP ∉ e.2)) := by
  induction es generalizing m with
  | nil => simp
  | cons e es ih =>
    rw [List.foldl_cons, ih, records_deletePods, Bool.and_assoc]
    simp

@[simp] lemma hasPodForModel_removePodsOf (parent current : TreeNode) (model podIP : String) :
    (parent.removePodsOf current).hasPodForModel model podIP =
      (parent.hasPodForModel model podIP && !current.hasPodForModel model podIP) := by
  rw [hasPodForModel_eq, hasPodForModel_eq, hasPodForModel_eq, removePodsOf,
    records_foldl_deletePods]
  congr 1
  rw [Bool.eq_iff_iff, decide_eq_true_iff, Bool.not_eq_true', ← Bool.not_eq_true, records_iff]
  constructor
  · rintro h ⟨pods, he, hp⟩
    exact h _ he rfl hp
  · rintro h ⟨model', pods⟩ he rfl hp
    exact h ⟨pods, he, hp⟩

lemma removePodsOf_of_empty {parent : TreeNode} (h : parent.modelToPods = ∅)
    (current : TreeNode) : (parent.removePodsOf current).modelToPods = ∅ := by
  show current.modelToPods.entries.foldl deletePods parent.modelToPods = ∅
  rw [h]
  induction current.modelToPods.entries with
  | nil => rfl
  | cons e es ih =>
    have hdel : deletePods ∅ e = ∅ := by simp [deletePods]
    rw [List.foldl_cons, hdel, ih]

attribute [local simp] getRefCounterForPod

lemma getRefCounterForPod_increment (n : TreeNode) (podIP podIP' : String) :
    (n.incrementRefCounterForPod podIP).getRefCounterForPod podIP' =
      n.getRefCounterForPod podIP' + if podIP' = podIP then 1 else 0 := by
  by_cases h : podIP' = podIP
  · subst h
    simp [incrementRefCounterForPod]
  · simp [incrementRefCounterForPod, h]

lemma getRefCounterForPod_decrement (n : TreeNode) (podIP podIP' : String) :
    (n.decrementRefCounterForPod podIP).getRefCounterForPod podIP' =
      n.getRefCounterForPod podIP' - if podIP' = podIP then 1 else 0 := by
  unfold decrementRefCounterForPod
  cases hl : n.refCounterByPod.lookup podIP with
  | none =>
    by_cases h : podIP' = podIP
    · subst h
      simp [hl]
    · simp [h]
  | some v =>
    simp only
    by_cases h : podIP' = podIP
    · subst h
      rcases Nat.eq_zero_or_pos v with rfl | hv
      · simp [hl]
      · rw [if_pos hv]
        by_cases h1 : v - 1 = 0
        · simp [hl, h1]
        · rw [if_neg h1]
          simp [hl]
    · split
      · split
        · simp [AList.lookup_erase_ne h]
        · simp [AList.lookup_insert_ne h]
      · simp

end TreeNode
end Lodestar.Indexer
