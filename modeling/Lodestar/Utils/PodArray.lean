import Mathlib.Data.List.Induction
import Mathlib.Data.List.Sort
import Mathlib.Logic.Function.Basic
import Mathlib.Tactic.Common

/-!
# Pods by deployment

`pod_array.go`.  The pods are sorted by the first places of their deployment names and split where
the name changes.  The sort need not be stable.  Where a run of pods ends, the name of the *next* run
is appended to the list of names, and the last name is appended again behind the loop.

* `Split.Inv.foldl` : the pods of each name are found.
-/

namespace Lodestar.Utils.PodArray

open List Function

structure Pod where
  name : String
  /-- The label `app.kubernetes.io/name`, empty if there is none. -/
  deploymentName : String
  deriving DecidableEq

/-- The maps of the first loop. -/
structure Classes where
  podClasses : String → Option ℕ := fun _ => none
  podIndexes : String → ℕ := fun _ => 0
  seen : ℕ := 0

def Classes.add (c : Classes) (pod : Pod) : Classes :=
  match c.podClasses pod.deploymentName with
  | some idx => { c with podIndexes := update c.podIndexes pod.name idx }
  | none =>
    { podClasses := update c.podClasses pod.deploymentName (some c.seen)
      podIndexes := update c.podIndexes pod.name c.seen
      seen := c.seen + 1 }

def classify (pods : List Pod) : Classes := pods.foldl Classes.add {}

/-- `sort.Slice`, which may order pods of one class at will. -/
structure SortSlice where
  sort : (Pod → ℕ) → List Pod → List Pod
  perm : ∀ key pods, (sort key pods).Perm pods
  sorted : ∀ key pods, (sort key pods).Pairwise (key · ≤ key ·)

/-- The variables of the second loop; `current` is the slice from the offset on. -/
structure Split where
  podsByDeployment : String → List Pod := fun _ => []
  deployments : List String := []
  current : List Pod := []
  lastClass : ℕ
  lastDeploymentName : String

def Split.add (podIndexes : String → ℕ) (s : Split) (pod : Pod) : Split :=
  if podIndexes pod.name ≠ s.lastClass then
    { podsByDeployment := update s.podsByDeployment s.lastDeploymentName s.current
      deployments := s.deployments ++ [pod.deploymentName]
      current := [pod]
      lastClass := podIndexes pod.name
      lastDeploymentName := pod.deploymentName }
  else { s with current := s.current ++ [pod] }

/-- `initDeployments`: the list of names, and the pods of each name. -/
def initDeployments (slice : SortSlice) (pods : List Pod) : List String × (String → List Pod) :=
  let podIndexes := (classify pods).podIndexes
  match slice.sort (fun pod => podIndexes pod.name) pods with
  | [] => ([], fun _ => [])
  | first :: rest =>
    let s := (first :: rest).foldl (Split.add podIndexes)
      { lastClass := podIndexes first.name, lastDeploymentName := first.deploymentName }
    (s.deployments ++ [s.lastDeploymentName],
      update s.podsByDeployment s.lastDeploymentName s.current)

/-- `Indexes` and `ListByIndex`; without pods the index is not built. -/
def indexes (slice : SortSlice) (pods : List Pod) : List String :=
  if pods = [] then [] else (initDeployments slice pods).1

def listByIndex (slice : SortSlice) (pods : List Pod) (deploymentName : String) : List Pod :=
  if pods = [] then [] else (initDeployments slice pods).2 deploymentName

/-! ### The classes -/

structure Classes.Inv (done : List Pod) (c : Classes) : Prop where
  indexes : ∀ pod ∈ done, c.podClasses pod.deploymentName = some (c.podIndexes pod.name)
  inj : ∀ a b i, c.podClasses a = some i → c.podClasses b = some i → a = b
  lt : ∀ a i, c.podClasses a = some i → i < c.seen

lemma Classes.Inv.add {done : List Pod} {c : Classes} (h : c.Inv done) {pod : Pod}
    (hnew : ∀ p ∈ done, p.name ≠ pod.name) : (c.add pod).Inv (done ++ [pod]) := by
  have hindexes := h.indexes
  have hinj := h.inj
  have hlt := h.lt
  unfold Classes.add
  split <;> constructor <;> simp only [update_apply] <;> grind

/-- **Pods of one class** are those with one deployment name. -/
lemma classify_iff {pods : List Pod} (hnames : (pods.map Pod.name).Nodup) {p q : Pod} (hp : p ∈ pods)
    (hq : q ∈ pods) : (classify pods).podIndexes p.name = (classify pods).podIndexes q.name ↔
      p.deploymentName = q.deploymentName := by
  have hinv : (classify pods).Inv pods := by
    clear hp hq
    induction pods using List.reverseRecOn with
    | nil => exact ⟨by simp, by simp [classify], by simp [classify]⟩
    | append_singleton pods pod ih =>
      rw [map_append, nodup_append] at hnames
      rw [classify, foldl_append]
      exact (ih hnames.1).add fun p hp => hnames.2.2 _ (mem_map_of_mem hp) _ (by simp)
  have hp' := hinv.indexes p hp
  have hq' := hinv.indexes q hq
  constructor
  · exact fun heq => hinv.inj _ _ _ hp' (heq ▸ hq')
  · intro heq
    rw [heq] at hp'
    exact Option.some.inj (hp'.symm.trans hq')

/-! ### The runs -/

section

variable {podIndexes : String → ℕ} {first : Pod} {pods done rest : List Pod} {s : Split}

/-- What is known when the pods of `done` have been passed. -/
structure Split.Inv (podIndexes : String → ℕ) (first : Pod) (pods done rest : List Pod) (s : Split) :
    Prop where
  last : ∃ pod ∈ pods, podIndexes pod.name = s.lastClass ∧ pod.deploymentName = s.lastDeploymentName
  before : ∀ pod ∈ done, podIndexes pod.name ≤ s.lastClass
  after : ∀ pod ∈ rest, s.lastClass ≤ podIndexes pod.name
  current : s.current = done.filter (·.deploymentName = s.lastDeploymentName)
  split : ∀ name, name ≠ s.lastDeploymentName →
    s.podsByDeployment name = done.filter (·.deploymentName = name)
  first_le : podIndexes first.name ≤ s.lastClass
  first_notMem : first.deploymentName ∉ s.deployments
  single : s.lastClass = podIndexes first.name → s.deployments = []

variable (hclass : ∀ p ∈ pods, ∀ q ∈ pods,
  podIndexes p.name = podIndexes q.name ↔ p.deploymentName = q.deploymentName)
include hclass

lemma Split.Inv.add {pod : Pod} (h : s.Inv podIndexes first pods done (pod :: rest))
    (hsorted : ∀ p ∈ rest, podIndexes pod.name ≤ podIndexes p.name) (hpod : pod ∈ pods)
    (hdone : ∀ p ∈ done, p ∈ pods) (hfirst : first ∈ pods) :
    (s.add podIndexes pod).Inv podIndexes first pods (done ++ [pod]) rest := by
  obtain ⟨⟨lastPod, hlast, hlastClass, hlastName⟩, hbefore, hafter, hcurrent, hsplit, hle, hnotMem,
    hsingle⟩ := h
  unfold Split.add
  split
  · -- the name is new
    have hnew : ∀ p ∈ done, p.deploymentName ≠ pod.deploymentName := by
      intro p hp heq
      have := (hclass p (hdone p hp) pod hpod).mpr heq
      grind
    have hnil : done.filter (·.deploymentName = pod.deploymentName) = [] := by simpa using hnew
    refine ⟨⟨pod, hpod, rfl, rfl⟩, ?_, hsorted, ?_, fun name hname => ?_, ?_, ?_, ?_⟩
    · grind
    · simp [filter_append, hnil]
    · have hkeep : (done ++ [pod]).filter (·.deploymentName = name) =
          done.filter (·.deploymentName = name) := by
        simpa [filter_append] using fun heq => hname heq.symm
      rw [hkeep]
      by_cases heq : name = s.lastDeploymentName
      · simp [heq, hcurrent]
      · simp [heq, hsplit name heq]
    all_goals grind
  · have hname : pod.deploymentName = s.lastDeploymentName := by
      rw [← hlastName, ← hclass pod hpod lastPod hlast]
      omega
    refine ⟨⟨lastPod, hlast, hlastClass, hlastName⟩, ?_, ?_, ?_, ?_, hle, hnotMem, hsingle⟩ <;> grind

lemma Split.Inv.foldl (h : s.Inv podIndexes first pods done rest)
    (hsorted : rest.Pairwise (podIndexes ·.name ≤ podIndexes ·.name)) (hpods : pods = done ++ rest)
    (hfirst : first ∈ pods) :
    (rest.foldl (Split.add podIndexes) s).Inv podIndexes first pods pods [] := by
  induction rest generalizing done s with
  | nil =>
    rw [append_nil] at hpods
    rwa [hpods] at h ⊢
  | cons pod rest ih =>
    obtain ⟨hle, hsorted⟩ := pairwise_cons.mp hsorted
    have hpod : pod ∈ pods := by simp [hpods]
    refine ih (h.add hclass hle hpod (fun p hp => by simp [hpods, hp]) hfirst) hsorted ?_
    simp [hpods]

end

/-! ### The index -/

/-- Each deployment name of the pods is listed, and none is listed twice. -/
def ListsOnce (names : List String) (pods : List Pod) : Prop :=
  names.Nodup ∧ ∀ name, name ∈ names ↔ ∃ pod ∈ pods, pod.deploymentName = name

/-- The pods of each deployment name are found under it. -/
def Partitions (byName : String → List Pod) (pods : List Pod) : Prop :=
  ∀ name, (byName name).Perm (pods.filter (·.deploymentName = name))

/-- **Which pods have a correct index**: those with at most one deployment name.  The pods of each
name are always found. -/
theorem lists_once_iff (slice : SortSlice) (pods : List Pod) (hnames : (pods.map Pod.name).Nodup) :
    (ListsOnce (indexes slice pods) pods ∧ Partitions (listByIndex slice pods) pods ↔
      ∀ p ∈ pods, ∀ q ∈ pods, p.deploymentName = q.deploymentName) ∧
    Partitions (listByIndex slice pods) pods := by
  by_cases hnil : pods = []
  · subst hnil
    simp [ListsOnce, Partitions, indexes, listByIndex]
  have hperm := slice.perm (fun pod => (classify pods).podIndexes pod.name) pods
  have hsorted := slice.sorted (fun pod => (classify pods).podIndexes pod.name) pods
  cases hsort : slice.sort (fun pod => (classify pods).podIndexes pod.name) pods with
  | nil =>
    rw [hsort] at hperm
    exact absurd hperm.symm.eq_nil hnil
  | cons first rest =>
    rw [hsort] at hperm hsorted
    have hclass : ∀ p ∈ first :: rest, ∀ q ∈ first :: rest, (classify pods).podIndexes p.name =
        (classify pods).podIndexes q.name ↔ p.deploymentName = q.deploymentName :=
      fun p hp q hq => classify_iff hnames (hperm.subset hp) (hperm.subset hq)
    have hfirst_le : ∀ p ∈ first :: rest,
        (classify pods).podIndexes first.name ≤ (classify pods).podIndexes p.name := by
      intro p hp
      rcases mem_cons.mp hp with rfl | hp
      · exact le_rfl
      · exact (pairwise_cons.mp hsorted).1 p hp
    have hstart : Split.Inv (classify pods).podIndexes first (first :: rest) [] (first :: rest)
        { lastClass := (classify pods).podIndexes first.name
          lastDeploymentName := first.deploymentName } :=
      ⟨⟨first, mem_cons_self, rfl, rfl⟩, by simp, hfirst_le, rfl, fun _ _ => rfl, le_rfl, by simp,
        fun _ => rfl⟩
    have hend := hstart.foldl hclass hsorted rfl mem_cons_self
    have hindex : (indexes slice pods, listByIndex slice pods) = initDeployments slice pods := by
      unfold indexes listByIndex
      simp only [if_neg hnil]
    unfold initDeployments at hindex
    simp only [hsort] at hindex
    generalize (first :: rest).foldl (Split.add (classify pods).podIndexes)
      { lastClass := (classify pods).podIndexes first.name
        lastDeploymentName := first.deploymentName } = s at hend hindex
    obtain ⟨hindexes, hlist⟩ := Prod.mk.inj hindex
    have hpartition : Partitions (listByIndex slice pods) pods := by
      intro name
      rw [hlist]
      refine List.Perm.trans ?_ (hperm.filter _)
      by_cases hname : name = s.lastDeploymentName
      · subst hname
        rw [update_self, hend.current]
      · rw [update_of_ne hname, hend.split name hname]
    refine ⟨?_, hpartition⟩
    rw [and_iff_left hpartition, hindexes]
    obtain ⟨lastPod, hlast, hlastClass, hlastName⟩ := hend.last
    have hmem : ∀ p, p ∈ pods ↔ p ∈ first :: rest := fun p => hperm.mem_iff.symm
    constructor
    · rintro ⟨-, hnames⟩
      have hfirst := (hnames first.deploymentName).mpr ⟨first, (hmem _).mpr mem_cons_self, rfl⟩
      rcases mem_append.mp hfirst with hfirst | hfirst
      · exact absurd hfirst hend.first_notMem
      · -- the last class is the first one, so all classes are
        have hsame := (hclass first mem_cons_self lastPod hlast).mpr (by
          rw [hlastName, List.mem_singleton.mp hfirst])
        have hall : ∀ p ∈ first :: rest, p.deploymentName = first.deploymentName := by
          intro p hp
          rw [← hclass p hp first mem_cons_self]
          have := hend.before p hp
          have := hfirst_le p hp
          omega
        grind
    · intro hall
      have hsame : s.lastDeploymentName = first.deploymentName := by grind
      have hempty : s.deployments = [] := hend.single (by grind)
      rw [hempty, hsame]
      refine ⟨by simp, fun name => ?_⟩
      grind

def insertionSlice : SortSlice where
  sort key pods := pods.insertionSort (key · ≤ key ·)
  perm _ _ := List.perm_insertionSort _ _
  sorted _ _ := List.pairwise_insertionSort _ _

theorem lists_once_single : ListsOnce (indexes insertionSlice [⟨"a", "x"⟩, ⟨"b", "x"⟩])
    [⟨"a", "x"⟩, ⟨"b", "x"⟩] ∧ Partitions (listByIndex insertionSlice [⟨"a", "x"⟩, ⟨"b", "x"⟩])
    [⟨"a", "x"⟩, ⟨"b", "x"⟩] :=
  (lists_once_iff insertionSlice _ (by decide)).1.mpr (by decide)

/-- With two names the first is missing and the second is there twice. -/
theorem first_name_missing : indexes insertionSlice [⟨"a", "x"⟩, ⟨"b", "y"⟩] = ["y", "y"] := by
  decide +kernel

end Lodestar.Utils.PodArray
