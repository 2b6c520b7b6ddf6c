import Mathlib

/-!
# Fleets and their replica sets

A `RayClusterFleet` keeps its clusters in replica sets, one for every template it has had.  The
replica set with the template of the fleet is the new one, the others are old
(`findNewReplicaSet`, `findOldReplicaSets`).

The functions of `pkg/controller/rayclusterfleet/util/fleet.go` that a rollout reads: the sums of
the counts, the fenceposts of a rolling update, the size that the new replica set may have, the
annotations and the orders of the replica sets.

* A template is compared without its hash labels, so `T` is the type of templates without them.
* A specification asks for any number of replicas, so the sums of these wrap around (`int32`).  The
  counts that a status reports are of clusters that exist; they are natural numbers, and so are the
  settings of a rolling update.
-/

namespace Lodestar.Controller

open List

def parseDigits : List Char → Option ℕ
  | [] => none
  | cs => cs.foldlM (fun n c => if c.isDigit then some (10 * n + (c.toNat - 48)) else none) 0

/-- `strconv.ParseInt(text, 10, 64)`. -/
def parseInt (text : String) : Option ℤ :=
  let value : Option ℤ := match text.toList with
    | '-' :: cs => (parseDigits cs).map fun n => -(n : ℤ)
    | '+' :: cs => (parseDigits cs).map fun n => (n : ℤ)
    | cs => (parseDigits cs).map fun n => (n : ℤ)
  value.filter fun v => -(2 ^ 63) ≤ v ∧ v < 2 ^ 63

/-! ### Annotations -/

abbrev Annotations := AList (fun _ : String => String)

def revisionAnnotation : String := "deployment.kubernetes.io/revision"
def revisionHistoryAnnotation : String := "deployment.kubernetes.io/revision-history"
def desiredReplicasAnnotation : String := "deployment.kubernetes.io/desired-replicas"
def maxReplicasAnnotation : String := "deployment.kubernetes.io/max-replicas"
def lastAppliedConfigAnnotation : String := "kubectl.kubernetes.io/last-applied-configuration"
def deprecatedRollbackTo : String := "deprecated.deployment.rollback.to"

/-- The annotations that are not copied between a fleet and its replica sets. -/
def annotationsToSkip : List String :=
  [ lastAppliedConfigAnnotation, revisionAnnotation, revisionHistoryAnnotation,
    desiredReplicasAnnotation, maxReplicasAnnotation, deprecatedRollbackTo]

def skipCopyAnnotation (key : String) : Bool := key ∈ annotationsToSkip

/-- An entry of a map of texts, which is empty where there is none. -/
def Annotations.get (a : Annotations) (key : String) : String := (a.lookup key).getD ""

/-! ### The objects -/

inductive IntOrString where
  | int (value : ℕ)
  | percent (value : ℕ)
  /-- A text that is no percentage. -/
  | malformed (text : String)
  deriving DecidableEq

structure RollingUpdate where
  maxSurge : Option IntOrString
  maxUnavailable : Option IntOrString
  deriving DecidableEq

inductive Strategy where
  | recreate
  | rollingUpdate (rollingUpdate : RollingUpdate)
  | other (type : String)
  deriving DecidableEq

structure ReplicaSet (T : Type) where
  uid : String
  name : String
  creationTimestamp : ℤ
  deletionTimestamp : Option ℤ := none
  generation : ℤ
  annotations : Annotations
  /-- `Spec.Replicas`. -/
  replicas : ℤ
  minReadySeconds : ℤ
  template : T
  /-- `Status.Replicas`. -/
  statusReplicas : ℕ := 0
  availableReplicas : ℕ := 0
  observedGeneration : ℤ := 0

structure FleetStatus where
  observedGeneration : ℤ
  replicas : ℕ
  updatedReplicas : ℕ
  availableReplicas : ℕ
  collisionCount : Option ℕ
  /-- The reason of the condition `Progressing`. -/
  progressing : Option String

structure Fleet (T : Type) where
  uid : String
  name : String
  generation : ℤ
  annotations : Annotations
  /-- `Spec.Replicas`. -/
  replicas : ℕ
  template : T
  strategy : Strategy
  minReadySeconds : ℤ
  revisionHistoryLimit : Option ℕ
  progressDeadlineSeconds : Option ℕ
  status : FleetStatus

/-- A `RayCluster`, with the conditions of its status that are read. -/
structure RayCluster where
  name : String
  /-- The identifier of the replica set that controls it. -/
  controller : Option String
  deletionTimestamp : Option ℤ := none
  /-- The condition `RayClusterProvisioned` is true: all pods have been ready once. -/
  provisioned : Bool
  headPodReady : Bool
  readyWorkerReplicas : ℕ
  desiredWorkerReplicas : ℕ
  deriving DecidableEq

def RayCluster.isRayClusterReady (c : RayCluster) : Bool :=
  c.provisioned && c.headPodReady && c.readyWorkerReplicas = c.desiredWorkerReplicas

inductive PassError where
  /-- `GetScaledValueFromIntOrPercent` has no value. -/
  | invalidIntOrString
  | unsupportedStrategy (type : String)
  | invalidScaleDown (name : String) (before after : ℤ)
  /-- The API server answers with an error. -/
  | api
  deriving DecidableEq

variable {T : Type}

/-! ### Sums -/

/-- A number in the arithmetic of `int32`. -/
def int32 (n : ℤ) : ℤ := n.bmod (2 ^ 32)

lemma int32_of_fits {n : ℤ} (hlow : -2 ^ 31 ≤ n) (hhigh : n < 2 ^ 31) : int32 n = n := by
  unfold int32 Int.bmod
  dsimp only
  split <;> omega

/-- The replicas that the sets ask for. -/
def specified (replicaSets : List (ReplicaSet T)) : ℤ := (replicaSets.map ReplicaSet.replicas).sum

def getReplicaCountForReplicaSets (replicaSets : List (ReplicaSet T)) : ℤ :=
  int32 (specified replicaSets)

def getActualReplicaCountForReplicaSets (replicaSets : List (ReplicaSet T)) : ℤ :=
  (replicaSets.map fun rs => (rs.statusReplicas : ℤ)).sum

def getAvailableReplicaCountForReplicaSets (replicaSets : List (ReplicaSet T)) : ℤ :=
  (replicaSets.map fun rs => (rs.availableReplicas : ℤ)).sum

lemma specified_append (l l' : List (ReplicaSet T)) :
    specified (l ++ l') = specified l + specified l' := by
  simp [specified]

lemma getAvailableReplicaCount_append (l l' : List (ReplicaSet T)) :
    getAvailableReplicaCountForReplicaSets (l ++ l') =
      getAvailableReplicaCountForReplicaSets l + getAvailableReplicaCountForReplicaSets l' := by
  simp [getAvailableReplicaCountForReplicaSets]

@[simp] lemma specified_singleton (rs : ReplicaSet T) : specified [rs] = rs.replicas := by
  simp [specified]

lemma specified_nonneg {l : List (ReplicaSet T)}
    (h : ∀ rs ∈ l, (rs.availableReplicas : ℤ) ≤ rs.replicas) : 0 ≤ specified l := by
  refine List.sum_nonneg fun n hn => ?_
  obtain ⟨rs, hrs, rfl⟩ := mem_map.mp hn
  exact (Int.natCast_nonneg _).trans (h rs hrs)

/-! ### Orders and filters -/

/-- `ReplicaSetsByCreationTimestamp.Less`. -/
def createdBefore (a b : ReplicaSet T) : Bool :=
  if a.creationTimestamp = b.creationTimestamp then a.name < b.name
  else a.creationTimestamp < b.creationTimestamp

def sortByCreationTimestamp (replicaSets : List (ReplicaSet T)) : List (ReplicaSet T) :=
  replicaSets.insertionSort fun a b => ¬ createdBefore b a

lemma sortByCreationTimestamp_perm (l : List (ReplicaSet T)) :
    List.Perm (sortByCreationTimestamp l) l :=
  perm_insertionSort _ l

/-- `Revision`: an object without the annotation has the revision 0. -/
def revision (annotations : Annotations) : Option ℤ :=
  match annotations.lookup revisionAnnotation with
  | none => some 0
  | some text => parseInt text

/-- `ReplicaSetsByRevision.Less`. -/
def revisedBefore (a b : ReplicaSet T) : Bool :=
  match revision a.annotations, revision b.annotations with
  | some v, some w => if v = w then createdBefore a b else v < w
  | _, _ => createdBefore a b

def sortByRevision (replicaSets : List (ReplicaSet T)) : List (ReplicaSet T) :=
  replicaSets.insertionSort fun a b => ¬ revisedBefore b a

lemma sortByRevision_perm (l : List (ReplicaSet T)) : List.Perm (sortByRevision l) l :=
  perm_insertionSort _ l

def filterActiveReplicaSets (replicaSets : List (ReplicaSet T)) : List (ReplicaSet T) :=
  replicaSets.filter fun rs => 0 < rs.replicas

lemma available_filterActive {l : List (ReplicaSet T)}
    (h : ∀ rs ∈ l, (rs.availableReplicas : ℤ) ≤ rs.replicas) :
    getAvailableReplicaCountForReplicaSets (filterActiveReplicaSets l) =
      getAvailableReplicaCountForReplicaSets l := by
  unfold getAvailableReplicaCountForReplicaSets filterActiveReplicaSets
  induction l with
  | nil => rfl
  | cons rs l ih =>
    have hrest := ih fun r hr => h r (mem_cons_of_mem rs hr)
    have hrs := h rs mem_cons_self
    by_cases hactive : 0 < rs.replicas
    · rw [filter_cons_of_pos (by simpa using hactive), map_cons, map_cons,
        sum_cons, sum_cons, hrest]
    · have hzero : (rs.availableReplicas : ℤ) = 0 := by omega
      rw [filter_cons_of_neg (by simpa using hactive), map_cons, sum_cons, hrest, hzero, zero_add]

/-! ### The new replica set and the old ones -/

section

variable [DecidableEq T]

/-- The oldest replica set with the template of the fleet. -/
def findNewReplicaSet (fleet : Fleet T) (rsList : List (ReplicaSet T)) : Option (ReplicaSet T) :=
  (sortByCreationTimestamp rsList).find? fun rs => rs.template = fleet.template

/-- All old replica sets, in the order that the search for the new one leaves. -/
def findOldReplicaSets (fleet : Fleet T) (rsList : List (ReplicaSet T)) : List (ReplicaSet T) :=
  match findNewReplicaSet fleet rsList with
  | none => sortByCreationTimestamp rsList
  | some newRS => (sortByCreationTimestamp rsList).filter fun rs => rs.uid ≠ newRS.uid

variable {fleet : Fleet T} {rsList : List (ReplicaSet T)} {rs : ReplicaSet T}

lemma mem_findOld_iff : rs ∈ findOldReplicaSets fleet rsList ↔
    rs ∈ rsList ∧ ∀ newRS, findNewReplicaSet fleet rsList = some newRS → rs.uid ≠ newRS.uid := by
  have hsorted := (sortByCreationTimestamp_perm rsList).mem_iff (a := rs)
  unfold findOldReplicaSets
  cases findNewReplicaSet fleet rsList with
  | none | some => simp [hsorted]

end

/-! ### Fenceposts -/

def getScaledValueFromIntOrPercent (v : Option IntOrString) (total : ℕ) (roundUp : Bool) :
    Option ℕ :=
  match v with
  | none => none
  | some (.int value) => some value
  | some (.percent value) =>
    some (if roundUp then (value * total + 99) / 100 else value * total / 100)
  | some (.malformed _) => none

/-- Both maxima of a rolling update.  If both are zero, one replica may be unavailable. -/
def resolveFenceposts (r : RollingUpdate) (desired : ℕ) : Option (ℕ × ℕ) := do
  let surge ← getScaledValueFromIntOrPercent (some (r.maxSurge.getD (.int 0))) desired true
  let unavailable ←
    getScaledValueFromIntOrPercent (some (r.maxUnavailable.getD (.int 0))) desired false
  if surge = 0 ∧ unavailable = 0 then some (surge, 1) else some (surge, unavailable)

def maxUnavailable (fleet : Fleet T) : ℕ :=
  match fleet.strategy with
  | .rollingUpdate r =>
    if fleet.replicas = 0 then 0
    else min ((resolveFenceposts r fleet.replicas).getD (0, 0)).2 fleet.replicas
  | _ => 0

def maxSurge (fleet : Fleet T) : ℕ :=
  match fleet.strategy with
  | .rollingUpdate r => ((resolveFenceposts r fleet.replicas).getD (0, 0)).1
  | _ => 0

def newRSNewReplicas (fleet : Fleet T) (allRSs : List (ReplicaSet T)) (newRS : ReplicaSet T) :
    Except PassError ℤ :=
  match fleet.strategy with
  | .rollingUpdate r =>
    match getScaledValueFromIntOrPercent r.maxSurge fleet.replicas true with
    | none => .error .invalidIntOrString
    | some maxSurge =>
      let currentPodCount := getReplicaCountForReplicaSets allRSs
      let maxTotalPods := int32 (fleet.replicas + maxSurge)
      if maxTotalPods ≤ currentPodCount then .ok newRS.replicas
      else
        let scaleUpCount :=
          min (int32 (maxTotalPods - currentPodCount)) (int32 (fleet.replicas - newRS.replicas))
        .ok (int32 (newRS.replicas + scaleUpCount))
  | .recreate => .ok fleet.replicas
  | .other type => .error (.unsupportedStrategy type)

/-- The sums of a rolling update of these replica sets do not wrap around. -/
structure Fits (fleet : Fleet T) (r : RollingUpdate) (allRSs : List (ReplicaSet T)) : Prop where
  nonneg : 0 ≤ specified allRSs
  lt : specified allRSs < 2 ^ 31
  surge : fleet.replicas + (getScaledValueFromIntOrPercent r.maxSurge fleet.replicas true).getD 0 <
    2 ^ 31

/-- **The surge**: during a rolling update whose sums fit, the new size is between the old one and
that of the fleet, and it is the old one or the sum of the sizes stays within the size of the fleet and
the surge. -/
lemma newRSNewReplicas_surge {fleet : Fleet T} {r : RollingUpdate} {allRSs : List (ReplicaSet T)}
    {newRS : ReplicaSet T} {n : ℤ} (hstrategy : fleet.strategy = .rollingUpdate r)
    (hfits : Fits fleet r allRSs) (hpos : 0 ≤ newRS.replicas) (hsize : newRS.replicas ≤ fleet.replicas)
    (h : newRSNewReplicas fleet allRSs newRS = .ok n) :
    (newRS.replicas ≤ n ∧ n ≤ fleet.replicas) ∧ (n ≤ newRS.replicas ∨ ∃ surge,
      getScaledValueFromIntOrPercent r.maxSurge fleet.replicas true = some surge ∧
      specified allRSs - newRS.replicas + n ≤ fleet.replicas + surge) := by
  obtain ⟨hnonneg, hlt, hsurge⟩ := hfits
  simp only [newRSNewReplicas, hstrategy] at h
  split at h
  · cases h
  · next surge heq =>
    rw [heq, Option.getD_some] at hsurge
    rw [getReplicaCountForReplicaSets, int32_of_fits (n := specified allRSs) (by omega) hlt,
      int32_of_fits (n := (fleet.replicas + surge : ℤ)) (by omega) (by omega)] at h
    split at h
    · cases h
      exact ⟨⟨le_rfl, hsize⟩, .inl le_rfl⟩
    · rw [int32_of_fits (n := (fleet.replicas + surge - specified allRSs : ℤ)) (by omega) (by omega),
        int32_of_fits (n := (fleet.replicas - newRS.replicas : ℤ)) (by omega) (by omega),
        int32_of_fits (by omega) (by omega)] at h
      cases h
      exact ⟨by omega, .inr ⟨surge, heq, by omega⟩⟩

/-! ### Annotations of the replica sets -/

def ReplicaSet.annotate (rs : ReplicaSet T) (key value : String) : ReplicaSet T :=
  { rs with annotations := rs.annotations.insert key value }

def setReplicasAnnotations (rs : ReplicaSet T) (desiredReplicas maxReplicas : ℤ) : ReplicaSet T :=
  (rs.annotate desiredReplicasAnnotation (toString desiredReplicas)).annotate
    maxReplicasAnnotation (toString maxReplicas)

def replicasAnnotationsNeedUpdate (rs : ReplicaSet T) (desiredReplicas maxReplicas : ℤ) : Bool :=
  rs.annotations.get desiredReplicasAnnotation ≠ toString desiredReplicas ∨
    rs.annotations.get maxReplicasAnnotation ≠ toString maxReplicas

def maxRevision (replicaSets : List (ReplicaSet T)) : ℤ :=
  replicaSets.foldl (fun max rs => match revision rs.annotations with
    | none => max
    | some v => if max < v then v else max) 0

/-- `copyDeploymentAnnotationsToReplicaSet`, with the flag that tells whether an annotation
changes. -/
def copyDeploymentAnnotationsToReplicaSet (fleet : Fleet T) (rs : ReplicaSet T) :
    Bool × ReplicaSet T :=
  fleet.annotations.entries.foldl (fun acc e =>
    if skipCopyAnnotation e.1 ∨ acc.2.annotations.lookup e.1 = some e.2 then acc
    else (true, acc.2.annotate e.1 e.2)) (false, rs)

/-- The oldest revisions are dropped until the history fits. -/
def dropOldRevisions (limit : ℕ) : List String → ℕ → List String × ℕ
  | [], totalLen => ([], totalLen)
  | r :: rs, totalLen =>
    if limit < totalLen then dropOldRevisions limit rs (totalLen - r.utf8ByteSize - 1)
    else (r :: rs, totalLen)

/-- The history of the revisions that a replica set has served, with one more. -/
def appendRevisionHistory (limit : ℕ) (rs : ReplicaSet T) (oldRevision : String) : ReplicaSet T :=
  let history := rs.annotations.get revisionHistoryAnnotation
  let oldRevisions := history.splitOn ","
  if oldRevisions.headD "" = "" then rs.annotate revisionHistoryAnnotation oldRevision
  else
    let kept := dropOldRevisions limit oldRevisions
      (history.utf8ByteSize + oldRevision.utf8ByteSize + 1)
    if kept.2 ≤ limit then
      rs.annotate revisionHistoryAnnotation (String.intercalate "," (kept.1 ++ [oldRevision]))
    else rs

/-- The replica set gets a higher revision, and the one it had goes to its history. -/
def raiseRevision (limit : ℕ) (rs : ReplicaSet T) (newRevision : ℤ) : ReplicaSet T :=
  let revised := rs.annotate revisionAnnotation (toString newRevision)
  match rs.annotations.lookup revisionAnnotation with
  | none => revised
  | some oldRevision => appendRevisionHistory limit revised oldRevision

/-- `SetNewReplicaSetAnnotations`, with the flag that tells whether an annotation changes. -/
def setNewReplicaSetAnnotations (fleet : Fleet T) (newRS : ReplicaSet T) (newRevision : ℤ)
    (alreadyThere : Bool) (revHistoryLimitInChars : ℕ) : Bool × ReplicaSet T :=
  let copied := copyDeploymentAnnotationsToReplicaSet fleet newRS
  let oldRevision := copied.2.annotations.get revisionAnnotation
  match (if oldRevision = "" then some 0 else parseInt oldRevision) with
  | none => (false, copied.2)
  | some oldRevisionInt =>
    let raised := oldRevisionInt < newRevision
    let newRS :=
      if raised then raiseRevision revHistoryLimitInChars copied.2 newRevision else copied.2
    let desiredReplicas : ℤ := fleet.replicas
    let maxReplicas : ℤ := fleet.replicas + maxSurge fleet
    if alreadyThere then (copied.1 || raised, newRS)
    else (copied.1 || raised || replicasAnnotationsNeedUpdate newRS desiredReplicas maxReplicas,
      setReplicasAnnotations newRS desiredReplicas maxReplicas)

/-- `SetDeploymentRevision`, with the flag that tells whether the annotation changes. -/
def setDeploymentRevision (fleet : Fleet T) (revision : String) : Bool × Fleet T :=
  if fleet.annotations.get revisionAnnotation ≠ revision then
    (true, { fleet with annotations := fleet.annotations.insert revisionAnnotation revision })
  else (false, fleet)

/-! ### What the annotations leave alone

A change of the annotations changes nothing else of a replica set. -/

def ReplicaSet.SameBut (rs rs' : ReplicaSet T) : Prop :=
  ∃ annotations, rs' = { rs with annotations }

lemma ReplicaSet.SameBut.refl (rs : ReplicaSet T) : rs.SameBut rs := ⟨rs.annotations, rfl⟩

lemma ReplicaSet.SameBut.trans {rs rs' rs'' : ReplicaSet T} (h : rs.SameBut rs')
    (h' : rs'.SameBut rs'') : rs.SameBut rs'' := by
  obtain ⟨a, rfl⟩ := h
  obtain ⟨b, rfl⟩ := h'
  exact ⟨b, rfl⟩

lemma ReplicaSet.annotate_sameBut (rs : ReplicaSet T) (key value : String) :
    rs.SameBut (rs.annotate key value) := ⟨_, rfl⟩

lemma copyDeploymentAnnotations_sameBut (fleet : Fleet T) (rs : ReplicaSet T) :
    rs.SameBut (copyDeploymentAnnotationsToReplicaSet fleet rs).2 := by
  unfold copyDeploymentAnnotationsToReplicaSet
  generalize fleet.annotations.entries = entries
  suffices ∀ acc : Bool × ReplicaSet T, rs.SameBut acc.2 → rs.SameBut (entries.foldl
      (fun acc e => if skipCopyAnnotation e.1 ∨ acc.2.annotations.lookup e.1 = some e.2 then acc
        else (true, acc.2.annotate e.1 e.2)) acc).2 from
    this (false, rs) (.refl rs)
  induction entries with
  | nil => exact fun acc h => h
  | cons e entries ih =>
    intro acc h
    rw [foldl_cons]
    refine ih _ ?_
    split
    · exact h
    · exact h.trans (acc.2.annotate_sameBut _ _)

lemma appendRevisionHistory_sameBut (limit : ℕ) (rs : ReplicaSet T) (old : String) :
    rs.SameBut (appendRevisionHistory limit rs old) := by
  unfold appendRevisionHistory
  dsimp only
  split
  · exact rs.annotate_sameBut _ _
  · split
    · exact rs.annotate_sameBut _ _
    · exact .refl rs

lemma raiseRevision_sameBut (limit : ℕ) (rs : ReplicaSet T) (newRevision : ℤ) :
    rs.SameBut (raiseRevision limit rs newRevision) := by
  unfold raiseRevision
  split
  · exact rs.annotate_sameBut _ _
  · exact (rs.annotate_sameBut _ _).trans (appendRevisionHistory_sameBut _ _ _)

lemma setNewReplicaSetAnnotations_sameBut (fleet : Fleet T) (newRS : ReplicaSet T)
    (newRevision : ℤ) (alreadyThere : Bool) (limit : ℕ) :
    newRS.SameBut
      (setNewReplicaSetAnnotations fleet newRS newRevision alreadyThere limit).2 := by
  have hcopy := copyDeploymentAnnotations_sameBut fleet newRS
  have hraised : ∀ (c : Prop) [Decidable c], newRS.SameBut (if c
      then raiseRevision limit (copyDeploymentAnnotationsToReplicaSet fleet newRS).2 newRevision
      else (copyDeploymentAnnotationsToReplicaSet fleet newRS).2) := by
    intro c _
    split
    · exact hcopy.trans (raiseRevision_sameBut _ _ _)
    · exact hcopy
  unfold setNewReplicaSetAnnotations
  dsimp only
  split
  · exact hcopy
  · split
    · exact hraised _
    · exact (hraised _).trans ⟨_, rfl⟩

end Lodestar.Controller
