import Lodestar.Controller.ReplicaSets
import Lodestar.Lib.Routine

/-!
# The calls of a pass

What a pass over a fleet does with its replica sets, as `pkg/controller/rayclusterfleet/sync.go`
does it: it looks for the new replica set and creates it where it is missing (`getNewReplicaSet`),
writes new sizes (`scaleReplicaSet`) and deletes old replica sets (`cleanupDeployment`).

A pass is a routine over the list of the calls that it has made so far.  The answers of the API
server are arguments: a write may fail, and it may also take effect though its answer is an error.
The writes of the status at the end of a pass change no replica set and are left out.
-/

namespace Lodestar.Controller

open Lib (Routine)
open Lib.Routine

/-! ### The API server -/

inductive WriteOutcome where
  | applied
  /-- The write takes effect, but its answer gets lost. -/
  | lost
  | rejected
  | notFound
  deriving DecidableEq

def WriteOutcome.takesEffect : WriteOutcome → Bool
  | .applied | .lost => true
  | .rejected | .notFound => false

inductive CreateAnswer (T : Type) where
  | created (uid : String) (creationTimestamp : ℤ)
  /-- There is an object with this name; `found` is what reading it gives, with the answer to
  whether the fleet controls it. -/
  | alreadyExists (found : Option (Bool × ReplicaSet T))
  | failed

structure Api (T : Type) where
  /-- The answer to the `n`-th update or deletion of a replica set. -/
  write : ℕ → WriteOutcome
  create : CreateAnswer T
  /-- Whether the status of the fleet can be written. -/
  updateStatus : Bool
  /-- `ComputeHash`. -/
  hash : T → Option ℕ → String

inductive Call (T : Type) where
  | update (sent : ReplicaSet T) (outcome : WriteOutcome)
  | delete (rs : ReplicaSet T) (outcome : WriteOutcome)

structure Pass (T : Type) where
  calls : List (Call T) := []
  /-- The replica set that has been sent for creation. -/
  created : Option (ReplicaSet T) := none

variable {T : Type}

def Pass.call (p : Pass T) (c : Call T) : Pass T := { p with calls := p.calls ++ [c] }

def Pass.create (p : Pass T) (rs : ReplicaSet T) : Pass T := { p with created := some rs }

abbrev PassM (T : Type) := Routine PassError (Pass T)

section

variable (api : Api T)

/-- `r.Update(ctx, rs)`. -/
def update (sent : ReplicaSet T) : PassM T Unit := do
  let p ← get
  let outcome := api.write p.calls.length
  modify fun p => p.call (.update sent outcome)
  if outcome = .applied then pure () else throw (.raised .api)

/-- `r.Delete(ctx, rs)`; that there is no such replica set is no error. -/
def delete (rs : ReplicaSet T) : PassM T Unit := do
  let p ← get
  let outcome := api.write p.calls.length
  modify fun p => p.call (.delete rs outcome)
  if outcome = .applied ∨ outcome = .notFound then pure () else throw (.raised .api)

/-- `r.Status().Update(ctx, d)`. -/
def updateStatus : PassM T Unit :=
  if api.updateStatus then pure () else throw (.raised .api)

/-! ### Sizes -/

section

variable (fleet : Fleet T) (rs : ReplicaSet T) (newScale : ℤ)

/-- The copy of a replica set that is sent with its new size. -/
def resized : ReplicaSet T :=
  setReplicasAnnotations { rs with replicas := newScale } fleet.replicas
    (fleet.replicas + maxSurge fleet)

/-- The new size is written to a copy.  The replica set that is returned is the one that was given,
with its old size. -/
def scaleReplicaSet :
    PassM T (Bool × ReplicaSet T) := do
  let sizeNeedsUpdate : Bool := rs.replicas ≠ newScale
  let annotationsNeedUpdate :=
    replicasAnnotationsNeedUpdate rs fleet.replicas (fleet.replicas + maxSurge fleet)
  if sizeNeedsUpdate || annotationsNeedUpdate then
    update api (resized fleet rs newScale)
    pure (sizeNeedsUpdate, rs)
  else
    pure (false, rs)

def scaleReplicaSetAndRecordEvent : PassM T (Bool × ReplicaSet T) :=
  if rs.replicas = newScale then pure (false, rs) else scaleReplicaSet api fleet rs newScale

end

/-! ### The new replica set -/

def maxRevHistoryLengthInChars : ℕ := 2000

def hasProgressDeadline (fleet : Fleet T) : Bool :=
  fleet.progressDeadlineSeconds.any (· ≠ 2 ^ 31 - 1)

def foundNewRSReason : String := "FoundNewReplicaSet"
def newReplicaSetReason : String := "NewReplicaSetCreated"

section

variable (fleet : Fleet T)

/-- The condition `Progressing` of the fleet gets a reason. -/
def setProgressing (reason : String) : Fleet T :=
  { fleet with status := { fleet.status with progressing := some reason } }

/-- The new replica set before it is created, without any replicas. -/
def blankReplicaSet (uid : String) (creationTimestamp : ℤ) : ReplicaSet T where
  uid := uid
  name := fleet.name ++ "-" ++ api.hash fleet.template fleet.status.collisionCount
  creationTimestamp := creationTimestamp
  generation := 0
  annotations := ∅
  replicas := 0
  minReadySeconds := fleet.minReadySeconds
  template := fleet.template

def newReplicaSet (newRevision newReplicasCount : ℤ) : ReplicaSet T :=
  (setNewReplicaSetAnnotations fleet
    { blankReplicaSet api fleet "" 0 with replicas := newReplicasCount } newRevision false
    maxRevHistoryLengthInChars).2

lemma newReplicaSet_counts (newRevision n : ℤ) :
    (newReplicaSet api fleet newRevision n).replicas = n ∧
      (newReplicaSet api fleet newRevision n).availableReplicas = 0 := by
  obtain ⟨annotations, h⟩ := setNewReplicaSetAnnotations_sameBut fleet
    { blankReplicaSet api fleet "" 0 with replicas := n } newRevision false
    maxRevHistoryLengthInChars
  rw [newReplicaSet, h]
  exact ⟨rfl, rfl⟩

/-- The new replica set is there: its annotations are brought up to date, or those of the fleet. -/
def syncNewReplicaSet (existingNewRS : ReplicaSet T) (newRevision : ℤ) :
    PassM T (Option (ReplicaSet T) × Fleet T) := do
  let copied :=
    setNewReplicaSetAnnotations fleet existingNewRS newRevision true maxRevHistoryLengthInChars
  let rsCopy := copied.2
  if copied.1 || rsCopy.minReadySeconds ≠ fleet.minReadySeconds then
    let rsCopy := { rsCopy with minReadySeconds := fleet.minReadySeconds }
    update api rsCopy
    pure (some rsCopy, fleet)
  else
    let revised := setDeploymentRevision fleet (rsCopy.annotations.get revisionAnnotation)
    let found := hasProgressDeadline fleet && fleet.status.progressing.isNone
    let fleet := if found then setProgressing revised.2 foundNewRSReason else revised.2
    if revised.1 || found then updateStatus api
    pure (some rsCopy, fleet)

def finishCreation (createdRS : ReplicaSet T) (newRevision : ℤ)
    (alreadyExists : Bool) : PassM T (Option (ReplicaSet T) × Fleet T) := do
  let revised := setDeploymentRevision fleet (toString newRevision)
  let progresses := !alreadyExists && hasProgressDeadline fleet
  let fleet := if progresses then setProgressing revised.2 newReplicaSetReason else revised.2
  if revised.1 || progresses then updateStatus api
  pure (some createdRS, fleet)

end

section

variable [DecidableEq T]

def createNewReplicaSet (fleet : Fleet T) (oldRSs : List (ReplicaSet T)) (newRevision : ℤ) :
    PassM T (Option (ReplicaSet T) × Fleet T) := do
  let blank := blankReplicaSet api fleet "" 0
  let newReplicasCount ← ofExcept (newRSNewReplicas fleet (oldRSs ++ [blank]) blank)
  let newRS := newReplicaSet api fleet newRevision newReplicasCount
  modify fun p => p.create newRS
  match api.create with
  | .created uid creationTimestamp =>
    finishCreation api fleet { newRS with uid, creationTimestamp } newRevision false
  | .alreadyExists (some (controlled, rs)) =>
    -- Anything else with this name is a collision of hashes: the next pass takes another one.
    if controlled && rs.template = fleet.template then finishCreation api fleet rs newRevision true
    else throw (.raised .api)
  | .alreadyExists none => throw (.raised .api)
  | .failed => throw (.raised .api)

def getNewReplicaSet (fleet : Fleet T) (rsList oldRSs : List (ReplicaSet T))
    (createIfNotExisted : Bool) : PassM T (Option (ReplicaSet T) × Fleet T) :=
  let newRevision := maxRevision oldRSs + 1
  match findNewReplicaSet fleet rsList with
  | some existingNewRS => syncNewReplicaSet api fleet existingNewRS newRevision
  | none =>
    if createIfNotExisted then createNewReplicaSet api fleet oldRSs newRevision
    else pure (none, fleet)

/-- The new replica set, if there is one, the old ones, and the fleet as it is now. -/
def getAllReplicaSetsAndSyncRevision (fleet : Fleet T) (rsList : List (ReplicaSet T))
    (createIfNotExisted : Bool) :
    PassM T (Option (ReplicaSet T) × List (ReplicaSet T) × Fleet T) := do
  let allOldRSs := findOldReplicaSets fleet rsList
  let new ← getNewReplicaSet api fleet rsList allOldRSs createIfNotExisted
  pure (new.1, allOldRSs, new.2)

end

/-! ### Old replica sets -/

def hasRevisionHistoryLimit (fleet : Fleet T) : Option ℕ :=
  fleet.revisionHistoryLimit.filter (· ≠ 2 ^ 31 - 1)

/-- The loop of `cleanupDeployment`. -/
def deleteReplicaSets : List (ReplicaSet T) → PassM T Unit
  | [] => pure ()
  | rs :: rest => do
    if rs.statusReplicas ≠ 0 ∨ rs.replicas ≠ 0 ∨ rs.observedGeneration < rs.generation ∨
        rs.deletionTimestamp.isSome then
      deleteReplicaSets rest
    else
      delete api rs
      deleteReplicaSets rest

/-- The oldest revisions beyond the limit of the history are deleted. -/
def cleanupDeployment (fleet : Fleet T) (oldRSs : List (ReplicaSet T)) : PassM T Unit :=
  match hasRevisionHistoryLimit fleet with
  | none => pure ()
  | some limit =>
    let cleanableRSes := oldRSs.filter fun rs => rs.deletionTimestamp.isNone
    deleteReplicaSets api ((sortByRevision cleanableRSes).take (cleanableRSes.length - limit))

def deploymentComplete (fleet : Fleet T) : Bool :=
  fleet.status.updatedReplicas = fleet.replicas && fleet.status.replicas = fleet.replicas &&
    fleet.status.availableReplicas = fleet.replicas &&
    fleet.generation ≤ fleet.status.observedGeneration

end

/-! ### What the search leaves alone -/

/-- The same fleet up to its annotations and its status. -/
def Fleet.SameSpec (fleet fleet' : Fleet T) : Prop :=
  ∃ annotations status, fleet' = { fleet with annotations, status }

lemma setDeploymentRevision_sameSpec (fleet : Fleet T) (revision : String) :
    fleet.SameSpec (setDeploymentRevision fleet revision).2 := by
  unfold setDeploymentRevision
  split
  · exact ⟨_, _, rfl⟩
  · exact ⟨_, _, rfl⟩

lemma progressing_sameSpec (fleet : Fleet T) (revision reason : String) (c : Bool) :
    fleet.SameSpec (if c then setProgressing (setDeploymentRevision fleet revision).2 reason
      else (setDeploymentRevision fleet revision).2) := by
  obtain ⟨a, b, h⟩ := setDeploymentRevision_sameSpec fleet revision
  rw [h]
  split
  · exact ⟨_, _, rfl⟩
  · exact ⟨_, _, rfl⟩

/-! ### Rules for the calls -/

variable {api : Api T} {fleet : Fleet T} {rs sent : ReplicaSet T} {n : ℤ} {p : Pass T}
variable {post : Post PassError (Pass T) Unit}

lemma wp_update_iff
    (hnext : api.write p.calls.length = .applied → post.next () (p.call (.update sent .applied)))
    (hraised : ∀ o, o = api.write p.calls.length → o ≠ .applied →
      post.raised .api (p.call (.update sent o))) :
    wp (update api sent) post p := by
  refine wp_get (wp_modify (wp_ite (fun h => ?_) fun h => ?_))
  · rw [h]
    exact wp_pure (hnext h)
  · exact wp_raise (hraised _ rfl h)

lemma wp_update (hnext : ∀ o, post.next () (p.call (.update sent o)))
    (hraised : ∀ o, post.raised .api (p.call (.update sent o))) :
    wp (update api sent) post p :=
  wp_update_iff (fun _ => hnext .applied) fun o _ _ => hraised o

lemma wp_delete (hnext : ∀ o, post.next () (p.call (.delete rs o)))
    (hraised : ∀ o, post.raised .api (p.call (.delete rs o))) :
    wp (delete api rs) post p := by
  refine wp_get (wp_modify (wp_ite (fun _ => ?_) fun _ => ?_))
  · exact wp_pure (hnext _)
  · exact wp_raise (hraised _)

lemma wp_updateStatus (hnext : post.next () p) (hraised : post.raised .api p) :
    wp (updateStatus api) post p :=
  wp_ite (fun _ => wp_pure hnext) fun _ => wp_raise hraised

lemma wp_scale {post : Post PassError (Pass T) (Bool × ReplicaSet T)}
    (hsame : rs.replicas = n → post.next (false, rs) p)
    (hnext : rs.replicas ≠ n → ∀ o, post.next (true, rs) (p.call (.update (resized fleet rs n) o)))
    (hraised : rs.replicas ≠ n → ∀ o, post.raised .api (p.call (.update (resized fleet rs n) o))) :
    wp (scaleReplicaSetAndRecordEvent api fleet rs n) post p := by
  refine wp_ite (fun h => wp_pure (hsame h)) fun h => ?_
  have hsize : decide (rs.replicas ≠ n) = true := by simpa using h
  unfold scaleReplicaSet
  simp only [hsize]
  exact wp_bind (wp_update (fun o => wp_pure (hnext h o)) (hraised h))

variable {P : Pass T → Prop} {l : List (ReplicaSet T)}

section

variable (hdelete : ∀ p, ∀ rs ∈ l, rs.replicas = 0 → ∀ o, P p → P (p.call (.delete rs o))) (h : P p)
include hdelete h

lemma wp_deleteReplicaSets : wp (deleteReplicaSets api l) (.always P) p := by
  induction l generalizing p with
  | nil => exact wp_pure h
  | cons rs l ih =>
    have hrest : ∀ p', P p' → wp (deleteReplicaSets api l) (.always P) p' := fun p' h' =>
      ih (fun p a ha => hdelete p a (List.mem_cons_of_mem rs ha)) h'
    refine wp_ite (fun _ => hrest p h) fun hempty => ?_
    have hzero : rs.replicas = 0 := by
      by_contra hne
      exact hempty (.inr (.inl hne))
    have hcall : ∀ o, P (p.call (.delete rs o)) := fun o =>
      hdelete p rs List.mem_cons_self hzero o h
    exact wp_bind (wp_delete (fun o => hrest _ (hcall o)) hcall)

lemma wp_cleanupDeployment : wp (cleanupDeployment api fleet l) (.always P) p := by
  unfold cleanupDeployment
  split
  · exact wp_pure h
  · refine wp_deleteReplicaSets (fun p rs hrs => hdelete p rs ?_) h
    exact List.mem_of_mem_filter ((sortByRevision_perm _).mem_iff.mp (List.mem_of_mem_take hrs))

end
end Lodestar.Controller
