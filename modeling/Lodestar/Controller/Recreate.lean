import Lodestar.Controller.Sync

/-!
# A pass of a recreation

`pkg/controller/rayclusterfleet/recreate.go`: the old replica sets are scaled down, and the new one
is created or scaled up in a pass that finds nothing of them running any more.  What runs is told by
the counts that the old replica sets report and by the listed clusters; of these only a cluster that
is ready and already marked for deletion holds the pass back (`oldPodsRunning`).
-/

namespace Lodestar.Controller

open Lib.Routine List
variable {T : Type}

/-! ### The pass -/

/-- The clusters of each listed replica set; a cluster without a controller, or with another one, is
left out. -/
def getRayClusterMapForFleet (clusters : List RayCluster) (rsList : List (ReplicaSet T)) :
    List (String × List RayCluster) :=
  rsList.map fun rs => (rs.uid, clusters.filter fun c => c.controller = some rs.uid)

/-- Whether there are old clusters running or an old replica set thinks that it has some. -/
def oldPodsRunning (newRS : Option (ReplicaSet T)) (oldRSs : List (ReplicaSet T))
    (podMap : List (String × List RayCluster)) : Bool :=
  if 0 < getActualReplicaCountForReplicaSets oldRSs then true
  else podMap.any fun e => !newRS.any (fun rs => rs.uid = e.1) &&
      e.2.any fun pod => pod.deletionTimestamp.isSome && pod.isRayClusterReady

section

variable (api : Api T) (fleet : Fleet T)

/-- The loop of `scaleDownOldReplicaSetsForRecreate`. -/
def scaleDownForRecreateFrom : List (ReplicaSet T) → Bool → PassM T Bool
  | [], scaled => pure scaled
  | rs :: rest, scaled =>
    if rs.replicas = 0 then scaleDownForRecreateFrom rest scaled
    else do
      let scaledRS ← scaleReplicaSetAndRecordEvent api fleet rs 0
      scaleDownForRecreateFrom rest (scaledRS.1 || scaled)

def scaleDownOldReplicaSetsForRecreate (oldRSs : List (ReplicaSet T)) : PassM T Bool :=
  scaleDownForRecreateFrom api fleet oldRSs false

def scaleUpNewReplicaSetForRecreate (newRS : ReplicaSet T) : PassM T Bool := do
  let scaled ← scaleReplicaSetAndRecordEvent api fleet newRS fleet.replicas
  pure scaled.1

def finishRecreate (oldRSs : List (ReplicaSet T)) (newRS : ReplicaSet T) : PassM T Unit := do
  let _ ← scaleUpNewReplicaSetForRecreate api fleet newRS
  if deploymentComplete fleet then cleanupDeployment api fleet oldRSs else pure ()

variable [DecidableEq T]

/-- The pass behind the gate: the new replica set is created if it is missing, and scaled up. -/
def recreateNewReplicaSet (rsList oldRSs : List (ReplicaSet T)) :
    Option (ReplicaSet T) → PassM T Unit
  | some newRS => finishRecreate api fleet oldRSs newRS
  | none => do
    match ← getAllReplicaSetsAndSyncRevision api fleet rsList true with
    | (some newRS, oldRSs, fleet) => finishRecreate api fleet oldRSs newRS
    -- A search that may create the replica set does not end without one.
    | (none, _, _) => pure ()

/-- The pass behind the search for the new replica set. -/
def recreateReplicaSets (rsList : List (ReplicaSet T)) (clusters : List RayCluster)
    (newRS : Option (ReplicaSet T)) (oldRSs : List (ReplicaSet T)) : PassM T Unit := do
  let scaledDown ← scaleDownOldReplicaSetsForRecreate api fleet (filterActiveReplicaSets oldRSs)
  if scaledDown then pure ()
  else if oldPodsRunning newRS oldRSs (getRayClusterMapForFleet clusters rsList) then pure ()
  else recreateNewReplicaSet api fleet rsList oldRSs newRS

def rolloutRecreate (rsList : List (ReplicaSet T)) (clusters : List RayCluster) : PassM T Unit := do
  let all ← getAllReplicaSetsAndSyncRevision api fleet rsList false
  recreateReplicaSets api all.2.2 rsList clusters all.1 all.2.1

end

/-! ### What a pass does to the new replica set -/

/-- The pass has sent the new replica set for creation or asked for more replicas than it had. -/
def Pass.RaisesNew (p : Pass T) (new : Option (ReplicaSet T)) : Prop :=
  p.created.isSome ∨ ∃ newRS ∈ new, ∃ sent o, .update sent o ∈ p.calls ∧ sent.uid = newRS.uid ∧
    newRS.replicas < sent.replicas

variable {api : Api T} {fleet : Fleet T} {p : Pass T} {new : Option (ReplicaSet T)} {c : Call T}
  {l old : List (ReplicaSet T)} {newRS rs : ReplicaSet T}

lemma Pass.RaisesNew.call (h : p.RaisesNew new) : (p.call c).RaisesNew new := by
  rcases h with h | ⟨newRS, hnew, sent, o, hmem, huid, hlt⟩
  · exact .inl h
  · exact .inr ⟨newRS, hnew, sent, o, mem_append_left _ hmem, huid, hlt⟩

lemma Pass.not_raisesNew_call (h : ¬ p.RaisesNew new)
    (hc : ∀ newRS ∈ new, ∀ sent o, c = .update sent o → sent.uid = newRS.uid →
      sent.replicas ≤ newRS.replicas) : ¬ (p.call c).RaisesNew new := by
  rintro (hcreated | ⟨newRS, hnew, sent, o, hmem, huid, hlt⟩)
  · exact h (.inl hcreated)
  · rcases mem_append.mp hmem with hmem | hmem
    · exact h (.inr ⟨newRS, hnew, sent, o, hmem, huid, hlt⟩)
    · have := hc newRS hnew sent o (List.mem_singleton.mp hmem).symm huid
      omega

lemma Pass.raisesNew_delete {o : WriteOutcome} :
    (p.call (.delete rs o)).RaisesNew new ↔ p.RaisesNew new := by
  refine ⟨fun h => ?_, fun h => h.call⟩
  by_contra hquiet
  exact Pass.not_raisesNew_call hquiet (by simp) h

lemma wp_scaleDownForRecreateFrom {P : Pass T → Prop}
    (hP : ∀ p, ∀ rs ∈ l, ∀ o, P p → P (p.call (.update (resized fleet rs 0) o)))
    (hactive : ∀ rs ∈ l, 0 < rs.replicas) (scaled : Bool) (h : P p) :
    wp (scaleDownForRecreateFrom api fleet l scaled)
      ⟨fun b p => b = (scaled || !l.isEmpty) ∧ P p, P, fun _ => P⟩ p := by
  induction l generalizing scaled p with
  | nil => exact wp_pure ⟨by simp, h⟩
  | cons rs l ih =>
    have hrs := hactive rs mem_cons_self
    refine wp_ite (fun hzero => by omega) fun _ => ?_
    have hcall : ∀ o, P (p.call (.update (resized fleet rs 0) o)) := fun o =>
      hP p rs mem_cons_self o h
    refine wp_bind (wp_scale (fun hzero => by omega) (fun _ o => ?_) fun _ o => hcall o)
    refine wp_mono (ih (fun p a ha => hP p a (mem_cons_of_mem rs ha))
      (fun a ha => hactive a (mem_cons_of_mem rs ha)) true (hcall o))
      (fun b p hb => ?_) (fun _ h => h) fun _ _ h => h
    exact ⟨by simp [hb.1], hb.2⟩

lemma wp_finishRecreate {P : Pass T → Prop}
    (hdelete : ∀ p rs o, P p → P (p.call (.delete rs o)))
    (hsame : newRS.replicas = fleet.replicas → P p)
    (hscale : newRS.replicas ≠ fleet.replicas → ∀ o,
      P (p.call (.update (resized fleet newRS fleet.replicas) o))) :
    wp (finishRecreate api fleet old newRS) (.always P) p := by
  have hclean : ∀ p, P p → wp (if deploymentComplete fleet then cleanupDeployment api fleet old
      else pure ()) (.always P) p := fun p h =>
    wp_ite (fun _ => wp_cleanupDeployment (fun p rs _ _ o => hdelete p rs o) h) fun _ => wp_pure h
  refine wp_bind (wp_bind (wp_scale (fun heq => wp_pure ?_) (fun hne o => wp_pure ?_) hscale))
  · exact hclean p (hsame heq)
  · exact hclean _ (hscale hne o)

lemma wp_finishRecreate_iff {rsCopy : ReplicaSet T} (huid : rsCopy.uid = newRS.uid)
    (hsize : rsCopy.replicas = newRS.replicas) (h : ¬ p.RaisesNew (some newRS)) :
    wp (finishRecreate api fleet old rsCopy)
      (.always fun p => p.RaisesNew (some newRS) ↔ newRS.replicas < fleet.replicas) p := by
  refine wp_finishRecreate (fun p rs o h => ?_) (fun heq => ?_) fun hne o => ?_
  · rwa [Pass.raisesNew_delete]
  · exact iff_of_false h (by omega)
  · by_cases hlt : newRS.replicas < fleet.replicas
    · refine iff_of_true (.inr ⟨newRS, rfl, resized fleet rsCopy fleet.replicas, o, ?_, ?_, ?_⟩) hlt
      · exact mem_append_right _ (mem_singleton_self _)
      · exact huid
      · exact hlt
    · refine iff_of_false (Pass.not_raisesNew_call h ?_) hlt
      rintro newRS' ⟨⟩ sent o' ⟨⟩ -
      exact not_lt.mp hlt

/-! ### The gate -/

section

variable [DecidableEq T] (api : Api T) (fleet : Fleet T) (rsList : List (ReplicaSet T))
  (clusters : List RayCluster)

def OldCluster (c : RayCluster) : Prop :=
  c ∈ clusters ∧ ∃ rs ∈ findOldReplicaSets fleet rsList, c.controller = some rs.uid

/-- The gate is open: no old replica set asks for a replica or reports one, and no old cluster is
ready while it is being deleted. -/
structure GateOpen : Prop where
  scaledDown : ∀ rs ∈ findOldReplicaSets fleet rsList, rs.replicas ≤ 0
  reported : ∀ rs ∈ findOldReplicaSets fleet rsList, rs.statusReplicas = 0
  clusters : ∀ c, OldCluster fleet rsList clusters c → c.deletionTimestamp.isSome →
    ¬ c.isRayClusterReady

/-- The new replica set has to be written: an annotation changes, or its `MinReadySeconds`. -/
def annotationsBehind (newRS : ReplicaSet T) : Bool :=
  let copied := setNewReplicaSetAnnotations fleet newRS
    (maxRevision (findOldReplicaSets fleet rsList) + 1) true maxRevHistoryLengthInChars
  copied.1 || copied.2.minReadySeconds ≠ fleet.minReadySeconds

/-- Otherwise, the fleet has to be written: its revision changes, or it gets its first condition. -/
def revisionBehind (newRS : ReplicaSet T) : Bool :=
  let copied := setNewReplicaSetAnnotations fleet newRS
    (maxRevision (findOldReplicaSets fleet rsList) + 1) true maxRevHistoryLengthInChars
  (setDeploymentRevision fleet (copied.2.annotations.get revisionAnnotation)).1 ||
    (hasProgressDeadline fleet && fleet.status.progressing.isNone)

/-- The write that brings the new replica set or the fleet up to date, where there is one,
succeeds. -/
def Synced (newRS : ReplicaSet T) : Prop :=
  if annotationsBehind fleet rsList newRS then api.write 0 = .applied
  else revisionBehind fleet rsList newRS → api.updateStatus

/-- There is no new replica set, or it is smaller than the fleet and up to date. -/
def WantsMore : Prop :=
  ∀ newRS, findNewReplicaSet fleet rsList = some newRS →
    newRS.replicas < fleet.replicas ∧ Synced api fleet rsList newRS

end

section

variable [DecidableEq T] {fleet fleet' : Fleet T} {rsList : List (ReplicaSet T)}
  {clusters : List RayCluster} {newRS rsCopy : ReplicaSet T}
omit [DecidableEq T] in
lemma actualCount_pos_iff (l : List (ReplicaSet T)) :
    0 < getActualReplicaCountForReplicaSets l ↔ ∃ rs ∈ l, rs.statusReplicas ≠ 0 := by
  induction l with
  | nil => simp [getActualReplicaCountForReplicaSets]
  | cons rs l ih =>
    have hnonneg : 0 ≤ getActualReplicaCountForReplicaSets l := by
      refine sum_nonneg fun x hx => ?_
      obtain ⟨rs, -, rfl⟩ := mem_map.mp hx
      exact Int.natCast_nonneg _
    have hsum : getActualReplicaCountForReplicaSets (rs :: l) =
        rs.statusReplicas + getActualReplicaCountForReplicaSets l := by
      simp [getActualReplicaCountForReplicaSets]
    rw [exists_mem_cons_iff, ← ih, hsum]
    omega

lemma oldPodsRunning_eq_false_iff {new : Option (ReplicaSet T)}
    (hnew : new.map ReplicaSet.uid = (findNewReplicaSet fleet rsList).map ReplicaSet.uid) :
    oldPodsRunning new (findOldReplicaSets fleet rsList)
        (getRayClusterMapForFleet clusters rsList) = false ↔
      (∀ rs ∈ findOldReplicaSets fleet rsList, rs.statusReplicas = 0) ∧
      ∀ c, OldCluster fleet rsList clusters c → c.deletionTimestamp.isSome →
        ¬ c.isRayClusterReady := by
  have hold : ∀ rs ∈ rsList, new.any (fun newRS => newRS.uid = rs.uid) = false ↔
      rs ∈ findOldReplicaSets fleet rsList := by
    intro rs hrs
    rw [mem_findOld_iff]
    cases hfind : findNewReplicaSet fleet rsList with
    | none =>
      rw [hfind, Option.map_none, Option.map_eq_none_iff] at hnew
      simp [hnew, hrs]
    | some found =>
      rw [hfind, Option.map_some, Option.map_eq_some_iff] at hnew
      obtain ⟨a, rfl, huid⟩ := hnew
      simp [hrs, huid, eq_comm]
  have hstatus := actualCount_pos_iff (findOldReplicaSets fleet rsList)
  unfold oldPodsRunning
  split
  · next hpos =>
    obtain ⟨rs, hrs, hne⟩ := hstatus.mp hpos
    refine iff_of_false (by simp) fun h => hne (h.1 rs hrs)
  · next hpos =>
    have hzero : ∀ rs ∈ findOldReplicaSets fleet rsList, rs.statusReplicas = 0 := by
      intro rs hrs
      by_contra hne
      exact hpos (hstatus.mpr ⟨rs, hrs, hne⟩)
    rw [and_iff_right hzero, any_eq_false]
    constructor
    · rintro h c ⟨hc, rs, hrs, hctl⟩ hdel hready
      have hmem := (mem_findOld_iff.mp hrs).1
      refine h _ (mem_map_of_mem hmem) ?_
      rw [Bool.and_eq_true, Bool.not_eq_true', any_eq_true]
      exact ⟨(hold rs hmem).mpr hrs, c, mem_filter.mpr ⟨hc, by simpa using hctl⟩,
        by simp [hdel, hready]⟩
    · rintro h e he hrunning
      obtain ⟨rs, hrs, rfl⟩ := mem_map.mp he
      rw [Bool.and_eq_true, Bool.not_eq_true', any_eq_true] at hrunning
      obtain ⟨hnot, c, hc, hboth⟩ := hrunning
      obtain ⟨hc, hctl⟩ := mem_filter.mp hc
      rw [Bool.and_eq_true] at hboth
      exact h c ⟨hc, rs, (hold rs hrs).mp hnot, by simpa using hctl⟩ hboth.1 hboth.2

/-- **The gate**: the pass gets behind it if it is open, and changes old replica sets only
otherwise. -/
lemma wp_recreateReplicaSets {new : Option (ReplicaSet T)} {P Q : Pass T → Prop}
    (hnew : new.map ReplicaSet.uid = (findNewReplicaSet fleet rsList).map ReplicaSet.uid)
    (hP : ∀ p, ∀ rs ∈ findOldReplicaSets fleet rsList, ∀ o, P p →
      P (p.call (.update (resized fleet' rs 0) o))) (h : P p)
    (hopen : GateOpen fleet rsList clusters →
      wp (recreateNewReplicaSet api fleet' rsList (findOldReplicaSets fleet rsList) new)
        (.always Q) p)
    (hclosed : ¬ GateOpen fleet rsList clusters → ∀ p, P p → Q p) :
    wp (recreateReplicaSets api fleet' rsList clusters new (findOldReplicaSets fleet rsList))
      (.always Q) p := by
  have hactive : ∀ rs, rs ∈ filterActiveReplicaSets (findOldReplicaSets fleet rsList) ↔
      rs ∈ findOldReplicaSets fleet rsList ∧ 0 < rs.replicas := by
    intro rs
    simp [filterActiveReplicaSets]
  have hgate : oldPodsRunning new (findOldReplicaSets fleet rsList)
      (getRayClusterMapForFleet clusters rsList) = false ↔ _ := oldPodsRunning_eq_false_iff hnew
  cases hlist : filterActiveReplicaSets (findOldReplicaSets fleet rsList) with
  | nil =>
    -- No old replica set asks for a replica.
    have hdown : ∀ rs ∈ findOldReplicaSets fleet rsList, rs.replicas ≤ 0 := by
      intro rs hrs
      by_contra hlt
      have hmem := (hactive rs).mpr ⟨hrs, not_le.mp hlt⟩
      rw [hlist] at hmem
      cases hmem
    unfold recreateReplicaSets
    rw [hlist]
    refine wp_bind (wp_pure (wp_ite (fun h => by cases h) fun _ => wp_ite (fun hrun => ?_)
      fun hrun => ?_))
    · refine wp_pure (hclosed (fun hopen => ?_) p h)
      rw [hgate.mpr ⟨hopen.reported, hopen.clusters⟩] at hrun
      cases hrun
    · obtain ⟨hreported, hclusters⟩ := hgate.mp (Bool.eq_false_iff.mpr hrun)
      exact hopen ⟨hdown, hreported, hclusters⟩
  | cons rs rest =>
    have hclosed' : ∀ p, P p → Q p := by
      refine hclosed fun hopen => ?_
      have hrs := (hactive rs).mp (hlist ▸ mem_cons_self)
      have := hopen.scaledDown rs hrs.1
      omega
    refine wp_bind (wp_mono (wp_scaleDownForRecreateFrom
      (fun p rs hrs o hp => hP p rs ((hactive rs).mp hrs).1 o hp)
      (fun rs hrs => ((hactive rs).mp hrs).2) false h) (fun b p hb => ?_) hclosed'
      fun _ => hclosed')
    rw [hlist] at hb
    refine wp_ite (fun _ => wp_pure (hclosed' p hb.2)) fun hfalse => ?_
    exact absurd hb.1 hfalse

lemma wp_syncNewReplicaSet_iff
    {post : Post PassError (Pass T) (Option (ReplicaSet T) × Fleet T)}
    (hnext : Synced api fleet rsList newRS → ∀ rsCopy fleet' p, rsCopy.uid = newRS.uid →
      rsCopy.replicas = newRS.replicas → fleet.SameSpec fleet' → ¬ p.RaisesNew (some newRS) →
      post.next (some rsCopy, fleet') p)
    (hraised : ¬ Synced api fleet rsList newRS → ∀ p, ¬ p.RaisesNew (some newRS) →
      post.raised .api p) :
    wp (syncNewReplicaSet api fleet newRS (maxRevision (findOldReplicaSets fleet rsList) + 1))
      post {} := by
  have hstart : ¬ ({} : Pass T).RaisesNew (some newRS) := by simp [Pass.RaisesNew]
  obtain ⟨annotations, hcopy⟩ := setNewReplicaSetAnnotations_sameBut fleet newRS
    (maxRevision (findOldReplicaSets fleet rsList) + 1) true maxRevHistoryLengthInChars
  refine wp_ite (fun hwrite => ?_) fun hwrite => ?_
  · have hsynced : Synced api fleet rsList newRS ↔ api.write 0 = .applied := by
      exact iff_of_eq (if_pos hwrite)
    rw [hcopy]
    have hquiet : ∀ o, ¬ (Pass.call {} (.update { newRS with
        annotations, minReadySeconds := fleet.minReadySeconds } o)).RaisesNew (some newRS) := by
      intro o
      refine Pass.not_raisesNew_call hstart ?_
      rintro newRS' ⟨⟩ sent o' ⟨⟩ -
      exact le_rfl
    refine wp_bind (wp_update_iff (fun happlied => wp_pure ?_) fun o ho hne => ?_)
    · exact hnext (hsynced.mpr happlied) _ _ _ rfl rfl ⟨_, _, rfl⟩ (hquiet _)
    · exact hraised (fun h => hne (ho.trans (hsynced.mp h))) _ (hquiet o)
  · have hsynced : Synced api fleet rsList newRS ↔
        (revisionBehind fleet rsList newRS → api.updateStatus) := by
      exact iff_of_eq (if_neg hwrite)
    have hspec := progressing_sameSpec fleet
    refine wp_ite (fun hneeds => wp_bind (wp_ite (fun hok => wp_pure ?_) fun hfail => ?_))
      fun hneeds => ?_
    · refine wp_pure (hnext (hsynced.mpr fun _ => hok) _ _ _ ?_ ?_ (hspec _ _ _) hstart)
      · rw [hcopy]
      · rw [hcopy]
    · exact wp_raise (hraised (fun h => hfail (hsynced.mp h hneeds)) _ hstart)
    · refine wp_pure (hnext (hsynced.mpr fun h => absurd h hneeds) _ _ _ ?_ ?_ (hspec _ _ _) hstart)
      · rw [hcopy]
      · rw [hcopy]

lemma wp_recreateNewReplicaSet_none (hstrategy : fleet.strategy = .recreate)
    (hnew : findNewReplicaSet fleet rsList = none) {old : List (ReplicaSet T)} :
    wp (recreateNewReplicaSet api fleet rsList old none) (.always fun p => p.RaisesNew none) p := by
  have hcreated : ∀ rs, (p.create rs).RaisesNew none := fun rs => .inl rfl
  have hfinish : ∀ createdRS alreadyExists rs, wp (finishCreation api fleet createdRS
        (maxRevision (findOldReplicaSets fleet rsList) + 1) alreadyExists)
        (.always fun p => p.RaisesNew none) (p.create rs) := fun createdRS alreadyExists rs =>
    wp_ite (fun _ => wp_bind (wp_updateStatus (wp_pure (hcreated rs)) (hcreated rs)))
      fun _ => wp_pure (hcreated rs)
  have hget : wp (getNewReplicaSet api fleet rsList (findOldReplicaSets fleet rsList) true)
      (.always fun p => p.RaisesNew none) p := by
    unfold getNewReplicaSet
    rw [hnew]
    refine wp_bind (wp_ofExcept (fun n _ => wp_modify ?_) fun e he => ?_)
    · cases api.create with
      | created uid creationTimestamp => exact hfinish _ _ _
      | alreadyExists found =>
        rcases found with _ | ⟨controlled, rs⟩
        · exact wp_raise (hcreated _)
        · exact wp_ite (fun _ => hfinish _ _ _) fun _ => wp_raise (hcreated _)
      | failed => exact wp_raise (hcreated _)
    · -- The size of a recreated replica set is that of the fleet.
      simp [newRSNewReplicas, hstrategy] at he
  refine wp_bind (wp_bind (wp_mono hget (fun a p h => ?_) (fun _ h => h) fun _ _ h => h))
  obtain ⟨_ | newRS, fleet'⟩ := a
  · exact wp_pure (wp_pure h)
  · refine wp_pure (wp_finishRecreate (fun p rs o h => h.call) (fun _ => h) fun _ o => h.call)

lemma findOld_singleton {rs : ReplicaSet T} (h : rs.template ≠ fleet.template) :
    rs ∈ findOldReplicaSets fleet [rs] := by
  rw [mem_findOld_iff]
  refine ⟨by simp, fun newRS hnew => absurd ?_ h⟩
  have hmem := (sortByCreationTimestamp_perm [rs]).mem_iff.mp (mem_of_find?_eq_some hnew)
  rw [List.mem_singleton.mp hmem] at hnew
  simpa using find?_some hnew

lemma wp_rolloutRecreate_none (hstrategy : fleet.strategy = .recreate)
    (hnew : findNewReplicaSet fleet rsList = none) :
    wp (rolloutRecreate api fleet rsList clusters)
      (.always fun p => p.RaisesNew none ↔ GateOpen fleet rsList clusters) {} := by
  have hstart : ¬ ({} : Pass T).RaisesNew none := by simp [Pass.RaisesNew]
  have hsearch : wp (getNewReplicaSet api fleet rsList (findOldReplicaSets fleet rsList) false)
      ⟨fun a p => a = (none, fleet) ∧ p = {}, fun _ => False, fun _ _ => False⟩ {} := by
    unfold getNewReplicaSet
    rw [hnew]
    exact wp_pure ⟨rfl, rfl⟩
  refine wp_bind (wp_bind (wp_mono hsearch ?_ (fun _ h => h.elim) fun _ _ h => h.elim))
  rintro a p ⟨rfl, rfl⟩
  refine wp_pure (wp_recreateReplicaSets (P := fun p : Pass T => ¬ p.RaisesNew none)
    (by rw [hnew]) ?_ hstart (fun hopen => ?_) fun hclosed p hp => ?_)
  · intro p rs hrs o hp
    exact Pass.not_raisesNew_call hp (by simp)
  · refine wp_mono (wp_recreateNewReplicaSet_none hstrategy hnew) ?_ ?_ ?_
    · exact fun _ p h => iff_of_true h hopen
    · exact fun p h => iff_of_true h hopen
    · exact fun _ p h => iff_of_true h hopen
  · exact iff_of_false hp hclosed

lemma wp_rolloutRecreate_some (hnew : findNewReplicaSet fleet rsList = some newRS) :
    wp (rolloutRecreate api fleet rsList clusters)
      (.always fun p => p.RaisesNew (some newRS) ↔ GateOpen fleet rsList clusters ∧
        newRS.replicas < fleet.replicas ∧ Synced api fleet rsList newRS) {} := by
  have hsearch : wp (getNewReplicaSet api fleet rsList (findOldReplicaSets fleet rsList) false)
      ⟨fun a p => Synced api fleet rsList newRS ∧ ∃ rsCopy fleet', a = (some rsCopy, fleet') ∧
          rsCopy.uid = newRS.uid ∧ rsCopy.replicas = newRS.replicas ∧ fleet.SameSpec fleet' ∧
          ¬ p.RaisesNew (some newRS),
        fun _ => False,
        fun _ p => ¬ Synced api fleet rsList newRS ∧ ¬ p.RaisesNew (some newRS)⟩ {} := by
    unfold getNewReplicaSet
    rw [hnew]
    exact wp_syncNewReplicaSet_iff
      (fun hs rsCopy fleet' p hu hr hf hp => ⟨hs, rsCopy, fleet', rfl, hu, hr, hf, hp⟩)
      fun hs p hp => ⟨hs, hp⟩
  refine wp_bind (wp_bind (wp_mono hsearch ?_ (fun _ h => h.elim) fun _ p h => ?_))
  · rintro a p ⟨hsynced, rsCopy, fleet', rfl, huid, hsize, ⟨annotations, status, rfl⟩, hquiet⟩
    refine wp_pure (wp_recreateReplicaSets (P := fun p : Pass T => ¬ p.RaisesNew (some newRS))
      (by rw [hnew, Option.map_some, Option.map_some, huid]) ?_ hquiet (fun hopen => ?_)
      fun hclosed p hp => ?_)
    · -- The old replica sets are other ones.
      intro p rs hrs o hp
      refine Pass.not_raisesNew_call hp ?_
      rintro newRS' ⟨⟩ sent o' ⟨⟩ hsent
      exact absurd hsent ((mem_findOld_iff.mp hrs).2 newRS hnew)
    · have hiff : newRS.replicas < fleet.replicas ↔ GateOpen fleet rsList clusters ∧
          newRS.replicas < fleet.replicas ∧ Synced api fleet rsList newRS :=
        ⟨fun hlt => ⟨hopen, hlt, hsynced⟩, fun hall => hall.2.1⟩
      refine wp_mono (wp_finishRecreate_iff huid hsize hquiet) ?_ ?_ ?_
      · exact fun _ p h => h.trans hiff
      · exact fun p h => h.trans hiff
      · exact fun _ p h => h.trans hiff
    · exact iff_of_false hp fun hall => hclosed hall.1
  · exact iff_of_false h.2 fun hall => h.1 hall.2.2

/-- **When a pass raises the new replica set**: exactly if the gate is open and the new replica set
is missing or smaller than the fleet. -/
lemma raisesNew_iff (hstrategy : fleet.strategy = .recreate) :
    (exec (rolloutRecreate api fleet rsList clusters) {}).RaisesNew
        (findNewReplicaSet fleet rsList) ↔
      GateOpen fleet rsList clusters ∧ WantsMore api fleet rsList := by
  unfold WantsMore
  cases hnew : findNewReplicaSet fleet rsList with
  | none => simpa using exec_of_wp (wp_rolloutRecreate_none hstrategy hnew)
  | some newRS => simpa using exec_of_wp (wp_rolloutRecreate_some hnew)

/-- **The gate of a recreation.**  A pass creates the new replica set or asks for more of its
replicas only without old clusters in its listing, exactly if no old cluster is listed, the gate is
closed, or the new replica set wants no more. -/
theorem raises_only_without_old_iff (api : Api T) (fleet : Fleet T) (rsList : List (ReplicaSet T))
    (clusters : List RayCluster) (hstrategy : fleet.strategy = .recreate) :
    ((exec (rolloutRecreate api fleet rsList clusters) {}).RaisesNew
        (findNewReplicaSet fleet rsList) → ∀ c, ¬ OldCluster fleet rsList clusters c) ↔
      (∀ c, ¬ OldCluster fleet rsList clusters c) ∨ ¬ GateOpen fleet rsList clusters ∨
        ¬ WantsMore api fleet rsList := by
  rw [raisesNew_iff hstrategy]
  constructor
  · intro h
    by_cases hopen : GateOpen fleet rsList clusters
    · by_cases hwants : WantsMore api fleet rsList
      · exact .inl (h ⟨hopen, hwants⟩)
      · exact .inr (.inr hwants)
    · exact .inr (.inl hopen)
  · rintro (hnone | hclosed | hwants) ⟨hopen, hmore⟩
    · exact hnone
    · exact absurd hopen hclosed
    · exact absurd hmore hwants

end

/-! ### A cluster that slips through -/

def recreatedFleet : Fleet ℕ where
  uid := "fleet"
  name := "fleet"
  generation := 1
  annotations := ∅
  replicas := 1
  template := 1
  strategy := .recreate
  minReadySeconds := 0
  revisionHistoryLimit := none
  progressDeadlineSeconds := none
  status := ⟨1, 1, 1, 1, none, none⟩

/-- The old replica set has been scaled down and reports no replica any more. -/
def scaledDownReplicaSet : ReplicaSet ℕ where
  uid := "old"
  name := "old"
  creationTimestamp := 0
  generation := 2
  annotations := ∅
  replicas := 0
  minReadySeconds := 0
  template := 0

/-- Its cluster, which is ready and not even marked for deletion. -/
def survivingCluster : RayCluster where
  name := "old-1"
  controller := some "old"
  provisioned := true
  headPodReady := true
  readyWorkerReplicas := 1
  desiredWorkerReplicas := 1

def acceptingApi : Api ℕ where
  write := fun _ => .applied
  create := .created "new" 1
  updateStatus := true
  hash := fun _ _ => "hash"

/-- The new replica set is created next to the cluster of the old one. -/
theorem raises_beside_old_cluster :
    (exec (rolloutRecreate acceptingApi recreatedFleet [scaledDownReplicaSet] [survivingCluster])
        {}).RaisesNew (findNewReplicaSet recreatedFleet [scaledDownReplicaSet]) ∧
      OldCluster recreatedFleet [scaledDownReplicaSet] [survivingCluster] survivingCluster :=
  ⟨.inl (by decide +kernel), by simp, scaledDownReplicaSet, findOld_singleton (by decide), rfl⟩

/-- The old cluster holds the pass back once it is marked for deletion. -/
theorem raises_only_without_old_held_back : OldCluster recreatedFleet [scaledDownReplicaSet]
        [{ survivingCluster with deletionTimestamp := some 1 }]
        { survivingCluster with deletionTimestamp := some 1 } ∧
      ¬ (exec (rolloutRecreate acceptingApi recreatedFleet [scaledDownReplicaSet]
        [{ survivingCluster with deletionTimestamp := some 1 }]) {}).RaisesNew
        (findNewReplicaSet recreatedFleet [scaledDownReplicaSet]) := by
  have hold : OldCluster recreatedFleet [scaledDownReplicaSet]
      [{ survivingCluster with deletionTimestamp := some 1 }]
      { survivingCluster with deletionTimestamp := some 1 } :=
    ⟨by simp, scaledDownReplicaSet, findOld_singleton (by decide), rfl⟩
  have hraises := (raises_only_without_old_iff acceptingApi recreatedFleet [scaledDownReplicaSet]
    [{ survivingCluster with deletionTimestamp := some 1 }] rfl).mpr
      (.inr (.inl fun hopen => hopen.clusters _ hold rfl rfl))
  exact ⟨hold, fun hraised => hraises hraised _ hold⟩

end Lodestar.Controller
