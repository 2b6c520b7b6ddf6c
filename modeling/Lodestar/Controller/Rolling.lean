import Lodestar.Controller.Sync
import Lodestar.Lib.Capping

/-!
# A pass of a rolling update

`pkg/controller/rayclusterfleet/rolling.go`: the new replica set is created or gets more replicas as
far as the surge allows it; in a pass that changes nothing there, the old ones are scaled down, first
by their unhealthy replicas and then by as many as may become unavailable.

Both loops over the old replica sets work with the sizes that were read before the first one, since
`scaleReplicaSet` returns the replica set with its old size.

A write that asks for less than the available replicas costs the difference (`Call.loss`), and this
bounds what all the writes of a pass cost, since the identifiers are distinct: the cleanup costs
nothing, and the second loop no more than it has counted.
-/

namespace Lodestar.Controller

open Lib (cut capped sum_le_sum_capped_add)
open Lib.Routine
variable {T : Type}

/-! ### The pass -/

section

variable (api : Api T) (fleet : Fleet T)

def reconcileNewReplicaSet (allRSs : List (ReplicaSet T)) (newRS : ReplicaSet T) : PassM T Bool :=
  if newRS.replicas = fleet.replicas then pure false
  else if (fleet.replicas : ℤ) < newRS.replicas then do
    let scaled ← scaleReplicaSetAndRecordEvent api fleet newRS fleet.replicas
    pure scaled.1
  else do
    let newReplicasCount ← ofExcept (newRSNewReplicas fleet allRSs newRS)
    let scaled ← scaleReplicaSetAndRecordEvent api fleet newRS newReplicasCount
    pure scaled.1

/-- The loop of `cleanupUnhealthyReplicas`, with the replica sets that it hands on. -/
def cleanupFrom (maxCleanupCount : ℤ) : List (ReplicaSet T) → ℤ → PassM T (List (ReplicaSet T) × ℤ)
  | [], totalScaledDown => pure ([], totalScaledDown)
  | targetRS :: rest, totalScaledDown =>
    if maxCleanupCount ≤ totalScaledDown then pure (targetRS :: rest, totalScaledDown)
    else if targetRS.replicas = 0 ∨ targetRS.replicas = targetRS.availableReplicas then do
      let r ← cleanupFrom maxCleanupCount rest totalScaledDown
      pure (targetRS :: r.1, r.2)
    else
      let scaledDownCount := min (maxCleanupCount - totalScaledDown)
        (targetRS.replicas - targetRS.availableReplicas)
      let newReplicasCount := targetRS.replicas - scaledDownCount
      if targetRS.replicas < newReplicasCount then
        throw (.raised (.invalidScaleDown targetRS.name targetRS.replicas newReplicasCount))
      else do
        let updatedOldRS ← scaleReplicaSetAndRecordEvent api fleet targetRS newReplicasCount
        let r ← cleanupFrom maxCleanupCount rest (totalScaledDown + scaledDownCount)
        pure (updatedOldRS.2 :: r.1, r.2)

def cleanupUnhealthyReplicas (oldRSs : List (ReplicaSet T)) (maxCleanupCount : ℤ) :
    PassM T (List (ReplicaSet T) × ℤ) :=
  cleanupFrom api fleet maxCleanupCount (sortByCreationTimestamp oldRSs) 0

/-- The loop of `scaleDownOldReplicaSetsForRollingUpdate`. -/
def scaleDownFrom (totalScaleDownCount : ℤ) : List (ReplicaSet T) → ℤ → PassM T ℤ
  | [], totalScaledDown => pure totalScaledDown
  | targetRS :: rest, totalScaledDown =>
    if totalScaleDownCount ≤ totalScaledDown then pure totalScaledDown
    else if targetRS.replicas = 0 then scaleDownFrom totalScaleDownCount rest totalScaledDown
    else
      let scaleDownCount := min targetRS.replicas (totalScaleDownCount - totalScaledDown)
      let newReplicasCount := targetRS.replicas - scaleDownCount
      if targetRS.replicas < newReplicasCount then
        throw (.raised (.invalidScaleDown targetRS.name targetRS.replicas newReplicasCount))
      else do
        let _ ← scaleReplicaSetAndRecordEvent api fleet targetRS newReplicasCount
        scaleDownFrom totalScaleDownCount rest (totalScaledDown + scaleDownCount)

def scaleDownOldReplicaSetsForRollingUpdate (allRSs oldRSs : List (ReplicaSet T)) : PassM T ℤ :=
  let minAvailable : ℤ := fleet.replicas - maxUnavailable fleet
  let availablePodCount := getAvailableReplicaCountForReplicaSets allRSs
  if availablePodCount ≤ minAvailable then pure 0
  else scaleDownFrom api fleet (availablePodCount - minAvailable) (sortByCreationTimestamp oldRSs) 0

def reconcileOldReplicaSets (allRSs oldRSs : List (ReplicaSet T)) (newRS : ReplicaSet T) :
    PassM T Bool :=
  if getReplicaCountForReplicaSets oldRSs = 0 then pure false
  else
    let minAvailable : ℤ := fleet.replicas - maxUnavailable fleet
    let newRSUnavailablePodCount := newRS.replicas - newRS.availableReplicas
    let maxScaledDown :=
      getReplicaCountForReplicaSets allRSs - minAvailable - newRSUnavailablePodCount
    if maxScaledDown ≤ 0 then pure false
    else do
      match ← attempt (cleanupUnhealthyReplicas api fleet oldRSs maxScaledDown) with
      | .error _ => pure false
      | .ok cleaned =>
        match ← attempt (scaleDownOldReplicaSetsForRollingUpdate api fleet
            (cleaned.1 ++ [newRS]) cleaned.1) with
        | .error _ => pure false
        | .ok scaledDownCount => pure (0 < cleaned.2 + scaledDownCount)

/-- The pass behind the search for the new replica set. -/
def rollReplicaSets (oldRSs : List (ReplicaSet T)) (newRS : ReplicaSet T) : PassM T Unit := do
  let allRSs := oldRSs ++ [newRS]
  let scaledUp ← reconcileNewReplicaSet api fleet allRSs newRS
  if scaledUp then pure ()
  else do
    let scaledDown ←
      reconcileOldReplicaSets api fleet allRSs (filterActiveReplicaSets oldRSs) newRS
    if scaledDown then pure ()
    else if deploymentComplete fleet then cleanupDeployment api fleet oldRSs
    else pure ()

variable [DecidableEq T]

def rolloutRolling (rsList : List (ReplicaSet T)) : PassM T Unit := do
  match ← getAllReplicaSetsAndSyncRevision api fleet rsList true with
  | (some newRS, oldRSs, fleet) => rollReplicaSets api fleet oldRSs newRS
  -- A search that may create the replica set does not end without one.
  | (none, _, _) => pure ()

end

/-! ### What a call costs -/

namespace Call

/-- The replica set that a call is about, as it was read. -/
def target : Call T → ReplicaSet T
  | update sent _ => sent
  | delete rs _ => rs

def size : Call T → ℤ
  | update sent _ => sent.replicas
  | delete _ _ => 0

def takesEffect : Call T → Bool
  | update _ outcome => outcome.takesEffect
  | delete _ outcome => outcome.takesEffect

/-- The available replicas for which there is no room left. -/
def loss (c : Call T) : ℤ := max 0 (c.target.availableReplicas - c.size)

lemma loss_nonneg (c : Call T) : 0 ≤ c.loss := le_max_left _ _

end Call

/-- What is left of the available replicas of a replica set: it removes the unavailable ones first,
so a new size takes available ones only where there are more of them. -/
def Pass.left (p : Pass T) : ReplicaSet T → ℤ :=
  capped ReplicaSet.uid ((p.calls.filter Call.takesEffect).map fun c => (c.target.uid, c.size))
    fun rs => rs.availableReplicas

lemma Pass.available_le_left {p : Pass T} {sets : List (ReplicaSet T)}
    (hnd : (sets.map ReplicaSet.uid).Nodup)
    (hsame : ∀ c ∈ p.calls, ∀ rs ∈ sets, rs.uid = c.target.uid →
      rs.availableReplicas = c.target.availableReplicas) :
    getAvailableReplicaCountForReplicaSets sets ≤
      (sets.map p.left).sum + (p.calls.map Call.loss).sum := by
  have hleft : getAvailableReplicaCountForReplicaSets sets ≤ (sets.map p.left).sum +
      ((p.calls.filter Call.takesEffect).map Call.loss).sum := by
    refine sum_le_sum_capped_add hnd (fun c _ => c.loss_nonneg) fun c hc rs hrs huid => ?_
    rw [hsame c (List.mem_of_mem_filter hc) rs hrs huid]
    show (c.target.availableReplicas : ℤ) ≤ c.size + max 0 (c.target.availableReplicas - c.size)
    omega
  -- The calls without effect only add losses.
  have hall : ((p.calls.filter Call.takesEffect).map Call.loss).sum ≤
      (p.calls.map Call.loss).sum := by
    refine (List.filter_sublist.map Call.loss).sum_le_sum fun n hn => ?_
    obtain ⟨c, -, rfl⟩ := List.mem_map.mp hn
    exact c.loss_nonneg
  omega

/-! ### What a pass keeps

`sets` are the old replica sets and the new one as they are before the pass. -/

variable {api : Api T} {fleet : Fleet T} {r : RollingUpdate} {old sets : List (ReplicaSet T)}
  {base rs newRS : ReplicaSet T} {p : Pass T}

section

variable {n b : ℤ} {c : Call T} {size : ℕ}

/-- A number of replicas within the size of the fleet and its surge. -/
def WithinSurge (r : RollingUpdate) (size : ℕ) (total : ℤ) : Prop :=
  ∃ surge, getScaledValueFromIntOrPercent r.maxSurge size true = some surge ∧ total ≤ size + surge

/-- A call that knows the available replicas of its replica set and keeps within the surge where it
asks for more replicas. -/
structure Tame (r : RollingUpdate) (size : ℕ) (sets : List (ReplicaSet T)) (c : Call T) : Prop where
  available : ∀ rs ∈ sets, rs.uid = c.target.uid → rs.availableReplicas = c.target.availableReplicas
  surge : ∀ rs ∈ sets, rs.uid = c.target.uid → c.size ≤ rs.replicas ∨
    WithinSurge r size (specified sets - rs.replicas + c.size)

/-- The calls of the pass are tame and cost at most `n`, and the replica set that it creates keeps
within the surge. -/
structure Kept (r : RollingUpdate) (size : ℕ) (old sets : List (ReplicaSet T)) (n : ℤ)
    (p : Pass T) : Prop where
  tame : ∀ c ∈ p.calls, Tame r size sets c
  loss : (p.calls.map Call.loss).sum ≤ n
  created : ∀ rs, p.created = some rs → rs.replicas ≤ 0 ∨
    WithinSurge r size (specified old + rs.replicas)

section

variable (hnd : (sets.map ReplicaSet.uid).Nodup)
include hnd in
lemma Tame.of_mem (hbase : base ∈ sets) (huid : c.target.uid = base.uid)
    (havailable : c.target.availableReplicas = base.availableReplicas)
    (hsurge : c.size ≤ base.replicas ∨
      WithinSurge r size (specified sets - base.replicas + c.size)) :
    Tame r size sets c := by
  have heq : ∀ rs ∈ sets, rs.uid = c.target.uid → rs = base := fun rs hrs h =>
    List.inj_on_of_nodup_map hnd hrs hbase (h.trans huid)
  exact ⟨fun rs hrs h => heq rs hrs h ▸ havailable.symm, fun rs hrs h => heq rs hrs h ▸ hsurge⟩

section

variable (h : Kept r size old sets n p)
include h

lemma Kept.mono (hnb : n ≤ b) : Kept r size old sets b p := ⟨h.tame, h.loss.trans hnb, h.created⟩

lemma Kept.call (hc : Tame r size sets c) (hloss : c.loss ≤ b) :
    Kept r size old sets (n + b) (p.call c) := by
  refine ⟨?_, ?_, h.created⟩
  · intro c' hc'
    rcases List.mem_append.mp hc' with hc' | hc'
    · exact h.tame c' hc'
    · rwa [List.mem_singleton.mp hc']
  · show ((p.calls ++ [c]).map Call.loss).sum ≤ n + b
    rw [List.map_append, List.sum_append, List.map_singleton, List.sum_singleton]
    exact add_le_add h.loss hloss

include hnd

lemma Kept.shrink (fleet : Fleet T) (hrs : rs ∈ sets) {m : ℤ} (hm : m ≤ rs.replicas) (hb : 0 ≤ b)
    (hroom : (rs.availableReplicas : ℤ) ≤ m + b) (o : WriteOutcome) :
    Kept r size old sets (n + b) (p.call (.update (resized fleet rs m) o)) := by
  refine h.call (.of_mem hnd hrs rfl rfl (.inl hm)) ?_
  show max 0 ((rs.availableReplicas : ℤ) - m) ≤ b
  omega

lemma Kept.delete (hrs : rs ∈ sets) (hsettled : (rs.availableReplicas : ℤ) ≤ rs.replicas)
    (hzero : rs.replicas = 0) (o : WriteOutcome) :
    Kept r size old sets n (p.call (.delete rs o)) := by
  have htame : Tame r size sets (.delete rs o) := .of_mem hnd hrs rfl rfl (.inl hzero.ge)
  have hloss : (Call.delete rs o).loss ≤ 0 := by
    show max 0 ((rs.availableReplicas : ℤ) - 0) ≤ 0
    omega
  simpa using h.call htame hloss

end

section

variable {l : List (ReplicaSet T)} (hl : ∀ rs ∈ l, rs ∈ sets)
  (hsettled : ∀ rs ∈ l, (rs.availableReplicas : ℤ) ≤ rs.replicas)
include hnd hl hsettled

/-- **The cleanup costs nothing**, and it hands the replica sets on as they were read. -/
lemma wp_cleanupFrom (maxCleanupCount total : ℤ) (h : Kept r size old sets n p) :
    wp (cleanupFrom api fleet maxCleanupCount l total)
      ⟨fun a p => a.1 = l ∧ Kept r size old sets n p, Kept r size old sets n,
        fun _ => Kept r size old sets n⟩ p := by
  induction l generalizing total p with
  | nil => exact wp_pure ⟨rfl, h⟩
  | cons rs l ih =>
    have hrest : ∀ total' p', Kept r size old sets n p' →
        wp (cleanupFrom api fleet maxCleanupCount l total' >>= fun a => pure (rs :: a.1, a.2))
          ⟨fun a p => a.1 = rs :: l ∧ Kept r size old sets n p, Kept r size old sets n,
            fun _ => Kept r size old sets n⟩ p' := by
      intro total' p' h'
      refine wp_bind (wp_mono (ih (fun a ha => hl a (List.mem_cons_of_mem rs ha))
        (fun a ha => hsettled a (List.mem_cons_of_mem rs ha)) total' h') (fun a p ha => ?_)
        (fun _ h => h) fun _ _ h => h)
      exact wp_pure ⟨congrArg (rs :: ·) ha.1, ha.2⟩
    refine wp_ite (fun _ => wp_pure ⟨rfl, h⟩) fun _ => wp_ite (fun _ => hrest total p h) fun _ =>
      wp_ite (fun _ => wp_raise h) fun hle => ?_
    -- At least the available replicas keep their room.
    have hcall : ∀ o, Kept r size old sets n (p.call (.update (resized fleet rs (rs.replicas -
        min (maxCleanupCount - total) (rs.replicas - rs.availableReplicas))) o)) := by
      intro o
      have := h.shrink hnd fleet (hl rs List.mem_cons_self) (not_lt.mp hle) le_rfl (by omega) o
      rwa [add_zero] at this
    exact wp_bind (wp_scale (fun _ => hrest _ p h) (fun _ o => hrest _ _ (hcall o))
      fun _ o => hcall o)

/-- **The second loop costs what it counts**, up to its limit. -/
lemma wp_scaleDownFrom {limit total : ℤ} (htotal : total ≤ limit)
    (h : Kept r size old sets total p) :
    wp (scaleDownFrom api fleet limit l total) (.always (Kept r size old sets limit)) p := by
  induction l generalizing total p with
  | nil => exact wp_pure (h.mono htotal)
  | cons rs l ih =>
    have hrest : ∀ total' p', total' ≤ limit → Kept r size old sets total' p' →
        wp (scaleDownFrom api fleet limit l total') (.always (Kept r size old sets limit)) p' :=
      fun total' p' ht' h' => ih (fun a ha => hl a (List.mem_cons_of_mem rs ha))
        (fun a ha => hsettled a (List.mem_cons_of_mem rs ha)) ht' h'
    have hrs := hsettled rs List.mem_cons_self
    refine wp_ite (fun _ => wp_pure (h.mono htotal)) fun hlt => wp_ite (fun _ => hrest _ p htotal h)
      fun _ => wp_ite (fun _ => wp_raise (h.mono htotal)) fun hle => ?_
    have hcall : ∀ o, Kept r size old sets (total + min rs.replicas (limit - total))
        (p.call (.update (resized fleet rs (rs.replicas - min rs.replicas (limit - total))) o)) := by
      -- The available replicas lose no more than the size does.
      exact h.shrink hnd fleet (hl rs List.mem_cons_self) (not_lt.mp hle) (by omega) (by omega)
    have hbound : total + min rs.replicas (limit - total) ≤ limit := by omega
    refine wp_bind (wp_scale (fun heq => ?_) (fun _ o => ?_) fun _ o => (hcall o).mono hbound)
    · exact hrest _ p hbound (h.mono (by omega))
    · exact hrest _ _ hbound (hcall o)

end
end

/-! ### The parts of the pass -/

/-- How the new replica set of the pass stands to the one before it: it has been created with no
more replicas than the fleet asks for, or its size is the one before. -/
structure Stands (fleet : Fleet T) (base newRS : ReplicaSet T) : Prop where
  uid : newRS.uid = base.uid
  available : newRS.availableReplicas = base.availableReplicas
  settled : (newRS.availableReplicas : ℤ) ≤ newRS.replicas
  size : newRS.replicas = base.replicas ∨ newRS.replicas ≤ fleet.replicas

/-- What the available replicas exceed the fleet's minimum by. -/
def spare (fleet : Fleet T) (sets : List (ReplicaSet T)) : ℤ :=
  max 0 (getAvailableReplicaCountForReplicaSets sets - (fleet.replicas - maxUnavailable fleet))

lemma spare_nonneg (fleet : Fleet T) (sets : List (ReplicaSet T)) : 0 ≤ spare fleet sets :=
  le_max_left _ _

/-- The sums of the pass stay below the bound of `int32`. -/
def Bounded (fleet : Fleet T) (r : RollingUpdate) (sets : List (ReplicaSet T)) : Prop :=
  specified sets + fleet.replicas +
    (getScaledValueFromIntOrPercent r.maxSurge fleet.replicas true).getD 0 < 2 ^ 31

lemma available_perm {l l' : List (ReplicaSet T)} (h : l.Perm l') :
    getAvailableReplicaCountForReplicaSets l = getAvailableReplicaCountForReplicaSets l' :=
  (h.map _).sum_eq

lemma available_singleton (rs : ReplicaSet T) :
    getAvailableReplicaCountForReplicaSets [rs] = rs.availableReplicas := by
  simp [getAvailableReplicaCountForReplicaSets]

variable (hstrategy : fleet.strategy = .rollingUpdate r)
  (hnd : ((old ++ [base]).map ReplicaSet.uid).Nodup)
  (hsettled : ∀ rs ∈ old ++ [base], (rs.availableReplicas : ℤ) ≤ rs.replicas)
  (hnew : Stands fleet base newRS)
include hnd hsettled hnew in
lemma wp_reconcileOldReplicaSets {all : List (ReplicaSet T)}
    (h : Kept r fleet.replicas old (old ++ [base]) 0 p) :
    wp (reconcileOldReplicaSets api fleet all (filterActiveReplicaSets old) newRS)
      (.always (Kept r fleet.replicas old (old ++ [base]) (spare fleet (old ++ [base])))) p := by
  have hspare := h.mono (spare_nonneg fleet (old ++ [base]))
  have hmem : ∀ rs ∈ sortByCreationTimestamp (filterActiveReplicaSets old), rs ∈ old := by
    intro rs hrs
    exact List.mem_of_mem_filter ((sortByCreationTimestamp_perm _).mem_iff.mp hrs)
  have hsets : ∀ rs ∈ sortByCreationTimestamp (filterActiveReplicaSets old), rs ∈ old ++ [base] :=
    fun rs hrs => List.mem_append_left _ (hmem rs hrs)
  refine wp_ite (fun _ => wp_pure hspare) fun _ => wp_ite (fun _ => wp_pure hspare) fun _ => ?_
  refine wp_bind (wp_attempt (wp_mono
    (wp_cleanupFrom hnd hsets (fun rs hrs => hsettled rs (hsets rs hrs)) _ 0 h)
    (fun cleaned p' hcleaned => ?_) (fun _ h => h.mono (spare_nonneg _ _)) fun _ _ h => ?_))
  swap
  · dsimp only
    exact wp_pure (h.mono (spare_nonneg _ _))
  obtain ⟨hlist, h'⟩ := hcleaned
  -- The second loop counts the available replicas of all replica sets.
  have havailable : getAvailableReplicaCountForReplicaSets (cleaned.1 ++ [newRS]) =
      getAvailableReplicaCountForReplicaSets (old ++ [base]) := by
    rw [hlist, getAvailableReplicaCount_append, getAvailableReplicaCount_append,
      available_perm (sortByCreationTimestamp_perm _),
      available_filterActive fun rs hrs => hsettled rs (List.mem_append_left _ hrs),
      available_singleton, available_singleton, hnew.available]
  have hscale : wp (scaleDownOldReplicaSetsForRollingUpdate api fleet (cleaned.1 ++ [newRS])
      cleaned.1) (.always (Kept r fleet.replicas old (old ++ [base]) (spare fleet (old ++ [base])))) p' := by
    refine wp_ite (fun _ => wp_pure (h'.mono (spare_nonneg _ _))) fun hlt => ?_
    rw [havailable, hlist] at *
    have hlimit : spare fleet (old ++ [base]) = getAvailableReplicaCountForReplicaSets
        (old ++ [base]) - (fleet.replicas - maxUnavailable fleet) := by
      unfold spare
      omega
    rw [← hlimit]
    have hsorted : ∀ rs ∈ sortByCreationTimestamp
        (sortByCreationTimestamp (filterActiveReplicaSets old)), rs ∈ old ++ [base] :=
      fun rs hrs => hsets rs ((sortByCreationTimestamp_perm _).mem_iff.mp hrs)
    exact wp_scaleDownFrom hnd hsorted (fun rs hrs => hsettled rs (hsorted rs hrs))
      (spare_nonneg _ _) h'
  refine wp_bind (wp_attempt (wp_mono hscale (fun count p'' h'' => ?_) (fun _ h => h)
    fun _ p'' h'' => ?_))
  · dsimp only
    exact wp_pure h''
  · dsimp only
    exact wp_pure h''

include hstrategy

include hnd hsettled hnew

variable (hbound : Bounded fleet r (old ++ [base]))
include hbound

lemma wp_reconcileNewReplicaSet (h : Kept r fleet.replicas old (old ++ [base]) 0 p) :
    wp (reconcileNewReplicaSet api fleet (old ++ [newRS]) newRS)
      ⟨fun scaled p => Kept r fleet.replicas old (old ++ [base])
          (if scaled then spare fleet (old ++ [base]) else 0) p,
        Kept r fleet.replicas old (old ++ [base]) (spare fleet (old ++ [base])),
        fun _ => Kept r fleet.replicas old (old ++ [base]) (spare fleet (old ++ [base]))⟩ p := by
  have hbase : base ∈ old ++ [base] := by simp
  refine wp_ite (fun _ => wp_pure h) fun hne => wp_ite (fun hlt => ?_) fun hle => ?_
  · -- The fleet has become smaller: the new replica set keeps at least its size.
    have hcall : ∀ o, Kept r fleet.replicas old (old ++ [base]) (spare fleet (old ++ [base]))
        (p.call (.update (resized fleet newRS fleet.replicas) o)) := by
      intro o
      have hsize : newRS.replicas = base.replicas := by
        rcases hnew.size with hsize | hsize <;> omega
      have htame : Tame r fleet.replicas (old ++ [base])
          (.update (resized fleet newRS fleet.replicas) o) := by
        refine .of_mem hnd hbase hnew.uid hnew.available (.inl ?_)
        show (fleet.replicas : ℤ) ≤ base.replicas
        omega
      have hloss : (Call.update (resized fleet newRS fleet.replicas) o).loss ≤
          spare fleet (old ++ [base]) := by
        have hold : 0 ≤ getAvailableReplicaCountForReplicaSets old := by
          refine List.sum_nonneg fun x hx => ?_
          obtain ⟨rs, -, rfl⟩ := List.mem_map.mp hx
          exact Int.natCast_nonneg _
        have hsum := getAvailableReplicaCount_append old [base]
        rw [available_singleton, ← hnew.available] at hsum
        show max 0 ((newRS.availableReplicas : ℤ) - fleet.replicas) ≤ max 0 _
        omega
      simpa using h.call htame hloss
    refine wp_bind (wp_scale (fun _ => wp_pure h) (fun _ o => wp_pure (hcall o)) fun _ o => hcall o)
  · refine wp_bind (wp_ofExcept (fun n hn => ?_) fun _ _ => h.mono (spare_nonneg _ _))
    have hpos : 0 ≤ newRS.replicas := (Int.natCast_nonneg _).trans hnew.settled
    have hfits : Fits fleet r (old ++ [newRS]) := by
      have hold := specified_nonneg fun rs hrs => hsettled rs (List.mem_append_left [base] hrs)
      have hbase := (Int.natCast_nonneg _).trans (hsettled base hbase)
      unfold Bounded at hbound
      rw [specified_append, specified_singleton] at hbound
      refine ⟨?_, ?_, by omega⟩ <;> rw [specified_append, specified_singleton] <;> omega
    obtain ⟨hbounds, hsurge⟩ := newRSNewReplicas_surge hstrategy hfits hpos (not_lt.mp hle) hn
    have hcall : newRS.replicas ≠ n → ∀ o, Kept r fleet.replicas old (old ++ [base])
        (spare fleet (old ++ [base])) (p.call (.update (resized fleet newRS n) o)) := by
      intro hsize o
      -- More replicas than before: within the surge, and nothing is lost.
      have htame : Tame r fleet.replicas (old ++ [base]) (.update (resized fleet newRS n) o) := by
        refine .of_mem hnd hbase hnew.uid hnew.available ?_
        rcases hsurge with hsame | ⟨surge, hsurge, htotal⟩
        · omega
        · refine .inr ⟨surge, hsurge, ?_⟩
          show specified (old ++ [base]) - base.replicas + n ≤ _
          rw [specified_append, specified_singleton] at htotal ⊢
          omega
      have hloss : (Call.update (resized fleet newRS n) o).loss ≤ 0 := by
        have := hnew.settled
        show max 0 ((newRS.availableReplicas : ℤ) - n) ≤ 0
        omega
      exact (h.call htame hloss).mono (by simpa using spare_nonneg fleet (old ++ [base]))
    exact wp_bind (wp_scale (fun _ => wp_pure h) (fun hsize o => wp_pure (hcall hsize o))
      fun hsize o => hcall hsize o)

/-- **The pass behind the search** for the new replica set. -/
lemma wp_rollReplicaSets (h : Kept r fleet.replicas old (old ++ [base]) 0 p) :
    wp (rollReplicaSets api fleet old newRS)
      (.always (Kept r fleet.replicas old (old ++ [base]) (spare fleet (old ++ [base])))) p := by
  refine wp_bind (wp_mono (wp_reconcileNewReplicaSet hstrategy hnd hsettled hnew hbound h)
    (fun scaled p' h' => ?_) (fun _ h => h) fun _ _ h => h)
  cases scaled with
  | true => exact wp_pure h'
  | false =>
    refine wp_bind (wp_mono (wp_reconcileOldReplicaSets hnd hsettled hnew h')
      (fun scaledDown p'' h'' => ?_) (fun _ h => h) fun _ _ h => h)
    refine wp_ite (fun _ => wp_pure h'') fun _ => wp_ite (fun _ => ?_) fun _ => wp_pure h''
    refine wp_cleanupDeployment (fun p rs hrs hzero o h => ?_) h''
    have hmem := List.mem_append_left [base] hrs
    exact h.delete hnd hmem (hsettled rs hmem) hzero o

end

/-! ### The search for the new replica set -/

section

variable [DecidableEq T]

/-- The new replica set before it is created: one that the creation finds, or one without
replicas. -/
def uncreatedReplicaSet (api : Api T) (fleet : Fleet T) : Option (ReplicaSet T) :=
  match api.create with
  | .created uid creationTimestamp => some (blankReplicaSet api fleet uid creationTimestamp)
  | .alreadyExists (some (controlled, rs)) =>
    if controlled && rs.template = fleet.template then some rs else none
  | .alreadyExists none => none
  | .failed => none

def baseReplicaSet (api : Api T) (fleet : Fleet T) (rsList : List (ReplicaSet T)) :
    Option (ReplicaSet T) :=
  match findNewReplicaSet fleet rsList with
  | some newRS => some newRS
  | none => uncreatedReplicaSet api fleet

/-- The old replica sets and the new one, as they are before the pass. -/
def fleetSets (api : Api T) (fleet : Fleet T) (rsList : List (ReplicaSet T)) :
    List (ReplicaSet T) :=
  findOldReplicaSets fleet rsList ++ (baseReplicaSet api fleet rsList).toList

variable {revision : ℤ}

/-- What the search leaves: the new replica set stands for the one before the pass. -/
def Found (r : RollingUpdate) (fleet : Fleet T) (old sets : List (ReplicaSet T))
    (base : Option (ReplicaSet T)) : Post PassError (Pass T) (Option (ReplicaSet T) × Fleet T) :=
  ⟨fun a p => ∃ rs newRS, base = some rs ∧ a.1 = some newRS ∧ fleet.SameSpec a.2 ∧
      Stands fleet rs newRS ∧ Kept r fleet.replicas old sets 0 p,
    Kept r fleet.replicas old sets 0, fun _ => Kept r fleet.replicas old sets 0⟩

omit [DecidableEq T] in
lemma wp_syncNewReplicaSet (hnd : (sets.map ReplicaSet.uid).Nodup) (hbase : base ∈ sets)
    (hsettled : (base.availableReplicas : ℤ) ≤ base.replicas)
    (h : Kept r fleet.replicas old sets 0 p) :
    wp (syncNewReplicaSet api fleet base revision) (Found r fleet old sets (some base)) p := by
  obtain ⟨annotations, hcopy⟩ := setNewReplicaSetAnnotations_sameBut fleet base revision true
    maxRevHistoryLengthInChars
  refine wp_ite (fun _ => ?_) fun _ => ?_
  · rw [hcopy]
    have hcall : ∀ o, Kept r fleet.replicas old sets 0 (p.call (.update { base with
        annotations, minReadySeconds := fleet.minReadySeconds } o)) := by
      intro o
      have hloss : (Call.update { base with
          annotations, minReadySeconds := fleet.minReadySeconds } o).loss ≤ 0 := by
        show max 0 ((base.availableReplicas : ℤ) - base.replicas) ≤ 0
        omega
      simpa using h.call (.of_mem hnd hbase rfl rfl (.inl le_rfl)) hloss
    refine wp_bind (wp_update (fun o => wp_pure ⟨_, _, rfl, rfl, ⟨_, _, rfl⟩, ?_, hcall o⟩) hcall)
    exact ⟨rfl, rfl, hsettled, .inl rfl⟩
  · rw [hcopy]
    have hstands : Stands fleet base { base with annotations } := ⟨rfl, rfl, hsettled, .inl rfl⟩
    have hspec := progressing_sameSpec fleet
    refine wp_ite (fun _ => wp_bind (wp_updateStatus ?_ h)) fun _ => ?_
    · exact wp_pure ⟨_, _, rfl, rfl, hspec _ _ _, hstands, h⟩
    · exact wp_pure ⟨_, _, rfl, rfl, hspec _ _ _, hstands, h⟩

omit [DecidableEq T] in
lemma wp_finishCreation {alreadyExists : Bool} (hnew : Stands fleet base newRS)
    (h : Kept r fleet.replicas old sets 0 p) :
    wp (finishCreation api fleet newRS revision alreadyExists)
      (Found r fleet old sets (some base)) p := by
  have hspec := progressing_sameSpec fleet
  refine wp_ite (fun _ => wp_bind (wp_updateStatus ?_ h)) fun _ => ?_
  · exact wp_pure ⟨_, _, rfl, rfl, hspec _ _ _, hnew, h⟩
  · exact wp_pure ⟨_, _, rfl, rfl, hspec _ _ _, hnew, h⟩

lemma wp_createNewReplicaSet (hstrategy : fleet.strategy = .rollingUpdate r)
    (hsettled : ∀ rs, uncreatedReplicaSet api fleet = some rs →
      (rs.availableReplicas : ℤ) ≤ rs.replicas)
    (hold : 0 ≤ specified old) (hbound : Bounded fleet r old)
    (h : Kept r fleet.replicas old sets 0 p) :
    wp (createNewReplicaSet api fleet old revision)
      (Found r fleet old sets (uncreatedReplicaSet api fleet)) p := by
  refine wp_bind (wp_ofExcept (fun n hn => ?_) fun _ _ => h)
  have hblank : (blankReplicaSet api fleet "" 0).replicas = 0 := rfl
  have hfits : Fits fleet r (old ++ [blankReplicaSet api fleet "" 0]) := by
    unfold Bounded at hbound
    refine ⟨?_, ?_, by omega⟩ <;> rw [specified_append, specified_singleton, hblank] <;> omega
  obtain ⟨hbounds, hsurge⟩ := newRSNewReplicas_surge hstrategy hfits hblank.ge
    (hblank.trans_le (Int.natCast_nonneg _)) hn
  rw [hblank] at hbounds hsurge
  refine wp_modify ?_
  obtain ⟨hreplicas, havailable⟩ := newReplicaSet_counts api fleet revision n
  have h' : Kept r fleet.replicas old sets 0 (p.create (newReplicaSet api fleet revision n)) := by
    refine ⟨h.tame, h.loss, fun rs hrs => ?_⟩
    cases hrs
    rw [hreplicas]
    rcases hsurge with hle | ⟨surge, hsurge, htotal⟩
    · exact .inl hle
    · refine .inr ⟨surge, hsurge, ?_⟩
      rw [specified_append, specified_singleton, hblank] at htotal
      omega
  unfold uncreatedReplicaSet at hsettled ⊢
  cases hcreate : api.create with
  | created uid creationTimestamp =>
    refine wp_finishCreation ⟨rfl, havailable, ?_, ?_⟩ h'
    · show ((newReplicaSet api fleet revision n).availableReplicas : ℤ) ≤
        (newReplicaSet api fleet revision n).replicas
      rw [havailable, hreplicas]
      exact hbounds.1
    · exact .inr (hreplicas.trans_le hbounds.2)
  | alreadyExists found =>
    rcases found with _ | ⟨controlled, rs⟩
    · exact wp_raise h'
    · refine wp_ite (fun hours => ?_) fun _ => wp_raise h'
      simp only [hcreate, hours] at hsettled ⊢
      exact wp_finishCreation ⟨rfl, rfl, hsettled rs rfl, .inl rfl⟩ h'
  | failed => exact wp_raise h'

/-! ### Whole passes -/

section

variable {rsList : List (ReplicaSet T)} (hstrategy : fleet.strategy = .rollingUpdate r)
  (hnd : ((fleetSets api fleet rsList).map ReplicaSet.uid).Nodup)
  (hsettled : ∀ rs ∈ fleetSets api fleet rsList, (rs.availableReplicas : ℤ) ≤ rs.replicas)
  (hbound : Bounded fleet r (fleetSets api fleet rsList))
include hstrategy hnd hsettled hbound

lemma wp_getNewReplicaSet
    (h : Kept r fleet.replicas (findOldReplicaSets fleet rsList) (fleetSets api fleet rsList) 0 p) :
    wp (getNewReplicaSet api fleet rsList (findOldReplicaSets fleet rsList) true)
      (Found r fleet (findOldReplicaSets fleet rsList) (fleetSets api fleet rsList)
        (baseReplicaSet api fleet rsList)) p := by
  have hbase : ∀ rs, baseReplicaSet api fleet rsList = some rs →
      rs ∈ fleetSets api fleet rsList := by
    intro rs hrs
    exact List.mem_append_right _ (by simp [hrs])
  unfold getNewReplicaSet
  cases hnew : findNewReplicaSet fleet rsList with
  | some newRS =>
    have heq : baseReplicaSet api fleet rsList = some newRS := by simp [baseReplicaSet, hnew]
    rw [heq]
    exact wp_syncNewReplicaSet hnd (hbase newRS heq) (hsettled newRS (hbase newRS heq)) h
  | none =>
    have heq : baseReplicaSet api fleet rsList = uncreatedReplicaSet api fleet := by
      simp [baseReplicaSet, hnew]
    have hold := specified_nonneg (l := findOldReplicaSets fleet rsList) fun rs hrs =>
      hsettled rs (List.mem_append_left _ hrs)
    have hnew := specified_nonneg (l := (baseReplicaSet api fleet rsList).toList) fun rs hrs =>
      hsettled rs (List.mem_append_right _ hrs)
    have hbound' : Bounded fleet r (findOldReplicaSets fleet rsList) := by
      unfold Bounded fleetSets at hbound
      rw [specified_append] at hbound
      unfold Bounded
      omega
    rw [heq]
    exact wp_createNewReplicaSet hstrategy
      (fun rs hrs => hsettled rs (hbase rs (heq.trans hrs))) hold hbound' h

lemma wp_rolloutRolling : wp (rolloutRolling api fleet rsList)
      (.always (Kept r fleet.replicas (findOldReplicaSets fleet rsList) (fleetSets api fleet rsList)
        (spare fleet (fleetSets api fleet rsList)))) {} := by
  have hstart : Kept r fleet.replicas (findOldReplicaSets fleet rsList)
      (fleetSets api fleet rsList) 0 {} := ⟨by simp, by simp, by simp⟩
  have hspare := spare_nonneg fleet (fleetSets api fleet rsList)
  refine wp_bind (wp_bind (wp_mono (wp_getNewReplicaSet hstrategy hnd hsettled hbound hstart)
    (fun a p ha => ?_) (fun _ h => h.mono hspare) fun _ _ h => h.mono hspare))
  obtain ⟨base, newRS, hbase, hnew, ⟨annotations, status, hfleet⟩, hstands, hkept⟩ := ha
  have hsets : fleetSets api fleet rsList = findOldReplicaSets fleet rsList ++ [base] := by
    simp [fleetSets, hbase]
  rw [hsets] at hnd hsettled hbound hkept ⊢
  refine wp_pure ?_
  dsimp only
  rw [hnew, hfleet]
  -- Neither the annotations nor the status of the fleet matter from here on.
  refine wp_rollReplicaSets ?_ hnd hsettled ?_ hbound ?_
  · exact hstrategy
  · exact ⟨hstands.uid, hstands.available, hstands.settled, hstands.size⟩
  · exact hkept

end

/-- **A pass of a rolling update keeps both bounds**: the new replica set is created and raised
within the surge, and of the available replicas at least those are left that the fleet needs, or
all.  The sums fit into 32 bits. -/
theorem rollout_keeps_bounds (api : Api T) (fleet : Fleet T) (r : RollingUpdate)
    (rsList : List (ReplicaSet T)) (hstrategy : fleet.strategy = .rollingUpdate r)
    (hnd : ((fleetSets api fleet rsList).map ReplicaSet.uid).Nodup)
    (hsettled : ∀ rs ∈ fleetSets api fleet rsList, (rs.availableReplicas : ℤ) ≤ rs.replicas)
    (hbound : Bounded fleet r (fleetSets api fleet rsList)) :
    (∀ rs, (exec (rolloutRolling api fleet rsList) {}).created = some rs → 0 < rs.replicas →
      WithinSurge r fleet.replicas
        (specified (findOldReplicaSets fleet rsList) + rs.replicas)) ∧
    (∀ sent o, .update sent o ∈ (exec (rolloutRolling api fleet rsList) {}).calls →
      ∀ rs ∈ fleetSets api fleet rsList, rs.uid = sent.uid → rs.replicas < sent.replicas →
        WithinSurge r fleet.replicas (specified (fleetSets api fleet rsList) -
          rs.replicas + sent.replicas)) ∧
    min (getAvailableReplicaCountForReplicaSets (fleetSets api fleet rsList))
        (fleet.replicas - maxUnavailable fleet) ≤
      ((fleetSets api fleet rsList).map (exec (rolloutRolling api fleet rsList) {}).left).sum := by
  have hkept := exec_of_wp (wp_rolloutRolling hstrategy hnd hsettled hbound)
  refine ⟨?_, ?_, ?_⟩
  · intro rs hrs hpos
    rcases hkept.created rs hrs with hle | hwithin
    · omega
    · exact hwithin
  · intro sent o hcall rs hrs huid hraise
    rcases (hkept.tame _ hcall).surge rs hrs huid with hle | hwithin
    · exact absurd hle (not_le.mpr hraise)
    · exact hwithin
  · have hleft := Pass.available_le_left hnd fun c hc => (hkept.tame c hc).available
    have hloss := hkept.loss
    unfold spare at hloss
    omega

/-- A fleet of three replicas, one of which may be unavailable, during an update from the template 0
to the template 1. -/
def sampleFleet : Fleet ℕ where
  uid := "fleet"
  name := "fleet"
  generation := 1
  annotations := ∅
  replicas := 3
  template := 1
  strategy := .rollingUpdate ⟨some (.int 1), some (.percent 40)⟩
  minReadySeconds := 0
  revisionHistoryLimit := none
  progressDeadlineSeconds := none
  status := ⟨1, 4, 1, 3, none, none⟩

def sampleReplicaSet (uid : String) (template : ℕ) (replicas : ℤ) (availableReplicas : ℕ) :
    ReplicaSet ℕ where
  uid := uid
  name := uid
  creationTimestamp := template
  generation := 1
  annotations := AList.singleton revisionAnnotation (toString (template + 1))
  replicas := replicas
  minReadySeconds := 0
  template := template
  availableReplicas := availableReplicas

/-- An API server that rejects all writes but the first. -/
def sampleApi : Api ℕ where
  write := fun n => if n = 0 then .applied else .rejected
  create := .failed
  updateStatus := true
  hash := fun _ _ => ""

/-- Two of the three old replicas are available: the write of the cleanup is applied, that of the
second loop is rejected. -/
theorem rollout_keeps_bounds_rejected :
    min (getAvailableReplicaCountForReplicaSets (fleetSets sampleApi sampleFleet
      [sampleReplicaSet "old" 0 3 2, sampleReplicaSet "new" 1 1 1]))
        (sampleFleet.replicas - maxUnavailable sampleFleet) ≤
      ((fleetSets sampleApi sampleFleet
        [sampleReplicaSet "old" 0 3 2, sampleReplicaSet "new" 1 1 1]).map
        (exec (rolloutRolling sampleApi sampleFleet
          [sampleReplicaSet "old" 0 3 2, sampleReplicaSet "new" 1 1 1]) {}).left).sum :=
  (rollout_keeps_bounds sampleApi sampleFleet ⟨some (.int 1), some (.percent 40)⟩
    [sampleReplicaSet "old" 0 3 2, sampleReplicaSet "new" 1 1 1] rfl (by decide +kernel)
    (by decide +kernel) (by unfold Bounded; decide +kernel)).2.2

/-- Two old replica sets of the largest size count as -2 replicas, and the new one is created beside
them. -/
theorem surge_exceeded :
    let sets := [sampleReplicaSet "a" 0 2147483647 0, sampleReplicaSet "b" 2 2147483647 0]
    let api := { sampleApi with create := .created "new" 3 }
    (findOldReplicaSets sampleFleet sets).map ReplicaSet.uid = ["a", "b"] ∧
      getReplicaCountForReplicaSets sets = -2 ∧
      (exec (rolloutRolling api sampleFleet sets) {}).created.map ReplicaSet.replicas = some 3 ∧
      ¬ WithinSurge ⟨some (.int 1), some (.percent 40)⟩ sampleFleet.replicas
        (specified (findOldReplicaSets sampleFleet sets) + 3) := by
  refine ⟨by decide +kernel, by decide +kernel, by decide +kernel, ?_⟩
  rintro ⟨surge, hsurge, hle⟩
  obtain rfl : 1 = surge := Option.some.inj hsurge
  revert hle
  decide +kernel

end
end Lodestar.Controller
