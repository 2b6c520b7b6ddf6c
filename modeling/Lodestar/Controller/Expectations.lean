import Lodestar.Controller.ReplicaSets
import Lodestar.Lib.Run

/-!
# Reconciles of a replica set

`pkg/controller/rayclusterreplicaset/rayclusterreplicaset_controller.go` with the expectations of
`pkg/controller/util/expectation/expectation.go`: a reconcile lists the clusters of the replica set,
counts the active ones and creates or deletes the difference to the desired count, unless it still
expects to see something of an earlier reconcile.

A listing comes from a cache, which is behind the API server: it is a state that the API server has
had, not older than that of the listing before.  The expectation of a creation is lowered right
behind the call that creates the cluster, and not when the cluster appears in the cache.

The update of the reported status at the end of a reconcile is left out; it changes no cluster.
-/

namespace Lodestar.Controller

open Lib (Along)

/-! ### Expectations -/

/-- `ControlleeExpectations`, with its time in seconds. -/
structure ControlleeExpectations where
  add : ℤ
  del : ℤ
  timestamp : ℤ
  deriving DecidableEq

def expectationsTimeout : ℤ := 300

def ControlleeExpectations.fulfilled (e : ControlleeExpectations) : Bool := e.add ≤ 0 && e.del ≤ 0

def ControlleeExpectations.isExpired (e : ControlleeExpectations) (now : ℤ) : Bool :=
  expectationsTimeout < now - e.timestamp

/-- `SatisfiedExpectations`: a controller without expectations has nothing to wait for. -/
def satisfiedExpectations (e : Option ControlleeExpectations) (now : ℤ) : Bool :=
  match e with
  | none => true
  | some e => e.fulfilled || e.isExpired now

def lowerExpectations (e : Option ControlleeExpectations) (add del : ℤ) :
    Option ControlleeExpectations :=
  e.map fun e => { e with add := e.add - add, del := e.del - del }

/-! ### Clusters -/

def isClusterActive (c : RayCluster) : Bool :=
  if c.deletionTimestamp.isSome then false
  else if !c.provisioned then true
  else c.isRayClusterReady

def filterActiveClusters (clusters : List RayCluster) : List RayCluster :=
  clusters.filter isClusterActive

def liveCount (clusters : List RayCluster) : ℕ :=
  clusters.countP fun c => c.deletionTimestamp.isNone

/-- `constructRayCluster`, with the suffix that the API server adds to the name. -/
def constructRayCluster {T : Type} (replicaset : ReplicaSet T) (suffix : String) : RayCluster where
  name := replicaset.name ++ "-" ++ suffix
  controller := some replicaset.uid
  provisioned := false
  headPodReady := false
  readyWorkerReplicas := 0
  desiredWorkerReplicas := 0

/-! ### The API server and the controller -/

structure ReplicaSetState where
  expectations : Option ControlleeExpectations := none
  /-- The clusters of the API server in its earlier states, from the oldest on. -/
  past : List (List RayCluster) := []
  current : List RayCluster := []
  /-- The number of the state that the last listing has shown. -/
  seen : ℕ := 0
  /-- A creation has led to more clusters than desired. -/
  overshot : Bool := false
  deriving DecidableEq

namespace ReplicaSetState

def write (s : ReplicaSetState) (clusters : List RayCluster) : ReplicaSetState :=
  { s with past := s.past ++ [s.current], current := clusters }

/-- The number of the state that a listing shows which asks for the state `i`: there is none beyond
the current one, and the cache does not go back. -/
def listed (s : ReplicaSetState) (i : ℕ) : ℕ := max s.seen (min i s.past.length)

def listing (s : ReplicaSetState) (i : ℕ) : List RayCluster :=
  (s.past ++ [s.current]).getD (s.listed i) s.current

end ReplicaSetState

structure Reconcile where
  now : ℤ
  /-- The number of the state that its listing shows. -/
  listing : ℕ
  /-- The answer to the `i`-th creation: the suffix of the new name, or an error. -/
  create : ℕ → Option String
  /-- Whether the deletion of the `i`-th cluster succeeds. -/
  delete : ℕ → Bool

section

variable {T : Type} (rs : ReplicaSet T)

/-- A creation, and the expectation that is lowered behind it. -/
def createCluster (s : ReplicaSetState) (suffix : String) : ReplicaSetState :=
  let clusters := s.current ++ [constructRayCluster rs suffix]
  { s.write clusters with
    expectations := lowerExpectations s.expectations 1 0
    overshot := s.overshot || rs.replicas < liveCount clusters }

/-- `scaleUp`: `diff` creations, from the `i`-th one on, up to the first error. -/
def scaleUp (create : ℕ → Option String) : ℕ → ℕ → ReplicaSetState → ReplicaSetState
  | 0, _, s => s
  | diff + 1, i, s =>
    match create i with
    | none => s
    | some suffix => scaleUp create diff (i + 1) (createCluster rs s suffix)

def markDeleted (now : ℤ) (name : String) (clusters : List RayCluster) : List RayCluster :=
  clusters.map fun c => if c.name = name then { c with deletionTimestamp := some now } else c

/-- A deletion, and the expectation that is lowered behind it, also behind an error. -/
def deleteCluster (now : ℤ) (succeeds : Bool) (s : ReplicaSetState) (c : RayCluster) :
    ReplicaSetState :=
  let s := if succeeds then s.write (markDeleted now c.name s.current) else s
  { s with expectations := lowerExpectations s.expectations 0 1 }

/-- `scaleDown`: the deletions run side by side; `delete` tells how each of them ends. -/
def scaleDown (now : ℤ) (delete : ℕ → Bool) : List RayCluster → ℕ → ReplicaSetState →
    ReplicaSetState
  | [], _, s => s
  | c :: rest, i, s => scaleDown now delete rest (i + 1) (deleteCluster now (delete i) s c)

def rsNeedsSync (s : ReplicaSetState) (r : Reconcile) : Prop :=
  satisfiedExpectations s.expectations r.now ∧ rs.deletionTimestamp = none

instance (s : ReplicaSetState) (r : Reconcile) : Decidable (rsNeedsSync rs s r) :=
  inferInstanceAs (Decidable (_ ∧ _))

def reconcile (s : ReplicaSetState) (r : Reconcile) : ReplicaSetState :=
  let filteredClusters := filterActiveClusters (s.listing r.listing)
  let s := { s with seen := s.listed r.listing }
  if rsNeedsSync rs s r then
    let currentReplicas : ℤ := filteredClusters.length
    let desiredReplicas := rs.replicas
    if currentReplicas < desiredReplicas then
      let diff := (desiredReplicas - currentReplicas).toNat
      scaleUp rs r.create diff 0 { s with expectations := some ⟨diff, 0, r.now⟩ }
    else if desiredReplicas < currentReplicas then
      let diff := (currentReplicas - desiredReplicas).toNat
      scaleDown r.now r.delete (filteredClusters.take diff) 0
        { s with expectations := some ⟨0, diff, r.now⟩ }
    else s
  else s

inductive SetEvent where
  | reconcile (r : Reconcile)
  /-- The replica set cannot be read: its expectations are dropped. -/
  | notFetched
  /-- The clusters cannot be listed. -/
  | notListed
  /-- Others change the clusters: their status, deletions, removals, creations. -/
  | others (clusters : List RayCluster)

def step (s : ReplicaSetState) : SetEvent → ReplicaSetState
  | .reconcile r => reconcile rs s r
  | .notFetched => { s with expectations := none }
  | .notListed => s
  | .others clusters => s.write clusters

end

/-! ### Creations -/

variable {T : Type} {rs : ReplicaSet T} {s : ReplicaSetState} {create : ℕ → Option String}
  {diff i : ℕ}

lemma not_overshot_scaleUp (h : s.overshot = false)
    (hroom : (liveCount s.current : ℤ) + diff ≤ rs.replicas) :
    (scaleUp rs create diff i s).overshot = false := by
  induction diff generalizing i s with
  | zero => exact h
  | succ diff ih =>
    rw [scaleUp]
    cases create i with
    | none => exact h
    | some suffix =>
      have hlive : liveCount (s.current ++ [constructRayCluster rs suffix]) =
        liveCount s.current + 1 := by simp [liveCount, constructRayCluster]
      refine ih ?_ ?_
      · show (s.overshot || decide (rs.replicas <
          (liveCount (s.current ++ [constructRayCluster rs suffix]) : ℤ))) = false
        rw [h, Bool.false_or, decide_eq_false_iff_not]
        omega
      · show (liveCount (s.current ++ [constructRayCluster rs suffix]) : ℤ) + diff ≤ rs.replicas
        omega

lemma expectations_scaleUp {e : ControlleeExpectations} (he : s.expectations = some e) :
    ∃ k ≤ diff, (scaleUp rs create diff i s).expectations = some { e with add := e.add - k } ∧
      (k = diff ↔ ∀ j < diff, (create (i + j)).isSome) := by
  induction diff generalizing i s e with
  | zero => exact ⟨0, le_rfl, by simpa [scaleUp] using he, by simp⟩
  | succ diff ih =>
    rw [scaleUp]
    cases hi : create i with
    | none =>
      refine ⟨0, by omega, by simpa using he, iff_of_false (by omega) fun hall => ?_⟩
      have := hall 0 (by omega)
      simp [hi] at this
    | some suffix =>
      have hlowered : (createCluster rs s suffix).expectations =
          some { e with add := e.add - 1, del := e.del - 0 } := by
        show lowerExpectations s.expectations 1 0 = _
        rw [he]
        rfl
      obtain ⟨k, hk, hexp, hiff⟩ := ih (i := i + 1) hlowered
      refine ⟨k + 1, by omega, ?_, ?_⟩
      · rw [hexp]
        rw [Option.some.injEq, ControlleeExpectations.mk.injEq]
        refine ⟨?_, sub_zero e.del, rfl⟩
        push_cast
        ring
      · rw [add_left_inj, hiff]
        constructor
        · intro hall j hj
          rcases j with _ | j
          · simp [hi]
          · have := hall j (by omega)
            rwa [show i + (j + 1) = i + 1 + j by omega]
        · intro hall j hj
          have := hall (j + 1) (by omega)
          rwa [show i + (j + 1) = i + 1 + j by omega] at this

lemma overshot_scaleDown {now : ℤ} {delete : ℕ → Bool} {clusters : List RayCluster} :
    (scaleDown now delete clusters i s).overshot = s.overshot := by
  induction clusters generalizing i s with
  | nil => rfl
  | cons c rest ih =>
    rw [scaleDown, ih]
    cases delete i <;> rfl

/-! ### Runs -/

/-- The API server has some clusters when the controller starts. -/
def startState (clusters : List RayCluster) : ReplicaSetState := { current := clusters }

def shownActive (s : ReplicaSetState) (r : Reconcile) : ℕ :=
  (filterActiveClusters (s.listing r.listing)).length

/-- A reconcile that creates clusters has a listing that shows at least as many active ones as there
are clusters which are not deleted. -/
def Shown (rs : ReplicaSet T) (s : ReplicaSetState) : SetEvent → Prop
  | .reconcile r => rsNeedsSync rs s r → (shownActive s r : ℤ) < rs.replicas →
      liveCount s.current ≤ shownActive s r
  | _ => True

instance (rs : ReplicaSet T) (s : ReplicaSetState) : ∀ e, Decidable (Shown rs s e)
  | .reconcile _ => inferInstanceAs (Decidable (_ → _ → _))
  | .notFetched | .notListed | .others _ => isTrue trivial

variable {r : Reconcile}

lemma reconcile_of_lt (hsync : rsNeedsSync rs s r) (hlt : (shownActive s r : ℤ) < rs.replicas) :
    reconcile rs s r = scaleUp rs r.create (rs.replicas - shownActive s r).toNat 0
      { s with seen := s.listed r.listing
               expectations := some ⟨(rs.replicas - shownActive s r).toNat, 0, r.now⟩ } := by
  unfold reconcile
  rw [if_pos (by exact hsync), if_pos (by exact hlt)]
  rfl

lemma overshot_reconcile_of_not (h : ¬ (rsNeedsSync rs s r ∧ (shownActive s r : ℤ) < rs.replicas)) :
    (reconcile rs s r).overshot = s.overshot := by
  unfold reconcile
  dsimp only
  split
  · next hsync =>
    split
    · next hlt => exact absurd ⟨hsync, hlt⟩ h
    · split
      · exact overshot_scaleDown
      · rfl
  · rfl

lemma not_overshot_step (e : SetEvent) (h : s.overshot = false) (he : Shown rs s e) :
    (step rs s e).overshot = false := by
  cases e with
  | reconcile r =>
    show (reconcile rs s r).overshot = false
    by_cases hplan : rsNeedsSync rs s r ∧ (shownActive s r : ℤ) < rs.replicas
    · have hshown := he hplan.1 hplan.2
      rw [reconcile_of_lt hplan.1 hplan.2]
      refine not_overshot_scaleUp h ?_
      show (liveCount s.current : ℤ) + (rs.replicas - shownActive s r).toNat ≤ rs.replicas
      omega
    · rw [overshot_reconcile_of_not hplan]
      exact h
  | notFetched | notListed | others => exact h

/-- **Creations keep within the desired count** in every run whose creating reconciles see the
clusters that there are. -/
theorem creations_fit (rs : ReplicaSet T) (clusters : List RayCluster) (es : List SetEvent)
    (h : Along (step rs) (Shown rs) (startState clusters) es) :
    ∀ es', es' <+: es → (es'.foldl (step rs) (startState clusters)).overshot = false := by
  intro es' hp
  exact (h.of_prefix hp).invariant (I := fun s => s.overshot = false) rfl fun s e hs he =>
    not_overshot_step e hs he

def sampleSet (replicas : ℤ) : ReplicaSet Unit where
  uid := "set"
  name := "set"
  creationTimestamp := 0
  generation := 1
  annotations := ∅
  replicas := replicas
  minReadySeconds := 0
  template := ()

/-- A reconcile at a time, with the listing of a state, whose calls succeed. -/
def plainReconcile (now : ℤ) (listing : ℕ) : Reconcile :=
  ⟨now, listing, fun i => some (toString i), fun _ => true⟩

/-- Two reconciles a second apart; the listing of the second one does not show the cluster that the
first one has created. -/
theorem creations_exceed :
    ([.reconcile (plainReconcile 0 0), .reconcile (plainReconcile 1 0)].foldl (step (sampleSet 1))
        (startState [])).overshot = true ∧
      liveCount ([.reconcile (plainReconcile 0 0), .reconcile (plainReconcile 1 0)].foldl
        (step (sampleSet 1)) (startState [])).current = 2 := by
  decide +kernel

/-- The same two reconciles, when the second one sees the cluster of the first. -/
theorem creations_fit_fresh :
    ([.reconcile (plainReconcile 0 0), .reconcile (plainReconcile 1 1)].foldl (step (sampleSet 1))
      (startState [])).overshot = false :=
  creations_fit (sampleSet 1) [] [.reconcile (plainReconcile 0 0), .reconcile (plainReconcile 1 1)]
    ⟨by decide +kernel, by decide +kernel, trivial⟩ _ List.prefix_rfl

/-! ### A failed creation -/

lemma ReplicaSetState.listing_latest (s : ReplicaSetState) :
    s.listing s.past.length = s.current := by
  unfold listing listed
  rw [min_self]
  rcases Nat.lt_or_ge s.past.length s.seen with hlt | hle
  · rw [List.getD_eq_default]
    simp only [List.length_append, List.length_singleton]
    omega
  · rw [max_eq_right hle]
    simp

lemma needsSync_of_expectations {k d : ℕ} {t : ℤ} {r' : Reconcile}
    (he : s.expectations = some ⟨(d : ℤ) - k, 0, t⟩) (hk : k ≤ d)
    (hdeletion : rs.deletionTimestamp = none) (hnow : r'.now - t ≤ expectationsTimeout) :
    rsNeedsSync rs s r' ↔ k = d := by
  unfold rsNeedsSync satisfiedExpectations
  rw [he, and_iff_left hdeletion]
  simp only [ControlleeExpectations.fulfilled, ControlleeExpectations.isExpired, Bool.or_eq_true,
    Bool.and_eq_true, decide_eq_true_eq]
  omega

/-- **The next reconcile may create at once**, before the expectation times out, exactly if no
planned creation has failed. -/
theorem retries_at_once_iff (rs : ReplicaSet T) (s : ReplicaSetState) (r : Reconcile)
    (hsync : rsNeedsSync rs s r) (hplan : (shownActive s r : ℤ) < rs.replicas) :
    (∀ r', (reconcile rs s r).listing r'.listing = (reconcile rs s r).current →
        r'.now - r.now ≤ expectationsTimeout → rsNeedsSync rs (reconcile rs s r) r') ↔
      ∀ i < (rs.replicas - shownActive s r).toNat, (r.create i).isSome := by
  obtain ⟨k, hk, hexp, hiff⟩ : ∃ k ≤ (rs.replicas - shownActive s r).toNat,
      (reconcile rs s r).expectations =
        some ⟨((rs.replicas - shownActive s r).toNat : ℤ) - k, 0, r.now⟩ ∧
      (k = (rs.replicas - shownActive s r).toNat ↔
        ∀ i < (rs.replicas - shownActive s r).toNat, (r.create (0 + i)).isSome) := by
    rw [reconcile_of_lt hsync hplan]
    have he : ({ s with
        seen := s.listed r.listing
        expectations := some ⟨(rs.replicas - shownActive s r).toNat, 0, r.now⟩ } :
          ReplicaSetState).expectations =
        some ⟨(rs.replicas - shownActive s r).toNat, 0, r.now⟩ := rfl
    exact expectations_scaleUp he
  simp only [Nat.zero_add] at hiff
  rw [← hiff]
  constructor
  · intro h
    have hnext := h ⟨r.now, (reconcile rs s r).past.length, r.create, r.delete⟩
      (reconcile rs s r).listing_latest (by rw [sub_self]; decide)
    refine (needsSync_of_expectations hexp hk hsync.2 ?_).mp hnext
    show r.now - r.now ≤ expectationsTimeout
    rw [sub_self]
    decide
  · intro hall r' _ hnow
    exact (needsSync_of_expectations hexp hk hsync.2 hnow).mpr hall

/-- The second of three creations fails: a second later the reconcile still waits, though it sees
the one cluster that has been created. -/
theorem waits_after_failure : rsNeedsSync (sampleSet 3) (startState [])
        ⟨0, 0, fun i => if i = 1 then none else some (toString i), fun _ => true⟩ ∧
      liveCount (reconcile (sampleSet 3) (startState [])
        ⟨0, 0, fun i => if i = 1 then none else some (toString i), fun _ => true⟩).current = 1 ∧
      (reconcile (sampleSet 3) (startState [])
        ⟨0, 0, fun i => if i = 1 then none else some (toString i), fun _ => true⟩).listing 1 =
        (reconcile (sampleSet 3) (startState [])
          ⟨0, 0, fun i => if i = 1 then none else some (toString i), fun _ => true⟩).current ∧
      ¬ rsNeedsSync (sampleSet 3) (reconcile (sampleSet 3) (startState [])
        ⟨0, 0, fun i => if i = 1 then none else some (toString i), fun _ => true⟩)
        (plainReconcile 1 1) := by
  decide +kernel

/-- Without a failure, the next reconcile waits for nothing. -/
theorem retries_at_once_small :
    rsNeedsSync (sampleSet 3) (reconcile (sampleSet 3) (startState []) (plainReconcile 0 0))
      (plainReconcile 1 3) :=
  (retries_at_once_iff (sampleSet 3) (startState []) (plainReconcile 0 0) (by decide +kernel)
    (by decide +kernel)).mpr (by decide +kernel) (plainReconcile 1 3) (by decide +kernel)
    (by decide +kernel)

end Lodestar.Controller
