import Lodestar.ModelAdapter.Reconciler
import Lodestar.Lib.Run

/-!
# The life of a model adapter

What holds over every history of an adapter: it has at most one instance, an adapter with an
instance has the condition `Scheduled`, and its endpoint slice has at most one address
(`Cluster.Inv`).  A reconcile either clears the list of instances (`Clears`) or leaves it, and only
in the first case it can go wrong.
-/

namespace Lodestar.ModelAdapter

open Lib List
open Lib (Routine)
open Lib.Routine
open Controller (WriteOutcome)
variable {L : Type}

/-! ### Conditions -/

variable {conditions : List Condition} {c : Condition} {type : ConditionType}

def Has (conditions : List Condition) (type : ConditionType) : Prop :=
  (findStatusCondition conditions type).isSome = true

instance : Decidable (Has conditions type) := inferInstanceAs (Decidable (_ = true))

lemma has_iff : Has conditions type ↔ ∃ c ∈ conditions, c.type = type := by
  simp [Has, findStatusCondition]

lemma has_setStatusCondition {new : Condition} :
    Has (setStatusCondition conditions new) type ↔ new.type = type ∨ Has conditions type := by
  simp only [has_iff]
  induction conditions with
  | nil => simp [setStatusCondition]
  | cons c conditions ih =>
    unfold setStatusCondition
    split
    · rename_i heq
      simp [heq]
    · simp only [mem_cons, exists_eq_or_imp, ih]
      exact or_left_comm

lemma Has.foldl (h : Has conditions type) (news : List Condition) :
    Has (news.foldl ModelAdapter.setStatusCondition conditions) type := by
  induction news generalizing conditions with
  | nil => exact h
  | cons new news ih => exact ih (has_setStatusCondition.mpr (.inr h))

/-! ### What holds over every history -/

structure Status.Sound (status : Status) : Prop where
  length_le : status.instances.length ≤ 1
  scheduled : status.instances ≠ [] → Has status.conditions .scheduled

structure Cluster.Inv (w : Cluster L) : Prop where
  status : ∀ adapter ∈ w.adapter, adapter.status.Sound
  finalizer : ∀ adapter ∈ w.adapter, adapter.deleting = true → adapter.finalizer = true
  endpoints : ∀ endpoints ∈ w.endpoints, endpoints = [] ∨ ∃ address, endpoints = [[address]]

/-- Every address in the endpoint slice is that of a pod in the list of instances. -/
def Cluster.Agrees (w : Cluster L) : Prop :=
  ∀ adapter ∈ w.adapter, ∀ endpoints ∈ w.endpoints, ∀ address ∈ endpoints.flatten,
    ∃ name ∈ adapter.status.instances, ∃ pod ∈ w.findPod name, pod.podIP = address

lemma Cluster.Inv.map {w : Cluster L} {f : Adapter L → Adapter L} (h : w.Inv)
    (hstatus : ∀ adapter, adapter.status.Sound → (f adapter).status.Sound)
    (hfinalizer : ∀ adapter, (adapter.deleting = true → adapter.finalizer = true) →
      (f adapter).deleting = true → (f adapter).finalizer = true) :
    Cluster.Inv { w with adapter := w.adapter.map f } := by
  refine ⟨fun adapter hadapter => ?_, fun adapter hadapter => ?_, h.endpoints⟩
  · obtain ⟨adapter', hadapter', rfl⟩ := Option.mem_map.mp hadapter
    exact hstatus adapter' (h.status adapter' hadapter')
  · obtain ⟨adapter', hadapter', rfl⟩ := Option.mem_map.mp hadapter
    exact hfinalizer adapter' (h.finalizer adapter' hadapter')

lemma Cluster.Inv.setStatus {w : Cluster L} {status : Status} (h : w.Inv) (hs : status.Sound) :
    (w.setStatus status).Inv :=
  h.map (fun _ _ => hs) fun _ => id

/-! ### The parts of a reconcile -/

section

variable {a : Answers L} {name : String} {s : Work L}

def Fault.IsError : Fault → Prop
  | .error _ => True
  | .nilDereference _ => False

lemma wp_ofText {α : Type} {x : Except String α} {post : Post Fault (Work L) α}
    (hok : ∀ b, x = .ok b → post.next b s) (herror : ∀ text, x = .error text → post.raised (.error text) s) :
    wp (ofText x) post s := by
  cases x with
  | ok b => exact hok b rfl
  | error text => exact herror text rfl

/-- **A write** takes effect where it is applied; where it fails it may. -/
lemma write_spec (outcome : WriteOutcome) (change : Cluster L → Cluster L) :
    wp (write outcome change)
      ⟨fun _ s' => s' = { s with cluster := change s.cluster } ∧ outcome = .applied, fun _ => False,
        fun e s' => e.IsError ∧ outcome ≠ .applied ∧
          (s' = s ∨ s' = { s with cluster := change s.cluster })⟩ s := by
  cases outcome with
  | applied => exact ⟨rfl, rfl⟩
  | lost => exact ⟨trivial, by simp, .inr rfl⟩
  | rejected | notFound => exact ⟨trivial, by simp, .inl rfl⟩

def Work.reported (s : Work L) (conditions : List Condition) : Status :=
  { s.status with conditions := conditions.foldl setStatusCondition s.status.conditions }

lemma updateStatus_spec (conditions : List Condition) : wp (updateStatus a conditions)
      ⟨fun _ s' => a.updateStatus s.updates = .applied ∧ s'.status = s.reported conditions ∧
          s'.cluster = s.cluster.setStatus (s.reported conditions),
        fun _ => False,
        fun e s' => e.IsError ∧ a.updateStatus s.updates ≠ .applied ∧
          s'.status = s.reported conditions ∧
          (s'.cluster = s.cluster ∨ s'.cluster = s.cluster.setStatus (s.reported conditions))⟩ s := by
  refine wp_modify (wp_get (wp_modify (wp_mono (write_spec _ _) ?_ (fun _ => False.elim) ?_)))
  · rintro - s' ⟨rfl, happlied⟩
    exact ⟨happlied, rfl, rfl⟩
  · rintro e s' ⟨herror, hfailed, rfl | rfl⟩
    · exact ⟨herror, hfailed, rfl, .inl rfl⟩
    · exact ⟨herror, hfailed, rfl, .inr rfl⟩

/-- The state of a reconcile that has left the list of instances alone. -/
structure Work.Good (s : Work L) : Prop where
  cluster : s.cluster.Inv
  status : s.status.Sound
  coupled : ∀ adapter ∈ s.cluster.adapter, adapter.status.instances = s.status.instances

/-- Every address in the endpoint slice is that of a pod that the reconcile has in its list. -/
def Work.Listed (s : Work L) : Prop :=
  ∀ endpoints ∈ s.cluster.endpoints, ∀ address ∈ endpoints.flatten,
    ∃ name ∈ s.status.instances, ∃ pod ∈ s.cluster.findPod name, pod.podIP = address

lemma Work.Good.agrees (h : s.Good) (hl : s.Listed) : s.cluster.Agrees := by
  intro adapter hadapter endpoints hendpoints address haddress
  rw [h.coupled adapter hadapter]
  exact hl endpoints hendpoints address haddress

lemma Status.Sound.reported (h : s.status.Sound) (conditions : List Condition) :
    (s.reported conditions).Sound :=
  ⟨h.length_le, fun hne => (h.scheduled hne).foldl conditions⟩

/-- What a part of a reconcile does that leaves the list of instances alone. -/
def leaving (Q : Work L → Prop) : Post Fault (Work L) Unit where
  next _ s := s.Good ∧ Q s
  returned _ := False
  raised e s := e.IsError ∧ s.Good

variable {Q : Work L → Prop}

lemma wp_leaving {α : Type} {r : ReconcileM L Unit} {k : Unit → ReconcileM L α}
    {post : Post Fault (Work L) α} (h : wp r (leaving Q) s)
    (hnext : ∀ s' : Work L, s'.Good → Q s' → wp (k ()) post s')
    (hraised : ∀ e (s' : Work L), e.IsError ∧ s'.Good → post.raised e s') : wp (r >>= k) post s :=
  wp_bind (wp_mono h (fun _ s' hs' => hnext s' hs'.1 hs'.2) (fun _ => False.elim) hraised)

lemma setPhase_spec {phase : Phase} (h : s.Good)
    (hQ : Q { s with status := { s.status with phase := phase } }) :
    wp (setPhase phase) (leaving Q) s :=
  ⟨⟨h.cluster, ⟨h.status.length_le, h.status.scheduled⟩, h.coupled⟩, hQ⟩

lemma updateStatus_leaving (h : s.Good) (conditions : List Condition) :
    wp (updateStatus a conditions) (leaving fun s' => s.Listed → s'.Listed) s := by
  have hgood : ∀ s' : Work L, s'.status = s.reported conditions →
      (s'.cluster = s.cluster ∨ s'.cluster = s.cluster.setStatus (s.reported conditions)) →
      s'.Good := by
    rintro s' hstatus (hcluster | hcluster)
    · refine ⟨hcluster ▸ h.cluster, hstatus ▸ h.status.reported conditions, ?_⟩
      rw [hcluster, hstatus]
      exact h.coupled
    · refine ⟨hcluster ▸ h.cluster.setStatus (h.status.reported conditions),
        hstatus ▸ h.status.reported conditions, fun adapter hadapter => ?_⟩
      rw [hcluster] at hadapter
      obtain ⟨adapter', -, rfl⟩ := Option.mem_map.mp hadapter
      rw [hstatus]
  refine wp_mono (updateStatus_spec conditions) ?_ (fun _ => id) ?_
  · rintro - s' ⟨-, hstatus, hcluster⟩
    refine ⟨hgood s' hstatus (.inr hcluster), fun hl => ?_⟩
    unfold Work.Listed at hl ⊢
    rw [hstatus, hcluster]
    exact hl
  · rintro e s' ⟨herror, -, hstatus, hcluster⟩
    exact ⟨herror, hgood s' hstatus hcluster⟩

lemma write_leaving {outcome : WriteOutcome} {change : Cluster L → Cluster L} (h : s.Good)
    (hadapter : (change s.cluster).adapter = s.cluster.adapter)
    (hendpoints : ∀ endpoints ∈ (change s.cluster).endpoints,
      endpoints = [] ∨ ∃ address, endpoints = [[address]])
    (hQ : Q { s with cluster := change s.cluster }) : wp (write outcome change) (leaving Q) s := by
  have hgood : Work.Good { s with cluster := change s.cluster } :=
    ⟨⟨hadapter ▸ h.cluster.status, hadapter ▸ h.cluster.finalizer, hendpoints⟩, h.status,
      hadapter ▸ h.coupled⟩
  refine wp_mono (write_spec _ _) ?_ (fun _ => id) ?_
  · rintro - s' ⟨rfl, -⟩
    exact ⟨hgood, hQ⟩
  · rintro e s' ⟨herror, -, rfl | rfl⟩
    · exact ⟨herror, h⟩
    · exact ⟨herror, hgood⟩

lemma failure_spec {e : Fault} (herror : e.IsError) (h : s.Good) (phase : Phase)
    (condition : Condition) :
    wp (do setPhase phase; updateStatus a [condition]; throw (.raised e)) (leaving Q) s := by
  refine wp_leaving (setPhase_spec (Q := fun _ => True) h trivial) (fun s₁ hs₁ _ => ?_) fun _ _ => id
  exact wp_leaving (updateStatus_leaving hs₁ _) (fun s₂ hs₂ _ => wp_raise ⟨herror, hs₂⟩) fun _ _ => id

lemma reporting_spec {stage : ReconcileM L Unit} (h : wp stage (leaving Q) s) (phase : Phase)
    (condition : Condition) :
    wp (reporting a stage phase condition) (leaving Q) s := by
  refine wp_bind (wp_attempt (wp_mono h (fun _ s' hs' => hs') (fun _ => id) ?_))
  exact fun e s' hs' => failure_spec hs'.1 hs'.2 phase condition

/-! ### The stages -/

lemma reconcileLoading_spec (h : s.Good) : wp (reconcileLoading a) (leaving fun _ => True) s := by
  apply wp_get
  cases s.status.instances with
  | nil => exact ⟨h, trivial⟩
  | cons podName rest =>
    refine wp_bind (wp_ofText (fun _ _ => ?_) fun _ _ => ⟨trivial, h⟩)
    cases s.cluster.findPod podName with
    | none => exact ⟨trivial, h⟩
    | some targetPod =>
      refine wp_ite (fun _ => ⟨h, trivial⟩) fun _ => ?_
      refine wp_bind (wp_ofText (fun isThere _ => ?_) fun _ _ => ⟨trivial, h⟩)
      refine wp_ite (fun _ => ⟨h, trivial⟩) fun _ => ?_
      exact wp_ofText (fun _ _ => ⟨h, trivial⟩) fun _ _ => ⟨trivial, h⟩

lemma reconcileService_spec (h : s.Good) :
    wp (reconcileService a name) (leaving fun _ => True) s := by
  refine wp_bind (wp_ofText (fun _ _ => ?_) fun _ _ => ⟨trivial, h⟩)
  apply wp_get
  refine wp_ite (fun _ => ⟨h, trivial⟩) fun _ => ?_
  refine wp_bind (wp_attempt (wp_mono (write_leaving h rfl h.cluster.endpoints trivial)
    (fun _ s' hs' => hs') (fun _ => id) ?_))
  rintro e s' ⟨herror, hs'⟩
  exact wp_leaving (updateStatus_leaving hs' _) (fun s'' hs'' _ => wp_raise ⟨herror, hs''⟩) fun _ _ => id

/-- Without addresses the endpoint slice agrees with every list. -/
lemma emptied_spec (outcome : WriteOutcome) (h : s.Good) :
    wp (setEndpoints outcome []) (leaving Work.Listed) s := by
  refine write_leaving h rfl ?_ ?_
  · rintro endpoints hendpoints
    exact .inl (Option.some.inj hendpoints).symm
  · rintro endpoints hendpoints address haddress
    obtain rfl := Option.some.inj hendpoints
    simp at haddress

lemma endpointSliceFor_spec {pod : Pod L} {podName : String} (h : s.Good)
    (hname : podName ∈ s.status.instances) (hpod : s.cluster.findPod podName = some pod) :
    wp (endpointSliceFor a name pod) (leaving Work.Listed) s := by
  have hlisted : ∀ s' : Work L, s'.cluster.endpoints = some [[pod.podIP]] →
      s'.cluster.pods = s.cluster.pods → s'.status.instances = s.status.instances → s'.Listed := by
    intro s' hendpoints hpods hinstances endpoints he address haddress
    rw [hendpoints] at he
    obtain rfl := Option.some.inj he
    obtain rfl : address = pod.podIP := by simpa using haddress
    refine ⟨podName, hinstances ▸ hname, pod, ?_, rfl⟩
    rw [Cluster.findPod, hpods]
    exact hpod
  have hset (outcome : WriteOutcome) :
      wp (setEndpoints outcome [[pod.podIP]]) (leaving Work.Listed) s := by
    refine write_leaving h rfl ?_ (hlisted _ rfl rfl rfl)
    rintro endpoints hendpoints
    exact .inr ⟨pod.podIP, (Option.some.inj hendpoints).symm⟩
  refine wp_bind (wp_ofText (fun _ _ => ?_) fun _ _ => ⟨trivial, h⟩)
  apply wp_get
  cases hendpoints : s.cluster.endpoints with
  | none =>
    refine wp_bind (wp_attempt (wp_mono (hset _) (fun _ s' hs' => ?_) (fun _ => id) ?_))
    · exact setPhase_spec hs'.1 hs'.2
    · exact fun e s' hs' => failure_spec hs'.1 hs'.2 _ _
  | some endpoints =>
    refine wp_ite (fun hmissing => ?_) fun hthere => ?_
    · exact wp_leaving (hset _) (fun _ hs' hl => setPhase_spec hs' hl) fun _ _ => id
    · -- the slice has at most one address, so it is that of the pod
      have honly : endpoints = [[pod.podIP]] := by
        rcases h.cluster.endpoints endpoints hendpoints with rfl | ⟨address, rfl⟩
        · exact absurd hthere (by simp)
        · have heq : pod.podIP = address := by simpa using not_not.mp hthere
          rw [heq]
      subst honly
      refine wp_ite (fun _ => ?_) fun _ => ?_
      · have hnone : removeAddress pod.podIP [[pod.podIP]] = [] := by simp [removeAddress]
        rw [hnone]
        exact wp_leaving (emptied_spec _ h) (fun _ hs' hl => setPhase_spec hs' hl) fun _ _ => id
      · exact setPhase_spec h (hlisted _ hendpoints rfl rfl)

/-- **The endpoint slice agrees** with the list of instances when it has been reconciled. -/
lemma reconcileEndpointSlice_spec (h : s.Good) :
    wp (reconcileEndpointSlice a name) (leaving Work.Listed) s := by
  apply wp_get
  cases hinstances : s.status.instances with
  | nil =>
    refine wp_bind (wp_ofText (fun _ _ => ?_) fun _ _ => ⟨trivial, h⟩)
    cases s.cluster.endpoints with
    | none => exact ⟨trivial, h⟩
    | some endpoints => exact emptied_spec _ h
  | cons podName rest =>
    refine wp_bind (wp_ofText (fun _ _ => ?_) fun _ _ => ⟨trivial, h⟩)
    cases hpod : s.cluster.findPod podName with
    | none =>
      refine wp_bind (wp_ofText (fun _ _ => ?_) fun _ _ => ⟨trivial, h⟩)
      cases hendpoints : s.cluster.endpoints with
      | none =>
        refine ⟨h, fun endpoints he => ?_⟩
        rw [hendpoints] at he
        exact absurd he (by simp)
      | some endpoints => exact emptied_spec _ h
    | some pod => exact endpointSliceFor_spec h (by rw [hinstances]; exact mem_cons_self) hpod

lemma loadAndExpose_spec (h : s.Good) : wp (loadAndExpose a name)
      ⟨fun _ s' => s'.cluster.Inv ∧ s'.cluster.Agrees, fun _ => False,
        fun e s' => e.IsError ∧ s'.cluster.Inv⟩ s := by
  have hpods : ∀ (s : Work L) (pods : List (Pod L)), s.Good →
      Work.Good { s with cluster := { s.cluster with pods := pods } } := fun s pods hs =>
    ⟨⟨hs.cluster.status, hs.cluster.finalizer, hs.cluster.endpoints⟩, hs.status, hs.coupled⟩
  have herr : ∀ (e : Fault) (s' : Work L), e.IsError ∧ s'.Good → e.IsError ∧ s'.cluster.Inv :=
    fun e s' hs' => ⟨hs'.1, hs'.2.cluster⟩
  refine wp_get (wp_modify ?_)
  refine wp_leaving (reporting_spec (reconcileLoading_spec (hpods s _ h)) _ _) (fun s₁ hs₁ _ => ?_) herr
  refine wp_leaving (reporting_spec (reconcileService_spec hs₁) _ _) (fun s₂ hs₂ _ => ?_) herr
  refine wp_modify (wp_leaving (reporting_spec (reconcileEndpointSlice_spec (hpods s₂ _ hs₂)) _ _)
    (fun s₃ hs₃ hlisted => ?_) herr)
  refine wp_get (wp_ite (fun _ => ?_) fun _ => ?_)
  · refine wp_leaving (updateStatus_leaving hs₃ _) (fun s₄ hs₄ hkeep => ?_) herr
    exact wp_pure ⟨hs₄.cluster, hs₄.agrees (hkeep hlisted)⟩
  · exact wp_pure ⟨hs₃.cluster, hs₃.agrees hlisted⟩

attribute [local simp] Work.reported

lemma schedule_spec {selector : PodSelector L} (h : s.Good) (hnone : s.status.instances = []) :
    wp (schedule a name selector)
      ⟨fun r s' => s'.cluster.Inv ∧ (r = .done → s'.cluster.Agrees), fun _ => False,
        fun e s' => e.IsError ∧ s'.cluster.Inv⟩ s := by
  refine wp_bind (wp_ofText (fun _ _ => ?_) fun _ _ => ⟨trivial, h.cluster⟩)
  apply wp_get
  cases getActivePodsForModelAdapter selector s.cluster.pods with
  | nil =>
    refine wp_mono (loadAndExpose_spec h) (fun _ _ hs => ?_) (fun _ => id) fun _ _ => id
    exact ⟨hs.1, fun _ => hs.2⟩
  | cons pod pods =>
    refine wp_bind (wp_ofText (fun i _ => ?_) fun _ _ => ⟨trivial, h.cluster⟩)
    -- with its pod the adapter gets the condition `Scheduled`
    have hsound : ∀ podName message, Status.Sound
        (Work.reported { s with status :=
            { s.status with phase := .scheduled, instances := s.status.instances ++ [podName] } }
          [⟨.scheduled, .isTrue, "Scheduled", message⟩]) := fun podName message =>
      ⟨by simp [hnone], fun _ => has_setStatusCondition.mpr (.inl rfl)⟩
    refine wp_modify (wp_bind (wp_mono (updateStatus_spec _) ?_ (fun _ => id) ?_))
    · rintro - s' ⟨-, -, hcluster⟩
      refine wp_pure ⟨?_, by simp⟩
      rw [hcluster]
      exact h.cluster.setStatus (hsound _ _)
    · rintro e s' ⟨herror, -, -, hcluster | hcluster⟩
      · exact ⟨herror, hcluster ▸ h.cluster⟩
      · exact ⟨herror, hcluster ▸ h.cluster.setStatus (hsound _ _)⟩

lemma wp_dereference {type : ConditionType} {post : Post Fault (Work L) Condition}
    (hthere : ∀ c, Has s.status.conditions type → post.next c s)
    (hmissing : ¬ Has s.status.conditions type → post.raised (.nilDereference type) s) :
    wp (dereference type) post s := by
  apply wp_get
  cases hfind : findStatusCondition s.status.conditions type with
  | none => exact hmissing (by simp [Has, hfind])
  | some c => exact hthere c (by simp [Has, hfind])

/-- **Clearing the list of instances** needs the condition `Ready`, and leaves the endpoint slice. -/
lemma clear_spec {podName : String} (h : s.Good) (hinstances : s.status.instances = [podName]) :
    wp (clearModelAdapterInstanceList a name podName)
      ⟨fun _ s' => Has s.status.conditions .ready ∧ a.updateStatus s.updates = .applied ∧
          s'.cluster.Inv ∧ s'.cluster.endpoints = s.cluster.endpoints ∧
          (s'.cluster.adapter.isSome = s.cluster.adapter.isSome) ∧
          ∀ adapter ∈ s'.cluster.adapter, adapter.status.instances = [],
        fun _ => False,
        fun e s' => s'.cluster.Inv ∧
          (e = .nilDereference .ready ∧ ¬ Has s.status.conditions .ready ∨
            e.IsError ∧ Has s.status.conditions .ready ∧ a.updateStatus s.updates ≠ .applied)⟩ s := by
  have hscheduled : Has s.status.conditions .scheduled := h.status.scheduled (by simp [hinstances])
  -- the status that is written has no instance
  have hsound : ∀ conditions, Status.Sound (Work.reported { s with status :=
      { s.status with
        instances := removeInstanceFromList s.status.instances podName, phase := .pending } }
      conditions) := fun conditions =>
    ⟨by simp [removeInstanceFromList, hinstances],
      fun hne => absurd hne (by simp [removeInstanceFromList, hinstances])⟩
  refine wp_modify (wp_bind (wp_dereference (fun c _ => ?_) fun hmissing => absurd hscheduled hmissing))
  refine wp_bind (wp_dereference (fun c' hready => ?_) fun hmissing => ?_)
  swap
  · exact ⟨h.cluster, .inl ⟨rfl, hmissing⟩⟩
  refine wp_mono (updateStatus_spec _) ?_ (fun _ => id) ?_
  · rintro - s' ⟨happlied, -, hcluster⟩
    refine ⟨hready, happlied, hcluster ▸ h.cluster.setStatus (hsound _), by rw [hcluster]; rfl,
      by rw [hcluster]; exact Option.isSome_map, ?_⟩
    intro adapter hadapter
    rw [hcluster] at hadapter
    obtain ⟨adapter', -, rfl⟩ := Option.mem_map.mp hadapter
    simp [removeInstanceFromList, hinstances]
  · rintro e s' ⟨herror, hfailed, -, hcluster | hcluster⟩
    · exact ⟨hcluster ▸ h.cluster, .inr ⟨herror, hready, hfailed⟩⟩
    · exact ⟨hcluster ▸ h.cluster.setStatus (hsound _), .inr ⟨herror, hready, hfailed⟩⟩

/-! ### A reconcile -/

/-- The pod in the list of instances is found to be gone or of no use, and the list is cleared. -/
def Work.Clears (a : Answers L) (selector : PodSelector L) (s : Work L) : Prop :=
  a.getSelectedPod = .ok () ∧ ∃ podName ∈ s.status.instances,
    ∀ pod ∈ s.cluster.findPod podName, checkSelectedPod selector pod = .ok false

/-- What a reconcile does that leaves the list of instances alone. -/
def settling : Post Fault (Work L) Result where
  next r s := s.cluster.Inv ∧ (r = .done → s.cluster.Agrees)
  returned _ := False
  raised e s := e.IsError ∧ s.cluster.Inv

/-- What a reconcile does that clears the list of instances. -/
def clearing (a : Answers L) (s : Work L) : Post Fault (Work L) Result where
  next r s' := Has s.status.conditions .ready ∧ a.updateStatus s.updates = .applied ∧
    s'.cluster.Inv ∧ r = .done ∧ s'.cluster.endpoints = s.cluster.endpoints ∧
    (s'.cluster.adapter.isSome = s.cluster.adapter.isSome) ∧
    ∀ adapter ∈ s'.cluster.adapter, adapter.status.instances = []
  returned _ := False
  raised e s' := s'.cluster.Inv ∧ (e = .nilDereference .ready ∧ ¬ Has s.status.conditions .ready ∨
      e.IsError ∧ Has s.status.conditions .ready ∧ a.updateStatus s.updates ≠ .applied)

open Classical in
lemma doReconcile_spec {selector : PodSelector L} (h : s.Good) :
    wp (doReconcile a name selector) (if s.Clears a selector then clearing a s else settling) s := by
  have hempty (hnone : s.status.instances = []) : ¬ s.Clears a selector :=
    fun ⟨_, podName, hpod, _⟩ => absurd hpod (by simp [hnone])
  unfold doReconcile
  refine wp_get (wp_ite (fun hconditions => ?_) fun _ => ?_)
  · have hnone : s.status.instances = [] := by
      by_contra hne
      exact absurd (h.status.scheduled hne) (by simp [hconditions, has_iff])
    rw [if_neg (hempty hnone)]
    have herr : ∀ e (s' : Work L), e.IsError ∧ s'.Good → settling.raised e s' :=
      fun e s' hs' => ⟨hs'.1, hs'.2.cluster⟩
    refine wp_leaving (setPhase_spec (Q := fun _ => True) h trivial) (fun s₁ hs₁ _ => ?_) herr
    refine wp_leaving (updateStatus_leaving hs₁ _) (fun s₂ hs₂ _ => ?_) herr
    exact wp_pure ⟨hs₂.cluster, by simp⟩
  · cases hinstances : s.status.instances with
    | nil =>
      rw [if_neg (hempty hinstances)]
      exact schedule_spec h hinstances
    | cons podName rest =>
      obtain rfl : rest = [] := by
        have hlength := h.status.length_le
        rw [hinstances] at hlength
        exact eq_nil_of_length_eq_zero (by simpa using hlength)
      have hclears : s.Clears a selector ↔ a.getSelectedPod = .ok () ∧
          ∀ pod ∈ s.cluster.findPod podName, checkSelectedPod selector pod = .ok false := by
        simp [Work.Clears, hinstances]
      have hclear (hc : s.Clears a selector) :
          wp (clearModelAdapterInstanceList a name podName >>= fun _ => pure .done)
            (if s.Clears a selector then clearing a s else settling) s := by
        rw [if_pos hc]
        refine wp_bind (wp_mono (clear_spec h hinstances) ?_ (fun _ => id) fun _ _ => id)
        rintro - s' ⟨hready, happlied, hinv, hrest⟩
        exact wp_pure ⟨hready, happlied, hinv, rfl, hrest⟩
      refine wp_bind (wp_ofText (fun _ hget => ?_) fun text herror => ?_)
      swap
      · rw [if_neg fun hc => absurd (herror.symm.trans hc.1) (by simp)]
        exact ⟨trivial, h.cluster⟩
      cases hpod : s.cluster.findPod podName with
      | none => exact hclear (hclears.mpr ⟨hget, by simp [hpod]⟩)
      | some pod =>
        have hstays (hcheck : checkSelectedPod selector pod ≠ .ok false) : ¬ s.Clears a selector :=
          fun hc => hcheck ((hclears.mp hc).2 pod hpod)
        refine wp_bind (wp_ofText (fun useful hcheck => wp_ite (fun huseful => ?_) fun hno => ?_)
          fun text herror => ?_)
        · rw [if_neg (hstays (by simp [hcheck, huseful]))]
          exact wp_mono (loadAndExpose_spec h) (fun _ _ hs => ⟨hs.1, fun _ => hs.2⟩) (fun _ => id)
            fun _ _ => id
        · exact hclear (hclears.mpr ⟨hget, by simp [hpod, hcheck, hno]⟩)
        · rw [if_neg (hstays (by simp [herror]))]
          exact ⟨trivial, h.cluster⟩

end

/-- The pod in the list of instances of the adapter is found to be gone or of no use. -/
def Clears (a : Answers L) (w : Cluster L) (adapter : Adapter L) : Prop :=
  a.get = .ok () ∧ adapter.deleting = false ∧
    (adapter.finalizer = true ∨ a.addFinalizer = .applied) ∧ a.getSelectedPod = .ok () ∧
    ∃ podName ∈ adapter.status.instances, ∀ pod ∈ w.findPod podName,
      checkSelectedPod adapter.podSelector pod = .ok false

/-- How a reconcile ends that leaves the list of instances alone. -/
def Settles (r : Except Fault Result × Cluster L) : Prop :=
  r.2.Inv ∧ (r.1 = .ok .done → r.2.Agrees) ∧ ∀ e, r.1 = .error e → e.IsError

/-- How a reconcile ends that clears the list of instances. -/
structure ClearsTo (a : Answers L) (w : Cluster L) (adapter : Adapter L)
    (r : Except Fault Result × Cluster L) : Prop where
  inv : r.2.Inv
  ok : ∀ result, r.1 = .ok result → Has adapter.status.conditions .ready ∧
    a.updateStatus 0 = .applied ∧ result = .done ∧ r.2.endpoints = w.endpoints ∧
    r.2.adapter.isSome = true ∧ ∀ adapter' ∈ r.2.adapter, adapter'.status.instances = []
  error : ∀ e, r.1 = .error e →
    e = .nilDereference .ready ∧ ¬ Has adapter.status.conditions .ready ∨
    e.IsError ∧ Has adapter.status.conditions .ready ∧ a.updateStatus 0 ≠ .applied

/-- How a reconcile of the adapter ends. -/
def Ends (a : Answers L) (w : Cluster L) (adapter : Adapter L)
    (r : Except Fault Result × Cluster L) : Prop :=
  (Clears a w adapter → ClearsTo a w adapter r) ∧ (¬ Clears a w adapter → Settles r)

variable {a : Answers L} {w : Cluster L}

lemma Settles.of_error {e : Fault} (h : w.Inv) (he : e.IsError) : Settles (.error e, w) :=
  ⟨h, by simp, fun _ he' => Except.error.inj he' ▸ he⟩

/-- The postcondition that the pair of result and cluster has a property. -/
def ending (P : Except Fault Result × Cluster L → Prop) : Post Fault (Work L) Result where
  next r s := P (.ok r, s.cluster)
  returned s := P (.ok .done, s.cluster)
  raised e s := P (.error e, s.cluster)

variable {adapter : Adapter L}

lemma reconcile_of_wp {P : Except Fault Result × Cluster L → Prop} (hget : a.get = .ok ())
    (hadapter : w.adapter = some adapter)
    (h : wp (reconcileAdapter a adapter) (ending P) { cluster := w, status := adapter.status }) :
    P (reconcile a w) := by
  unfold wp ending at h
  unfold reconcile
  rw [hget, hadapter]
  rcases hr : reconcileAdapter a adapter { cluster := w, status := adapter.status } with
    ⟨r, s⟩ | ⟨_ | e, s⟩ <;> rw [hr] at h <;> simpa only [hr] using h

lemma deleting_spec (h : w.Inv) (hadapter : w.adapter = some adapter) (hget : a.get = .ok ())
    (hdeleting : adapter.deleting = true) : Settles (reconcile a w) := by
  have hgone : Cluster.Inv { w with adapter := none } := ⟨by simp, by simp, h.endpoints⟩
  refine reconcile_of_wp hget hadapter ?_
  unfold reconcileAdapter
  rw [hdeleting, h.finalizer adapter hadapter hdeleting]
  refine wp_bind (wp_ofText (fun _ _ => ?_) fun _ _ => ?_)
  · refine wp_bind (wp_mono (write_spec _ _) ?_ (fun _ => False.elim) ?_)
    · rintro - s' ⟨rfl, -⟩
      exact wp_pure ⟨hgone, fun _ adapter' hadapter' => by simp at hadapter', by simp⟩
    · rintro e s' ⟨herror, -, rfl | rfl⟩
      · exact .of_error h herror
      · exact .of_error hgone herror
  · exact .of_error h trivial

lemma doReconcile_ends {s : Work L} (h : s.Good) (hstatus : s.status = adapter.status)
    (hupdates : s.updates = 0) (hendpoints : s.cluster.endpoints = w.endpoints)
    (hthere : s.cluster.adapter.isSome = true)
    (hclears : Clears a w adapter ↔ s.Clears a adapter.podSelector) :
    wp (doReconcile a adapter.name adapter.podSelector) (ending (Ends a w adapter)) s := by
  have hspec : wp (doReconcile a adapter.name adapter.podSelector) _ s := doReconcile_spec h
  by_cases hc : Clears a w adapter
  · rw [if_pos (hclears.mp hc)] at hspec
    refine wp_mono hspec ?_ (fun _ => False.elim) ?_
    · rintro r s' ⟨hready, happlied, hinv, rfl, hendpoints', hadapter, hnone⟩
      refine ⟨fun _ => ⟨hinv, fun result hresult => ?_, by simp⟩, (absurd hc ·)⟩
      obtain rfl := Except.ok.inj hresult
      exact ⟨hstatus ▸ hready, hupdates ▸ happlied, rfl, hendpoints'.trans hendpoints,
        hadapter.trans hthere, hnone⟩
    · rintro e s' ⟨hinv, hcases⟩
      refine ⟨fun _ => ⟨hinv, by simp, fun e' he' => ?_⟩, (absurd hc ·)⟩
      obtain rfl := Except.error.inj he'
      rwa [hstatus, hupdates] at hcases
  · rw [if_neg (hclears.not.mp hc)] at hspec
    refine wp_mono hspec ?_ (fun _ => False.elim) ?_
    · rintro r s' ⟨hinv, hagrees⟩
      exact ⟨(absurd · hc), fun _ => ⟨hinv, fun hr => hagrees (Except.ok.inj hr), by simp⟩⟩
    · rintro e s' ⟨herror, hinv⟩
      exact ⟨(absurd · hc), fun _ => .of_error hinv herror⟩

lemma live_spec (h : w.Inv) (hadapter : w.adapter = some adapter) (hget : a.get = .ok ())
    (hlive : adapter.deleting = false) : Ends a w adapter (reconcile a w) := by
  have hclears (hmarked : adapter.finalizer = true ∨ a.addFinalizer = .applied) (s : Work L)
      (hstatus : s.status = adapter.status) (hpods : s.cluster.pods = w.pods) :
      Clears a w adapter ↔ s.Clears a adapter.podSelector := by
    simp [Clears, Work.Clears, Cluster.findPod, hget, hlive, hmarked, hstatus, hpods]
  refine reconcile_of_wp hget hadapter ?_
  unfold reconcileAdapter
  rw [hlive]
  cases hfinalizer : adapter.finalizer with
  | true =>
    refine doReconcile_ends ⟨h, h.status adapter hadapter, fun adapter' hadapter' => ?_⟩ rfl rfl rfl
      (by simp [hadapter]) (hclears (.inl hfinalizer) _ rfl rfl)
    rw [Option.some.inj (hadapter.symm.trans hadapter')]
  | false =>
    -- the finalizer is written first
    have hinv' : Cluster.Inv { w with adapter := w.adapter.map ({ · with finalizer := true }) } :=
      h.map (fun _ => id) fun _ _ _ => rfl
    refine wp_bind (wp_mono (write_spec _ _) ?_ (fun _ => False.elim) ?_)
    · rintro - s' ⟨rfl, happlied⟩
      refine doReconcile_ends ⟨hinv', h.status adapter hadapter, fun adapter' hadapter' => ?_⟩ rfl rfl
        rfl (by simp [hadapter]) (hclears (.inr happlied) _ rfl rfl)
      obtain ⟨adapter'', hadapter'', rfl⟩ := Option.mem_map.mp hadapter'
      rw [Option.some.inj (hadapter.symm.trans hadapter'')]
    · rintro e s' ⟨herror, hfailed, hs'⟩
      refine ⟨fun hc => absurd (hc.2.2.1.resolve_left (by simp [hfinalizer])) hfailed, fun _ => ?_⟩
      rcases hs' with rfl | rfl
      · exact .of_error h herror
      · exact .of_error hinv' herror

/-- **A reconcile** either leaves the list of instances alone or clears it. -/
lemma reconcile_spec (h : w.Inv) :
    (∃ adapter ∈ w.adapter, Clears a w adapter ∧ ClearsTo a w adapter (reconcile a w)) ∨
      (∀ adapter ∈ w.adapter, ¬ Clears a w adapter) ∧ Settles (reconcile a w) := by
  cases hget : a.get with
  | error text =>
    have hr : reconcile a w = (.error (.error text), w) := by rw [reconcile, hget]
    exact .inr ⟨fun _ _ hc => absurd (hget.symm.trans hc.1) (by simp), hr ▸ .of_error h trivial⟩
  | ok =>
    cases hadapter : w.adapter with
    | none =>
      have hr : reconcile a w = (.ok .done, w) := by rw [reconcile, hget, hadapter]
      refine .inr ⟨by simp, hr ▸ ⟨h, fun _ adapter hadapter' => ?_, by simp⟩⟩
      simp [hadapter] at hadapter'
    | some adapter =>
      simp only [Option.mem_some_iff, forall_eq', exists_eq_left']
      by_cases hc : Clears a w adapter
      · exact .inl ⟨hc, (live_spec h hadapter hget hc.2.1).1 hc⟩
      · refine .inr ⟨hc, ?_⟩
        cases hdeleting : adapter.deleting with
        | true => exact deleting_spec h hadapter hget hdeleting
        | false => exact (live_spec h hadapter hget hdeleting).2 hc

/-! ### Whole histories -/

lemma Cluster.Inv.step (h : w.Inv) (e : Event L) : (w.step e).Inv := by
  cases e with
  | pods pods => exact ⟨h.status, h.finalizer, h.endpoints⟩
  | edit podSelector => exact h.map (fun _ => id) fun _ => id
  | delete =>
    have hdeleted : ∀ adapter' ∈ (w.step .delete).adapter, ∃ adapter ∈ w.adapter,
        adapter.finalizer = true ∧ adapter' = { adapter with deleting := true } := by
      intro adapter' hadapter'
      obtain ⟨adapter, hadapter, heq⟩ := Option.bind_eq_some_iff.mp hadapter'
      split at heq
      · exact ⟨adapter, hadapter, ‹_›, (Option.some.inj heq).symm⟩
      · simp at heq
    refine ⟨fun adapter' hadapter' => ?_, fun adapter' hadapter' _ => ?_, h.endpoints⟩
    · obtain ⟨adapter, hadapter, -, rfl⟩ := hdeleted adapter' hadapter'
      exact h.status adapter hadapter
    · obtain ⟨adapter, -, hfinalizer, rfl⟩ := hdeleted adapter' hadapter'
      exact hfinalizer
  | reconcile a =>
    rcases reconcile_spec h with ⟨adapter, -, -, hto⟩ | ⟨-, hsettles⟩
    · exact hto.inv
    · exact hsettles.1

lemma Cluster.inv_fresh (name : String) (podSelector : PodSelector L) (pods : List (Pod L)) :
    (Cluster.fresh name podSelector pods).Inv := by
  refine ⟨fun adapter hadapter => ?_, fun adapter hadapter hdeleting => ?_, fun _ h => ?_⟩
  · obtain rfl := Option.some.inj hadapter
    exact ⟨by simp, by simp⟩
  · obtain rfl := Option.some.inj hadapter
    exact absurd hdeleting (by simp)
  · exact absurd h (by simp [Cluster.fresh])

/-- A reconcile reads only conditions that the status has. -/
def Cluster.ConditionsPresent (w : Cluster L) : Event L → Prop
  | .reconcile a => ∀ type, (reconcile a w).1 ≠ .error (.nilDereference type)
  | _ => True

/-- If the list of instances is cleared, the adapter has been ready once. -/
def Cluster.ReadyWhenCleared (w : Cluster L) : Event L → Prop
  | .reconcile a => ∀ adapter ∈ w.adapter, Clears a w adapter → Has adapter.status.conditions .ready
  | _ => True

lemma conditionsPresent_iff {e : Event L} (h : w.Inv) :
    w.ConditionsPresent e ↔ w.ReadyWhenCleared e := by
  cases e with
  | pods | edit | delete => exact .rfl
  | reconcile a =>
    rcases reconcile_spec h with ⟨adapter, hadapter, hclears, hto⟩ | ⟨hstays, hsettles⟩
    · constructor
      · intro hpresent adapter' hadapter' _
        obtain rfl := Option.mem_unique hadapter hadapter'
        cases hr : (reconcile a w).1 with
        | ok result => exact (hto.ok result hr).1
        | error e =>
          rcases hto.error e hr with ⟨rfl, -⟩ | ⟨-, hready, -⟩
          · exact absurd hr (hpresent .ready)
          · exact hready
      · intro hready type hr
        rcases hto.error _ hr with ⟨-, hno⟩ | ⟨herror, -⟩
        · exact hno (hready adapter hadapter hclears)
        · exact herror
    · exact iff_of_true (fun type hr => hsettles.2.2 _ hr)
        fun adapter hadapter hclears => absurd hclears (hstays adapter hadapter)

/-- A reconcile that succeeds and does not ask for another leaves an endpoint slice that agrees
with the list of instances. -/
def Cluster.SliceAgrees (w : Cluster L) : Event L → Prop
  | .reconcile a => (reconcile a w).1 = .ok .done → (reconcile a w).2.Agrees
  | _ => True

/-- If the list of instances is cleared, there is no address in the endpoint slice. -/
def Cluster.EmptyWhenCleared (w : Cluster L) : Event L → Prop
  | .reconcile a => ∀ adapter ∈ w.adapter, Clears a w adapter →
      Has adapter.status.conditions .ready → a.updateStatus 0 = .applied →
      ∀ endpoints ∈ w.endpoints, endpoints.flatten = []
  | _ => True

lemma sliceAgrees_iff {e : Event L} (h : w.Inv) : w.SliceAgrees e ↔ w.EmptyWhenCleared e := by
  cases e with
  | pods | edit | delete => exact .rfl
  | reconcile a =>
    rcases reconcile_spec h with ⟨adapter, hadapter, hclears, hto⟩ | ⟨hstays, hsettles⟩
    · constructor
      · intro hagrees adapter₁ hadapter₁ _ hready happlied endpoints hendpoints
        obtain rfl := Option.mem_unique hadapter hadapter₁
        cases hr : (reconcile a w).1 with
        | error e =>
          rcases hto.error e hr with ⟨-, hno⟩ | ⟨-, -, hfailed⟩
          · exact absurd hready hno
          · exact absurd happlied hfailed
        | ok result =>
          obtain ⟨-, -, rfl, hsame, hthere, hnone⟩ := hto.ok result hr
          obtain ⟨adapter', hadapter'⟩ := Option.isSome_iff_exists.mp hthere
          refine eq_nil_iff_forall_not_mem.mpr fun address haddress => ?_
          obtain ⟨name, hname, -⟩ :=
            hagrees hr adapter' hadapter' endpoints (hsame ▸ hendpoints) address haddress
          rw [hnone adapter' hadapter'] at hname
          exact absurd hname (by simp)
      · intro hempty hr
        obtain ⟨hready, happlied, -, hsame, -⟩ := hto.ok _ hr
        intro adapter' _ endpoints hendpoints address haddress
        rw [hempty adapter hadapter hclears hready happlied endpoints (hsame ▸ hendpoints)] at haddress
        exact absurd haddress (by simp)
    · exact iff_of_true hsettles.2.1
        fun adapter hadapter hclears => absurd hclears (hstays adapter hadapter)

section

variable (name : String) (podSelector : PodSelector L) (pods : List (Pod L)) (es : List (Event L))

/-- **Every condition that is read is there**, in a history of a new adapter, exactly if the list of
instances is never cleared before the adapter has been ready. -/
theorem conditions_present_iff :
    Along Cluster.step Cluster.ConditionsPresent (.fresh name podSelector pods) es ↔
      Along Cluster.step Cluster.ReadyWhenCleared (.fresh name podSelector pods) es := by
  have hfresh := Cluster.inv_fresh name podSelector pods
  exact along_congr_of_invariant hfresh (fun w e hw => hw.step e) fun w e hw => conditionsPresent_iff hw

/-- **The endpoint slice agrees with the list of instances** whenever a reconcile is done, in a
history of a new adapter, exactly if the list of instances is never cleared while there is an
address in the slice. -/
theorem slice_agrees_iff :
    Along Cluster.step Cluster.SliceAgrees (.fresh name podSelector pods) es ↔
      Along Cluster.step Cluster.EmptyWhenCleared (.fresh name podSelector pods) es := by
  have hfresh := Cluster.inv_fresh name podSelector pods
  exact along_congr_of_invariant hfresh (fun w e hw => hw.step e) fun w e hw => sliceAgrees_iff hw

end

def smooth (pods : List (Pod Unit)) : Answers Unit where
  get := .ok ()
  addFinalizer := .applied
  unload := .ok ()
  removeFinalizer := .applied
  updateStatus _ := .applied
  getSelectedPod := .ok ()
  listPods := .ok ()
  schedulePod := .ok 0
  podsAtLoading := pods
  podsAtSlice := pods
  getTargetPod := .ok ()
  modelAdapterExists := .ok true
  loadModelAdapter := .ok ()
  getService := .ok ()
  createService := .applied
  getPod := .ok ()
  getEndpointSlice := .ok ()
  updateEndpointSlice := .applied
  createEndpointSlice := .applied

def usefulPod : Pod Unit := ⟨"p", (), true, false, "1"⟩

def everyPod : PodSelector Unit := ⟨fun _ => true, some fun _ => true⟩

def newborn : Cluster Unit := .fresh "a" everyPod [usefulPod]

/-- An adapter is reconciled some times, then its pod is deleted and it is reconciled once more. -/
def podLoss (n : ℕ) : List (Event Unit) :=
  List.replicate n (.reconcile (smooth [usefulPod])) ++ [.pods [], .reconcile (smooth [])]

/-- The pod is deleted after it was chosen: the condition `Ready` is read and is not there. -/
theorem ready_missing :
    (reconcile (smooth []) ((podLoss 2).dropLast.foldl Cluster.step newborn)).1 =
      .error (.nilDereference .ready) ∧
    ¬ Along Cluster.step Cluster.ConditionsPresent newborn (podLoss 2) := by
  refine ⟨by decide +kernel, ?_⟩
  rintro ⟨-, -, -, hpresent, -⟩
  exact hpresent .ready (by decide +kernel)

/-- The pod is deleted after the slice was made: the reconcile is done, the list of instances is
empty, and the slice has the address of the pod. -/
theorem slice_keeps_address :
    (reconcile (smooth []) ((podLoss 3).dropLast.foldl Cluster.step newborn)).1 = .ok .done ∧
    (((podLoss 3).foldl Cluster.step newborn).adapter.map fun adapter => adapter.status.instances) =
      some [] ∧
    ((podLoss 3).foldl Cluster.step newborn).endpoints = some [["1"]] ∧
    ¬ Along Cluster.step Cluster.SliceAgrees newborn (podLoss 3) := by
  have hnone : (((podLoss 3).foldl Cluster.step newborn).adapter.map fun adapter =>
      adapter.status.instances) = some [] := by decide +kernel
  refine ⟨by decide +kernel, hnone, by decide +kernel, ?_⟩
  rintro ⟨-, -, -, -, hagrees, -⟩
  obtain ⟨adapter, hadapter, hinstances⟩ := Option.map_eq_some_iff.mp hnone
  obtain ⟨podName, hname, -⟩ := hagrees (by decide +kernel) adapter hadapter [["1"]]
    (by decide +kernel) "1" (by decide)
  rw [hinstances] at hname
  exact absurd hname (by simp)

end Lodestar.ModelAdapter
