import Lodestar.Controller.Sync

/-!
# The reconciler of model adapters

`ModelAdapterReconciler` of `pkg/controller/modeladapter/modeladapter_controller.go`.  A reconcile
brings an adapter one stage on in its life: its status gets a first condition, a pod is chosen for
it, the adapter is loaded into the pod, a service and an endpoint slice are made.  A pod that is
gone or of no use any more is taken out of the list of instances (`clearModelAdapterInstanceList`).

A reconcile is a routine over the cluster and the copy of the status that it works on.  The answers
of the API server and of the engine are arguments, and the pods may change while it runs.
-/

namespace Lodestar.ModelAdapter

open Lib
open Lib (Routine)
open Lib.Routine
open Controller (WriteOutcome)

/-! ### The objects -/

/-- `ModelAdapterPhase`. -/
inductive Phase where
  | unset
  | pending
  | scheduled
  | bound
  | resourceCreated
  | running
  | failed
  deriving DecidableEq

/-- The types of conditions; the last is a phase that is used as one. -/
inductive ConditionType where
  | initialized
  | scheduled
  | bound
  | resourceCreated
  | ready
  | failed
  deriving DecidableEq

inductive ConditionStatus where
  | isTrue
  | isFalse
  | unknown
  deriving DecidableEq

/-- `metav1.Condition`, without times. -/
structure Condition where
  type : ConditionType
  status : ConditionStatus
  reason : String
  message : String
  deriving DecidableEq

def findStatusCondition (conditions : List Condition) (type : ConditionType) : Option Condition :=
  conditions.find? fun c => c.type = type

def setStatusCondition : List Condition → Condition → List Condition
  | [], new => [new]
  | c :: conditions, new =>
    if c.type = new.type then new :: conditions else c :: setStatusCondition conditions new

/-- `ModelAdapterStatus`. -/
structure Status where
  phase : Phase := .unset
  conditions : List Condition := []
  instances : List String := []
  deriving DecidableEq

/-- A pod with labels of type `L`. -/
structure Pod (L : Type) where
  name : String
  labels : L
  ready : Bool
  /-- It has a deletion timestamp. -/
  terminating : Bool
  podIP : String

/-- The selector of an adapter.  Pods are listed by `matchLabels` alone; expressions may be wrong. -/
structure PodSelector (L : Type) where
  matchLabels : L → Bool
  matchExpressions : Option (L → Bool)

/-- `ModelAdapter`; `name` is written with its namespace. -/
structure Adapter (L : Type) where
  name : String
  podSelector : PodSelector L
  status : Status := {}
  finalizer : Bool := false
  deleting : Bool := false

structure Cluster (L : Type) where
  adapter : Option (Adapter L)
  pods : List (Pod L)
  service : Bool := false
  /-- The addresses of the endpoints of the endpoint slice, if there is one. -/
  endpoints : Option (List (List String)) := none

/-- `r.Get` for a pod. -/
def Cluster.findPod {L : Type} (w : Cluster L) (name : String) : Option (Pod L) :=
  w.pods.find? fun pod => pod.name = name

def Cluster.setStatus {L : Type} (w : Cluster L) (status : Status) : Cluster L :=
  { w with adapter := w.adapter.map fun adapter => { adapter with status := status } }

/-! ### A reconcile -/

inductive Result where
  | done
  | requeue
  deriving DecidableEq

inductive Fault where
  | error (text : String)
  /-- A condition is read that the status does not have. -/
  | nilDereference (type : ConditionType)
  deriving DecidableEq

/-- What a reconcile is told.  Reads and calls may fail, with a text. -/
structure Answers (L : Type) where
  get : Except String Unit
  addFinalizer : WriteOutcome
  unload : Except String Unit
  removeFinalizer : WriteOutcome
  /-- The answer to the `n`-th update of the status. -/
  updateStatus : ℕ → WriteOutcome
  getSelectedPod : Except String Unit
  listPods : Except String Unit
  /-- `SelectPod`: which of the active pods is taken. -/
  schedulePod : Except String ℕ
  /-- The pods when the adapter is loaded, and when the endpoint slice is made. -/
  podsAtLoading : List (Pod L)
  podsAtSlice : List (Pod L)
  getTargetPod : Except String Unit
  modelAdapterExists : Except String Bool
  loadModelAdapter : Except String Unit
  getService : Except String Unit
  createService : WriteOutcome
  getPod : Except String Unit
  getEndpointSlice : Except String Unit
  updateEndpointSlice : WriteOutcome
  createEndpointSlice : WriteOutcome

/-- The cluster while a reconcile runs, the copy of the status that it works on, and the number of
updates of the status. -/
structure Work (L : Type) where
  cluster : Cluster L
  status : Status
  updates : ℕ := 0

abbrev ReconcileM (L : Type) := Routine Fault (Work L)

variable {L : Type}

def ofText {α : Type} : Except String α → ReconcileM L α
  | .ok a => pure a
  | .error text => throw (.raised (.error text))

def write (outcome : WriteOutcome) (change : Cluster L → Cluster L) : ReconcileM L Unit := do
  if outcome.takesEffect then
    modify fun s => { s with cluster := change s.cluster }
  if outcome = .applied then pure () else throw (.raised (.error "write"))

def podsBecome (pods : List (Pod L)) : ReconcileM L Unit :=
  modify fun s => { s with cluster := { s.cluster with pods := pods } }

def setPhase (phase : Phase) : ReconcileM L Unit :=
  modify fun s => { s with status := { s.status with phase := phase } }

section

variable (a : Answers L) (name : String)

def updateStatus (conditions : List Condition) : ReconcileM L Unit := do
  modify fun s => { s with status :=
    { s.status with conditions := conditions.foldl setStatusCondition s.status.conditions } }
  let s ← get
  modify fun s => { s with updates := s.updates + 1 }
  write (a.updateStatus s.updates) fun cluster => cluster.setStatus s.status

def removeInstanceFromList (instances : List String) (pod : String) : List String :=
  instances.filter fun s => s ≠ pod

def dereference (type : ConditionType) : ReconcileM L Condition := do
  match findStatusCondition (← get).status.conditions type with
  | some c => pure c
  | none => throw (.raised (.nilDereference type))

def clearModelAdapterInstanceList (stalePodName : String) : ReconcileM L Unit := do
  modify fun s => { s with status :=
    { s.status with
      instances := removeInstanceFromList s.status.instances stalePodName
      phase := .pending } }
  let scheduleCondition ← dereference .scheduled
  let readyCondition ← dereference .ready
  updateStatus a
    [⟨.failed, .isTrue, "StableInstanceFound", "Pod (" ++ stalePodName ++
        ") is stale or invalid for model adapter (" ++ name ++ "), clean up the list"⟩,
      { scheduleCondition with status := .isFalse }, { readyCondition with status := .isFalse }]

def reconcileLoading : ReconcileM L Unit := do
  let s ← get
  match s.status.instances with
  | [] => pure ()
  | podName :: _ =>
    ofText a.getTargetPod
    match s.cluster.findPod podName with
    | none => throw (.raised (.error ("pod " ++ podName ++ " can not be found, skip loading")))
    | some targetPod =>
      if targetPod.terminating then pure ()
      else
        let isThere ← ofText a.modelAdapterExists
        if isThere then pure () else ofText a.loadModelAdapter

def reconcileService : ReconcileM L Unit := do
  ofText a.getService
  if (← get).cluster.service then pure ()
  else
    match ← attempt (write a.createService fun cluster => { cluster with service := true }) with
    | .ok _ => pure ()
    | .error e =>
      updateStatus a [⟨.resourceCreated, .isFalse, "ServiceCreateError",
        "Failed to create Service for the modeladapter (" ++ name ++ ")"⟩]
      throw (.raised e)

def setEndpoints (outcome : WriteOutcome) (endpoints : List (List String)) : ReconcileM L Unit :=
  write outcome fun cluster => { cluster with endpoints := some endpoints }

def removeAddress (podIP : String) (endpoints : List (List String)) : List (List String) :=
  endpoints.filterMap fun addresses =>
    let newAddresses := addresses.filter fun address => address ≠ podIP
    if podIP ∉ addresses ∨ newAddresses ≠ [] then some newAddresses else none

def endpointSliceFor (pod : Pod L) : ReconcileM L Unit := do
  ofText a.getEndpointSlice
  match (← get).cluster.endpoints with
  | none =>
    match ← attempt (setEndpoints a.createEndpointSlice [[pod.podIP]]) with
    | .ok _ => setPhase .running
    | .error e =>
      setPhase .failed
      updateStatus a [⟨.resourceCreated, .isFalse, "EndpointSliceCreateError",
        "Failed to create EndpointSlice for the custom resource (" ++ name ++ ")"⟩]
      throw (.raised e)
  | some endpoints =>
    if pod.podIP ∉ endpoints.flatten then
      setEndpoints a.updateEndpointSlice [[pod.podIP]]
      setPhase .running
    else if pod.terminating then
      setEndpoints a.updateEndpointSlice (removeAddress pod.podIP endpoints)
      setPhase .failed
    else setPhase .running

def reconcileEndpointSlice : ReconcileM L Unit := do
  let s ← get
  match s.status.instances with
  | [] =>
    ofText a.getEndpointSlice
    match s.cluster.endpoints with
    | none => throw (.raised (.error "not found"))
    | some _ => setEndpoints a.updateEndpointSlice []
  | podName :: _ =>
    ofText a.getPod
    match s.cluster.findPod podName with
    | none =>
      ofText a.getEndpointSlice
      match s.cluster.endpoints with
      | none => pure ()
      | some _ => setEndpoints a.updateEndpointSlice []
    | some pod => endpointSliceFor a name pod

def inconsistentModelAdapterStatus (oldStatus newStatus : Status) : Bool :=
  oldStatus.phase ≠ newStatus.phase ||
    !(oldStatus.instances.length = newStatus.instances.length &&
      newStatus.instances.all fun item => oldStatus.instances.contains item)

def reporting (stage : ReconcileM L Unit) (phase : Phase) (condition : Condition) :
    ReconcileM L Unit := do
  match ← attempt stage with
  | .ok _ => pure ()
  | .error e =>
    setPhase phase
    updateStatus a [condition]
    throw (.raised e)

/-- The stages of `DoReconcile` after a pod has been chosen. -/
def loadAndExpose : ReconcileM L Result := do
  let oldStatus := (← get).status
  podsBecome a.podsAtLoading
  reporting a (reconcileLoading a) .bound
    ⟨.bound, .isFalse, "ModelAdapterLoadingError", "ModelAdapter " ++ name ++ " is loaded"⟩
  reporting a (reconcileService a name) .resourceCreated
    ⟨.resourceCreated, .isFalse, "ServiceCreateError", "service creation failure"⟩
  podsBecome a.podsAtSlice
  reporting a (reconcileEndpointSlice a name) .resourceCreated
    ⟨.resourceCreated, .isFalse, "EndpointSliceCreateError", "endpointslice creation failure"⟩
  if inconsistentModelAdapterStatus oldStatus (← get).status then
    updateStatus a [⟨.ready, .isTrue, "ModelAdapterAvailable", "ModelAdapter " ++ name ++ " is ready"⟩]
  pure .done

def getActivePodsForModelAdapter (selector : PodSelector L) (pods : List (Pod L)) : List (Pod L) :=
  (pods.filter fun pod => selector.matchLabels pod.labels).filter fun pod =>
    !pod.terminating && pod.ready

def schedule (selector : PodSelector L) : ReconcileM L Result := do
  ofText a.listPods
  match getActivePodsForModelAdapter selector (← get).cluster.pods with
  | [] => loadAndExpose a name
  | pod :: pods =>
    let i ← ofText a.schedulePod
    let selectedPod := (pod :: pods).getD i pod
    modify fun s => { s with status :=
      { s.status with phase := .scheduled, instances := s.status.instances ++ [selectedPod.name] } }
    updateStatus a [⟨.scheduled, .isTrue, "Scheduled",
      "ModelAdapter " ++ name ++ " has been allocated to pod " ++ selectedPod.name⟩]
    pure .requeue

/-- Whether a pod is of use for the adapter; a selector that is wrong gives an error. -/
def checkSelectedPod (selector : PodSelector L) (pod : Pod L) : Except String Bool :=
  match selector.matchExpressions with
  | none => .error "failed to convert pod selector"
  | some expressions =>
    .ok (selector.matchLabels pod.labels && expressions pod.labels && pod.ready && !pod.terminating)

def doReconcile (selector : PodSelector L) : ReconcileM L Result := do
  let s ← get
  if s.status.conditions = [] then
    setPhase .pending
    updateStatus a [⟨.initialized, .unknown, "ModelAdapterPending", "Starting reconciliation"⟩]
    pure .requeue
  else
    match s.status.instances with
    | [] => schedule a name selector
    | selectedPodName :: _ =>
      ofText a.getSelectedPod
      match s.cluster.findPod selectedPodName with
      | none =>
        clearModelAdapterInstanceList a name selectedPodName
        pure .done
      | some selectedPod =>
        if ← ofText (checkSelectedPod selector selectedPod) then loadAndExpose a name
        else
          clearModelAdapterInstanceList a name selectedPodName
          pure .done

end

/-- `Reconcile` for an adapter that has been read. -/
def reconcileAdapter (a : Answers L) (adapter : Adapter L) : ReconcileM L Result := do
  if adapter.deleting then
    if adapter.finalizer then
      ofText a.unload
      -- without its finalizer a deleted adapter goes away
      write a.removeFinalizer fun cluster => { cluster with adapter := none }
    pure .done
  else
    unless adapter.finalizer do
      write a.addFinalizer fun cluster =>
        { cluster with adapter := cluster.adapter.map ({ · with finalizer := true }) }
    doReconcile a adapter.name adapter.podSelector

def reconcile (a : Answers L) (w : Cluster L) : Except Fault Result × Cluster L :=
  match a.get, w.adapter with
  | .error text, _ => (.error (.error text), w)
  | .ok _, none => (.ok .done, w)
  | .ok _, some adapter =>
    match reconcileAdapter a adapter { cluster := w, status := adapter.status } with
    | .ok r s => (.ok r, s.cluster)
    | .error .returned s => (.ok .done, s.cluster)
    | .error (.raised e) s => (.error e, s.cluster)

/-! ### Histories -/

/-- What happens: the pods change, the selector of the adapter is edited, the adapter is deleted, it
is reconciled. -/
inductive Event (L : Type) where
  | pods (pods : List (Pod L))
  | edit (podSelector : PodSelector L)
  | delete
  | reconcile (a : Answers L)

namespace Cluster

def step (w : Cluster L) : Event L → Cluster L
  | .pods pods => { w with pods := pods }
  | .edit podSelector =>
    { w with adapter := w.adapter.map ({ · with podSelector := podSelector }) }
  | .delete =>
    { w with adapter := w.adapter.bind fun adapter =>
        if adapter.finalizer then some { adapter with deleting := true } else none }
  | .reconcile a => (ModelAdapter.reconcile a w).2

def fresh (name : String) (podSelector : PodSelector L) (pods : List (Pod L)) : Cluster L where
  adapter := some { name := name, podSelector := podSelector }
  pods := pods

end Cluster
end Lodestar.ModelAdapter
