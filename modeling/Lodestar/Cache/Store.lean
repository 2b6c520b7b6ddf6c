import Mathlib

/-!
# The pod cache

`Store` of `pkg/cache` with its records of pods and models, the request counters in these
records (`cache_impl.go`, `cache_trace.go`) and the handlers of the informers
(`informers.go`).

A handler holds the lock of the store, but the calls that count requests do not take it.
So a handler is a program of a few actions, each of them atomic, and requests may start
and complete between two of them (`System`).  The buffered records that spare an
allocation are left out: a record that is stored is always a fresh one.
-/

namespace Lodestar.Cache

/-- What the cache reads of a pod object: its name, the label with the model and the label
with the type of its Ray node. -/
structure PodObject where
  name : String
  modelName : Option String := none
  nodeType : Option String := none
  deriving DecidableEq

def nodeWorker : String := "worker"

def PodObject.isWorker (pod : PodObject) : Bool := pod.nodeType = some nodeWorker

/-- `utils.Registry`: values under string keys. -/
abbrev Registry (V : Type) := AList fun _ : String => V

/-- `Pod` of the cache. -/
structure PodRecord where
  pod : PodObject
  models : Registry String := ∅
  runningRequests : ℤ := 0

/-- `Model` of the cache. -/
structure ModelRecord where
  pods : Registry PodObject := ∅
  pendingRequests : ℤ := 0

structure Store where
  metaPods : AList fun _ : String => PodRecord := ∅
  metaModels : AList fun _ : String => ModelRecord := ∅

/-- What a request is counted under: its target, where it is routed, and its model. -/
structure Request where
  requestID : String
  target : Option String
  model : String
  deriving DecidableEq

namespace Store

lemma lookup_insert {V : Type} (m : AList fun _ : String => V) (k k' : String) (v : V) :
    (m.insert k v).lookup k' = if k' = k then some v else m.lookup k' := by
  by_cases h : k' = k
  · subst h
    simp
  · simp [h]

lemma lookup_erase {V : Type} (m : AList fun _ : String => V) (k k' : String) :
    (m.erase k).lookup k' = if k' = k then none else m.lookup k' := by
  by_cases h : k' = k
  · subst h
    simp
  · simp [h]

variable (c : Store)

/-! ### Counting requests -/

def addPending (modelName : String) (n : ℤ) : Store :=
  match c.metaModels.lookup modelName with
  | none => c
  | some record =>
    let record := { record with pendingRequests := record.pendingRequests + n }
    { c with metaModels := c.metaModels.insert modelName record }

/-- A change of the counter of the target, where there is one and it is tracked. -/
def addRunning (target : Option String) (n : ℤ) : Store :=
  match target with
  | none => c
  | some podName =>
    match c.metaPods.lookup podName with
    | none => c
    | some record =>
      let record := { record with runningRequests := record.runningRequests + n }
      { c with metaPods := c.metaPods.insert podName record }

def addRequestCount (r : Request) : Store := (c.addPending r.model 1).addRunning r.target 1

/-- `DoneRequestCount` and, as far as the counters go, `DoneRequestTrace`. -/
def doneRequestCount (r : Request) : Store := (c.addRunning r.target (-1)).addPending r.model (-1)

/-! ### The actions of the handlers -/

inductive Action where
  | addPodLocked (pod : PodObject)
  | addPodAndModelMapping (podName modelName : String)
  | deletePodLocked (podName : String)
  | deletePodAndModelMapping (podName modelName : String) (ignoreMapping : ℤ)
  deriving DecidableEq

/-- `addPodLocked`: a record that exists is kept. -/
def addPodLocked (pod : PodObject) : Store :=
  match c.metaPods.lookup pod.name with
  | none => { c with metaPods := c.metaPods.insert pod.name { pod := pod } }
  | some _ => c

/-- `addPodAndModelMappingLocked` for the record under a name. -/
def addPodAndModelMapping (podName modelName : String) : Store :=
  match c.metaPods.lookup podName with
  | none => c
  | some pod =>
    let model := (c.metaModels.lookup modelName).getD {}
    let model := { model with pods := model.pods.insert pod.pod.name pod.pod }
    let pod := { pod with models := pod.models.insert modelName modelName }
    { metaPods := c.metaPods.insert podName pod
      metaModels := c.metaModels.insert modelName model }

def deletePodLocked (podName : String) : Store := { c with metaPods := c.metaPods.erase podName }

def forgetModel (podName modelName : String) : Store :=
  match c.metaPods.lookup podName with
  | none => c
  | some pod =>
    let pod := { pod with models := pod.models.erase modelName }
    { c with metaPods := c.metaPods.insert podName pod }

/-- The pod is taken off the record of the model, which is dropped with its last pod. -/
def forgetPod (podName modelName : String) : Store :=
  match c.metaModels.lookup modelName with
  | none => c
  | some model =>
    let model := { model with pods := model.pods.erase podName }
    if model.pods.entries.length = 0 then { c with metaModels := c.metaModels.erase modelName }
    else { c with metaModels := c.metaModels.insert modelName model }

/-- `deletePodAndModelMappingLocked`. -/
def deletePodAndModelMapping (podName modelName : String) (ignoreMapping : ℤ) : Store :=
  let c := if ignoreMapping ≤ 0 then c.forgetModel podName modelName else c
  if 0 ≤ ignoreMapping then c.forgetPod podName modelName else c

def act : Action → Store
  | .addPodLocked pod => c.addPodLocked pod
  | .addPodAndModelMapping podName modelName => c.addPodAndModelMapping podName modelName
  | .deletePodLocked podName => c.deletePodLocked podName
  | .deletePodAndModelMapping podName modelName ignoreMapping =>
    c.deletePodAndModelMapping podName modelName ignoreMapping

/-! ### The handlers -/

/-- A pod is dropped together with the mappings of all models it has. -/
def dropPod (podName : String) : List Action :=
  .deletePodLocked podName :: match c.metaPods.lookup podName with
    | none => []
    | some record =>
      record.models.keys.map fun modelName => .deletePodAndModelMapping podName modelName 1

def addPod (pod : PodObject) : List Action :=
  match pod.modelName with
  | none => []
  | some modelName =>
    if pod.isWorker then []
    else [.addPodLocked pod, .addPodAndModelMapping pod.name modelName]

/-- `updatePod`; the old record is dropped and a fresh one is stored. -/
def updatePod (oldPod newPod : PodObject) : List Action :=
  let drop := oldPod.modelName.isSome || (c.metaPods.lookup oldPod.name).isSome
  (if drop then c.dropPod oldPod.name else []) ++ if oldPod.isWorker || newPod.isWorker then []
    else match newPod.modelName with
      | none => []
      | some modelName => [.addPodLocked newPod, .addPodAndModelMapping newPod.name modelName]

/-- What `deletePod` is given: a pod, a tombstone with the last known pod, or a tombstone
with a key, which has a name if it can be split. -/
inductive Deleted where
  | object (pod : PodObject)
  | tombstone (pod : PodObject)
  | key (name : Option String)
  deriving DecidableEq

def Deleted.name : Deleted → Option String
  | .object pod => some pod.name
  | .tombstone pod => some pod.name
  | .key name => name

/-- What is deleted is known to have the label of a model. -/
def Deleted.hasModelLabel : Deleted → Bool
  | .object pod => pod.modelName.isSome
  | .tombstone pod => pod.modelName.isSome
  | .key _ => false

def deletePod (obj : Deleted) : List Action :=
  match obj.name with
  | none => []
  | some name =>
    if obj.hasModelLabel || (c.metaPods.lookup name).isSome then c.dropPod name else []

structure ModelAdapter where
  name : String
  instances : List String
  deriving DecidableEq

def addModelAdapter (model : ModelAdapter) : List Action :=
  model.instances.map fun pod => .addPodAndModelMapping pod model.name

/-- `deleteModelAdapter`; a tombstone without an adapter is skipped. -/
def deleteModelAdapter : Option ModelAdapter → List Action
  | none => []
  | some model => model.instances.map fun pod => .deletePodAndModelMapping pod model.name 0

def updateModelAdapter (oldModel newModel : ModelAdapter) : List Action :=
  deleteModelAdapter (some oldModel) ++ addModelAdapter newModel

end Store

/-! ### Requests and informer events -/

inductive Notice where
  | addPod (pod : PodObject)
  | updatePod (oldPod newPod : PodObject)
  | deletePod (obj : Store.Deleted)
  | addModelAdapter (model : Store.ModelAdapter)
  | updateModelAdapter (oldModel newModel : Store.ModelAdapter)
  | deleteModelAdapter (model : Option Store.ModelAdapter)
  deriving DecidableEq

def Store.handle (c : Store) : Notice → List Store.Action
  | .addPod pod => Store.addPod pod
  | .updatePod oldPod newPod => c.updatePod oldPod newPod
  | .deletePod obj => c.deletePod obj
  | .addModelAdapter model => Store.addModelAdapter model
  | .updateModelAdapter oldModel newModel => Store.updateModelAdapter oldModel newModel
  | .deleteModelAdapter model => Store.deleteModelAdapter model

/-- The cache, what the handler that holds the lock still has to do, and the requests that
have started and not completed. -/
structure System where
  store : Store := {}
  pending : List Store.Action := []
  active : List Request := []

/-- What can happen: a request starts or completes, a handler takes the lock, or the one
that has it does its next action. -/
inductive Event where
  | start (r : Request)
  | complete (r : Request)
  | notice (notice : Notice)
  | act
  deriving DecidableEq

/-- The system after an event; what cannot happen changes nothing. -/
def System.step (σ : System) : Event → System
  | .start r => { σ with store := σ.store.addRequestCount r, active := r :: σ.active }
  | .complete r =>
    if r ∈ σ.active then
      { σ with store := σ.store.doneRequestCount r, active := σ.active.erase r }
    else σ
  | .notice notice =>
    match σ.pending with
    | [] => { σ with pending := σ.store.handle notice }
    | _ :: _ => σ
  | .act =>
    match σ.pending with
    | [] => σ
    | action :: rest => { σ with store := σ.store.act action, pending := rest }

def System.run (σ : System) (es : List Event) : System := es.foldl System.step σ

end Lodestar.Cache
