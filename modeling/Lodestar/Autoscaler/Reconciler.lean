import Lodestar.Autoscaler.Kpa
import Lodestar.Lib.Routine

/-!
# The reconciler of pod autoscalers

`PodAutoscalerReconciler` of `pkg/controller/podautoscaler/podautoscaler_controller.go` with the
scalers that it keeps.  A reconcile of an object with the strategy KPA or APA looks up a scaler
under a key of the object, its target and its metric, makes one of the kind of the strategy where
there is none, and asks it for a count.  The key does not have the strategy.

A reconcile is a routine over the scalers and the count that it has computed; the answers of the
API server and of the metrics are arguments.
-/

namespace Lodestar.Autoscaler

open Lib
open Lib (Routine)
open Lib.Routine
open Indexer (Time)

/-! ### APA -/

structure ApaAutoscaler where
  scalingContext : ApaScalingContext

def ApaScalingContext.computeTargetReplicas (context : ApaScalingContext) (currentPodCount : ℚ) :
    ℤ :=
  let use := context.currentUsePerPod / context.targetValue
  if use > 1 + context.upFluctuationTolerance then
    let maxScaleUp := ⌈context.maxScaleUpRate * currentPodCount⌉
    let expectedPods := ⌈currentPodCount * use⌉
    if expectedPods > maxScaleUp then maxScaleUp else expectedPods
  else if use < 1 - context.downFluctuationTolerance then
    let maxScaleDown := ⌊currentPodCount / context.maxScaleDownRate⌋
    let expectedPods := ⌈currentPodCount * use⌉
    if expectedPods < maxScaleDown then maxScaleDown else expectedPods
  else ⌊currentPodCount⌋

/-- `ApaAutoscaler.Scale`; `observed` has the value of the window, if it is available. -/
def ApaAutoscaler.scale (a : ApaAutoscaler) (originalReadyPodsCount : ℤ) (observed : Option ℚ) :
    ApaAutoscaler × ScaleResult :=
  match observed with
  | none => (a, {})
  | some observedValue =>
    if originalReadyPodsCount = 0 then (a, {})
    else
      let spec := { a.scalingContext with currentUsePerPod := observedValue / originalReadyPodsCount }
      (⟨spec⟩, ⟨spec.computeTargetReplicas originalReadyPodsCount, 0, true⟩)

/-! ### Scalers -/

/-- The implementations of `Scaler`. -/
inductive Scaler where
  | kpa (k : KpaAutoscaler)
  | apa (a : ApaAutoscaler)

/-- What the metrics of a scaler give: the stable and the panic value for KPA, one value for APA. -/
structure Observed where
  stableAndPanic : Option (ℚ × ℚ)
  value : Option ℚ

namespace Scaler

def strategy : Scaler → ScalingStrategyType
  | .kpa _ => .kpa
  | .apa _ => .apa

/-- `UpdateScalingContext`; the lengths of windows are kept. -/
def updateScalingContext (parsers : Parsers) (pa : PodAutoscaler) : Scaler → Except String Scaler
  | .kpa k => do
    let updatedSpec ← newKpaScalingContextByPa parsers pa
    let rawSpec := k.scalingContext
    pure (.kpa { k with scalingContext :=
      { updatedSpec with
        panicWindow := rawSpec.panicWindow
        stableWindow := rawSpec.stableWindow
        scaleDownDelay := rawSpec.scaleDownDelay } })
  | .apa a => do
    let updatedSpec ← newApaScalingContextByPa parsers pa
    pure (.apa ⟨{ updatedSpec with window := a.scalingContext.window }⟩)

def scale (originalReadyPodsCount : ℤ) (observed : Observed) (now : Time) :
    Scaler → Scaler × ScaleResult
  | .kpa k =>
    let r := k.scale originalReadyPodsCount observed.stableAndPanic now
    (.kpa r.1, r.2)
  | .apa a =>
    let r := a.scale originalReadyPodsCount observed.value
    (.apa r.1, r.2)

def new (parsers : Parsers) (pa : PodAutoscaler) (currentReplicas : ℤ) (now : Time) :
    Except String Scaler :=
  match pa.scalingStrategy with
  | .kpa => do
    let spec ← newKpaScalingContextByPa parsers pa
    pure (.kpa (← newKpaAutoscaler currentReplicas spec now))
  | .apa => do
    let spec ← newApaScalingContextByPa parsers pa
    pure (.apa ⟨spec⟩)
  | strategy => .error ("unsupported scaling strategy: " ++ strategy.text)

end Scaler

/-! ### A reconcile -/

structure NamespaceNameMetric where
  target : NamespacedName
  metricName : String
  pa : NamespacedName
  deriving DecidableEq

def newNamespaceNameMetric (pa : PodAutoscaler) : Except String (NamespaceNameMetric × MetricSource) :=
  match pa.metricsSources with
  | [metricSource] => .ok
    (⟨⟨pa.namespacedName.space, pa.scaleTargetRef⟩, metricSource.targetMetric, pa.namespacedName⟩,
      metricSource)
  | sources => .error ("metrics sources must be 1, but got " ++ toString sources.length)

structure Answers where
  /-- Reading the object fails, though it may be there. -/
  get : Except String Unit
  /-- The reconcile of the `HorizontalPodAutoscaler` of the object. -/
  hpa : Except String Unit
  /-- The replicas that the scale of the target asks for; its group, its mapping, the scale itself or
  the field may be missing. -/
  currentReplicas : Except String ℤ
  /-- The pods of the target. -/
  podList : Except String Unit
  /-- The metrics of the pods or of the source. -/
  metricValues : Except String Unit
  originalReadyPodsCount : Except String ℤ
  observed : Observed
  updateScale : Except String Unit
  updateStatus : Except String Unit
  now : Time

/-- The scalers, with what the reconcile has computed: the scaler's kind and the count. -/
structure Memory where
  autoscalerMap : NamespaceNameMetric → Option Scaler
  computed : Option (ScalingStrategyType × ℤ) := none

/-- `r.AutoscalerMap[key] = x`. -/
def Memory.put (m : Memory) (key : NamespaceNameMetric) (x : Scaler) : Memory :=
  { m with autoscalerMap := fun key' => if key' = key then some x else m.autoscalerMap key' }

def Memory.deleteStaleScalerInCache (m : Memory) (request : NamespacedName) : Memory :=
  { m with autoscalerMap := fun key => if key.pa = request then none else m.autoscalerMap key }

abbrev ReconcileM := Routine String Memory

section

variable (parsers : Parsers) (a : Answers)

section

variable (pa : PodAutoscaler) (metricKey : NamespaceNameMetric)

/-- The scaler under the key is brought up to date, or made. -/
def obtainScaler (currentReplicas : ℤ) :
    ReconcileM Unit := do
  match (← get).autoscalerMap metricKey with
  | none =>
    let x ← ofExcept (Scaler.new parsers pa currentReplicas a.now)
    modify (·.put metricKey x)
  | some x =>
    let x ← ofExcept (x.updateScalingContext parsers pa)
    modify (·.put metricKey x)

def updateMetricsForScale
    (metricSource : MetricSource) (currentReplicas : ℤ) : ReconcileM Unit := do
  obtainScaler parsers a pa metricKey currentReplicas
  ofExcept a.podList
  match metricSource.metricSourceType with
  | .pod => ofExcept a.metricValues
  | .domain => ofExcept a.metricValues
  | .other _ =>
    throw (.raised ("unsupported protocol type: " ++ metricSource.protocolType))

def updateScalerSpec : ReconcileM Unit := do
  match (← get).autoscalerMap metricKey with
  | none =>
    throw (.raised ("unsupported scaling strategy: " ++ pa.scalingStrategy.text))
  | some x =>
    let x ← ofExcept (x.updateScalingContext parsers pa)
    modify (·.put metricKey x)

def computeReplicasForMetrics :
    ReconcileM ℤ := do
  let originalReadyPodsCount ← ofExcept a.originalReadyPodsCount
  updateScalerSpec parsers pa metricKey
  match (← get).autoscalerMap metricKey with
  | none =>
    throw (.raised ("unsupported scaling strategy: " ++ pa.scalingStrategy.text))
  | some autoScaler =>
    let scaled := autoScaler.scale originalReadyPodsCount a.observed a.now
    modify (·.put metricKey scaled.1)
    if scaled.2.scaleValid then
      modify ({ · with computed := some (autoScaler.strategy, scaled.2.desiredPodCount) })
      pure scaled.2.desiredPodCount
    else throw (.raised ("can not calculate metrics for scale " ++ pa.scaleTargetRef))

/-- The count that the reconcile asks for, if it is to be changed. -/
def desiredReplicas (currentReplicas : ℤ) :
    ReconcileM (Option ℤ) := do
  let minReplicas := pa.minReplicas.getD 1
  if currentReplicas = 0 ∧ minReplicas ≠ 0 then pure none
  else if currentReplicas > pa.maxReplicas then pure (some pa.maxReplicas)
  else if currentReplicas < minReplicas then pure (some minReplicas)
  else
    let metricDesiredReplicas ← computeReplicasForMetrics parsers a pa metricKey
    let desired := max 0 metricDesiredReplicas
    let desired := if desired > pa.maxReplicas then pa.maxReplicas
      else if desired < minReplicas then minReplicas else desired
    pure (if desired ≠ currentReplicas then some desired else none)

end

def reconcileCustomPA (pa : PodAutoscaler) : ReconcileM Unit := do
  let (metricKey, metricSource) ← ofExcept (newNamespaceNameMetric pa)
  let currentReplicas ← ofExcept a.currentReplicas
  updateMetricsForScale parsers a pa metricKey metricSource currentReplicas
  let desired ← desiredReplicas parsers a pa metricKey currentReplicas
  if desired.isSome then ofExcept a.updateScale
  ofExcept a.updateStatus

/-- `Reconcile`; `found` is the object under the name of the request. -/
def reconcile (request : NamespacedName) (found : Option PodAutoscaler) : ReconcileM Unit := do
  ofExcept a.get
  match found with
  | none => modify (·.deleteStaleScalerInCache request)
  | some pa =>
    match pa.scalingStrategy with
    | .hpa => ofExcept a.hpa
    | .kpa => reconcileCustomPA parsers a pa
    | .apa => reconcileCustomPA parsers a pa
    | .other _ => pure ()

end

/-! ### Histories -/

/-- The objects in the cluster, and the scalers of the controller with what the last reconcile has
computed. -/
structure World where
  objects : NamespacedName → Option PodAutoscaler
  memory : Memory

/-- What happens: an object is created or changed, an object is deleted, a request is reconciled. -/
inductive Event where
  | edit (pa : PodAutoscaler)
  | delete (name : NamespacedName)
  | reconcile (request : NamespacedName) (a : Answers)

namespace World

variable (parsers : Parsers)

def start : World := ⟨fun _ => none, { autoscalerMap := fun _ => none }⟩

def step (w : World) : Event → World
  | .edit pa => { w with objects := fun name =>
      if name = pa.namespacedName then some pa else w.objects name }
  | .delete name => { w with objects := fun name' => if name' = name then none else w.objects name' }
  | .reconcile request a =>
    let fresh : Memory := { w.memory with computed := none }
    { w with memory := exec (reconcile parsers a request (w.objects request)) fresh }

/-- If the reconcile computes a count, it does so with the strategy that the object names. -/
def UsesNamed (w : World) : Event → Prop
  | .reconcile request a => ∀ count ∈ (w.step parsers (.reconcile request a)).memory.computed,
      ∃ pa ∈ w.objects request, count.1 = pa.scalingStrategy
  | _ => True

end World

/-- The replicas are such that the reconcile asks for a count. -/
def PodAutoscaler.InRange (pa : PodAutoscaler) (currentReplicas : ℤ) : Prop :=
  ¬ (currentReplicas = 0 ∧ pa.minReplicas.getD 1 ≠ 0) ∧ currentReplicas ≤ pa.maxReplicas ∧
    pa.minReplicas.getD 1 ≤ currentReplicas

/-- The metrics that a scaler of this kind needs are there; APA also needs a ready pod. -/
def Scaler.Observable (originalReadyPodsCount : ℤ) (observed : Observed) : Scaler → Prop
  | .kpa _ => observed.stableAndPanic.isSome = true
  | .apa _ => observed.value.isSome = true ∧ originalReadyPodsCount ≠ 0

/-- The answers let a reconcile get to a count with the scaler `x`. -/
structure Answers.Admits (parsers : Parsers) (a : Answers) (pa : PodAutoscaler)
    (source : MetricSource) (x : Scaler) : Prop where
  get : a.get = .ok ()
  podList : a.podList = .ok ()
  metricValues : a.metricValues = .ok ()
  source : source.metricSourceType = .pod ∨ source.metricSourceType = .domain
  context : ∃ y, x.updateScalingContext parsers pa = .ok y
  replicas : ∃ n, a.currentReplicas = .ok n ∧ pa.InRange n
  ready : ∃ n, a.originalReadyPodsCount = .ok n ∧ x.Observable n a.observed

/-- The scaler that is kept under the key of the object, if the reconcile gets to a count with it,
is of the kind that the object names. -/
def World.Fits (parsers : Parsers) (w : World) : Event → Prop
  | .reconcile request a => ∀ pa ∈ w.objects request,
      pa.scalingStrategy = .kpa ∨ pa.scalingStrategy = .apa → ∀ key source,
      newNamespaceNameMetric pa = .ok (key, source) → ∀ x ∈ w.memory.autoscalerMap key,
      a.Admits parsers pa source x → x.strategy = pa.scalingStrategy
  | _ => True

/-! ### Scalers that can answer -/

def Scaler.Sound : Scaler → Prop
  | .kpa k => ∀ w ∈ k.delayWindow, 0 < w.window.size
  | .apa _ => True

variable {parsers : Parsers} {pa : PodAutoscaler} {P : NamespaceNameMetric → Scaler → Prop}

variable {k : KpaAutoscaler} {x y : Scaler}

/-- **A call of `Scale`** ends with `delay`, which finds the delay window as it was. -/
lemma KpaAutoscaler.scale_eq (k : KpaAutoscaler) (readyPodsCount : ℤ) (stable panic : ℚ)
    (now : Time) : ∃ (k' : KpaAutoscaler) (d : ℤ), k'.delayWindow = k.delayWindow ∧
      (k.scale readyPodsCount (some (stable, panic)) now).1 = (k'.delay d now).1 ∧
      (k.scale readyPodsCount (some (stable, panic)) now).2.scaleValid = (k'.delay d now).2.isSome := by
  let spec := k.scalingContext
  let k₁ := k.updatePanic (spec.isOverPanicThreshold readyPodsCount panic) now
  let k₂ := k₁.settle (spec.desiredPodCount readyPodsCount stable)
    (spec.desiredPodCount readyPodsCount panic)
  refine ⟨k₂.1, k₂.2, ?_, ?_⟩
  · rw [settle_delayWindow, updatePanic_delayWindow]
  · dsimp only [KpaAutoscaler.scale, k₁, k₂, spec]
    split <;> rename_i hdelay <;> simp [hdelay]

lemma KpaAutoscaler.scale_delayWindow (readyPodsCount : ℤ) (observed : Option (ℚ × ℚ)) (now : Time) :
    ∀ w' ∈ (k.scale readyPodsCount observed now).1.delayWindow,
      ∃ w ∈ k.delayWindow, w'.window.size = w.window.size := by
  cases observed with
  | none => exact fun w' hw' => ⟨w', hw', rfl⟩
  | some v =>
    obtain ⟨stable, panic⟩ := v
    obtain ⟨k', d, hk', hscale⟩ := k.scale_eq readyPodsCount stable panic now
    intro w' hw'
    rw [hscale.1] at hw'
    rw [KpaAutoscaler.delay, hk'] at hw'
    cases hw : k.delayWindow with
    | none =>
      rw [hw] at hw'
      exact absurd (hk'.trans hw ▸ hw') (by simp)
    | some w =>
      rw [hw] at hw'
      obtain rfl := Option.some.inj hw'
      exact ⟨w, rfl, Window.size_record _ _⟩

lemma KpaAutoscaler.scaleValid_iff (h : ∀ w ∈ k.delayWindow, 0 < w.window.size)
    (readyPodsCount : ℤ) (observed : Option (ℚ × ℚ)) (now : Time) :
    (k.scale readyPodsCount observed now).2.scaleValid = true ↔ observed.isSome = true := by
  cases observed with
  | none => simp [scale]
  | some v =>
    obtain ⟨stable, panic⟩ := v
    obtain ⟨k', d, hk', hscale⟩ := k.scale_eq readyPodsCount stable panic now
    rw [hscale.2, KpaAutoscaler.delay, hk']
    cases hw : k.delayWindow with
    | none => simp
    | some w =>
      obtain ⟨m, hm⟩ : ∃ m, (w.record now d).max = some m :=
        Window.exists_max (Window.record_toList_ne_nil (h w hw) _ _)
      simp [hm]

lemma Scaler.scaleValid_iff (h : x.Sound) (n : ℤ) (observed : Observed) (now : Time) :
    (x.scale n observed now).2.scaleValid = true ↔ x.Observable n observed := by
  cases x with
  | kpa k => exact KpaAutoscaler.scaleValid_iff h _ _ _
  | apa a =>
    simp only [scale, Observable, ApaAutoscaler.scale]
    cases observed.value with
    | none => simp
    | some v =>
      by_cases hn : n = 0
      · simp [hn]
      · simp [hn]

@[simp] lemma Scaler.strategy_scale (n : ℤ) (observed : Observed) (now : Time) :
    (x.scale n observed now).1.strategy = x.strategy := by
  cases x <;> rfl

lemma Scaler.Sound.scale (h : x.Sound) (n : ℤ) (observed : Observed) (now : Time) :
    (x.scale n observed now).1.Sound := by
  cases x with
  | kpa k =>
    intro w' hw'
    obtain ⟨w, hw, heq⟩ := KpaAutoscaler.scale_delayWindow _ _ _ w' hw'
    rw [heq]
    exact h w hw
  | apa a => trivial

lemma bind_eq_ok {ε α β : Type} {r : Except ε α} {f : α → Except ε β} {b : β} :
    (r >>= f) = .ok b ↔ ∃ a, r = .ok a ∧ f a = .ok b := by
  cases r <;> simp [bind, Except.bind]

lemma Scaler.updateScalingContext_spec (h : x.updateScalingContext parsers pa = .ok y) :
    y.strategy = x.strategy ∧ (x.Sound → y.Sound) := by
  cases x with
  | kpa | apa =>
    obtain ⟨spec, -, hy⟩ := bind_eq_ok.mp h
    obtain rfl := Except.ok.inj hy
    exact ⟨rfl, id⟩

lemma Scaler.new_spec {n : ℤ} {now : Time} (h : Scaler.new parsers pa n now = .ok x) :
    x.strategy = pa.scalingStrategy ∧ x.Sound := by
  unfold new at h
  split at h
  · rename_i hs
    obtain ⟨spec, -, hnew⟩ := bind_eq_ok.mp h
    obtain ⟨k, hk, hx⟩ := bind_eq_ok.mp hnew
    obtain rfl := Except.ok.inj hx
    exact ⟨hs.symm, (inv_start hk).size_pos⟩
  · rename_i hs
    obtain ⟨spec, -, hx⟩ := bind_eq_ok.mp h
    obtain rfl := Except.ok.inj hx
    exact ⟨hs.symm, trivial⟩
  · simp at h

lemma Scaler.updateScalingContext_ok (h : y.strategy = x.strategy) :
    (∃ z, y.updateScalingContext parsers pa = .ok z) ↔
      ∃ z, x.updateScalingContext parsers pa = .ok z := by
  cases x <;> cases y
  case kpa.kpa | apa.apa => simp [updateScalingContext, bind_eq_ok, pure, Except.pure]
  all_goals exact absurd h (by simp [strategy])

/-! ### What a reconcile does -/

variable {a : Answers} {m : Memory} {key : NamespaceNameMetric} {source : MetricSource}

def Memory.Holds (P : NamespaceNameMetric → Scaler → Prop) (m : Memory) : Prop :=
  ∀ key, ∀ x ∈ m.autoscalerMap key, P key x

lemma Memory.Holds.put {x : Scaler} (h : m.Holds P) (hx : P key x) : (m.put key x).Holds P := by
  intro key' y hy
  by_cases heq : key' = key
  · subst heq
    obtain rfl : x = y := by simpa [put] using hy
    exact hx
  · have hother : (m.put key x).autoscalerMap key' = m.autoscalerMap key' := if_neg heq
    exact h key' y (hother ▸ hy)

lemma Memory.put_self (x : Scaler) : (m.put key x).autoscalerMap key = some x := if_pos rfl

/-- A property that scalers have when they are made for the object, and that they keep. -/
structure Kept (parsers : Parsers) (P : NamespaceNameMetric → Scaler → Prop) (pa : PodAutoscaler)
    (key : NamespaceNameMetric) : Prop where
  new : ∀ n now x, Scaler.new parsers pa n now = .ok x → P key x
  update : ∀ x y, P key x → x.updateScalingContext parsers pa = .ok y → P key y
  scale : ∀ n observed now x, P key x → P key (x.scale n observed now).1

/-- The kind of the scaler that a reconcile of the object asks. -/
def Memory.kindFor (m : Memory) (key : NamespaceNameMetric) (pa : PodAutoscaler) :
    ScalingStrategyType :=
  ((m.autoscalerMap key).map Scaler.strategy).getD pa.scalingStrategy

/-- **What is kept under the key** after the scaler has been obtained: a scaler of the kind that was
kept, or of the kind that the object names. -/
lemma obtainScaler_spec (h : m.Holds P) (hP : Kept parsers P pa key) (n : ℤ) :
    wp (obtainScaler parsers a pa key n)
      ⟨fun _ m' => m'.Holds P ∧ m'.computed = m.computed ∧ ∃ y ∈ m'.autoscalerMap key,
          y.strategy = m.kindFor key pa ∧
            ∀ x ∈ m.autoscalerMap key, ∃ z, x.updateScalingContext parsers pa = .ok z,
        fun _ => False,
        fun _ m' => m' = m ∧ ∀ x ∈ m.autoscalerMap key, ∀ z,
          x.updateScalingContext parsers pa ≠ .ok z⟩ m := by
  unfold obtainScaler Memory.kindFor
  apply wp_get
  cases hstored : m.autoscalerMap key with
  | none =>
    apply wp_bind
    refine wp_ofExcept (fun x hx => ?_) fun e _ => ⟨rfl, by simp⟩
    exact ⟨h.put (hP.new _ _ _ hx), rfl, x, Memory.put_self x, (Scaler.new_spec hx).1, by simp⟩
  | some x =>
    apply wp_bind
    refine wp_ofExcept (fun y hy => ?_) fun e he => ⟨rfl, ?_⟩
    · refine ⟨h.put (hP.update _ _ (h key x hstored) hy), rfl, y, Memory.put_self y,
        (Scaler.updateScalingContext_spec hy).1, ?_⟩
      rintro x' hx'
      obtain rfl := Option.some.inj hx'
      exact ⟨y, hy⟩
    · rintro x' hx' z hz
      obtain rfl := Option.some.inj hx'
      rw [he] at hz
      exact absurd hz (by simp)

/-- The object can be read for the scaler, and there is what the scaler needs for a count. -/
def Scaler.CanCount (parsers : Parsers) (a : Answers) (pa : PodAutoscaler) (x : Scaler) : Prop :=
  (∃ y, x.updateScalingContext parsers pa = .ok y) ∧
    ∃ n, a.originalReadyPodsCount = .ok n ∧ x.Observable n a.observed

lemma Scaler.observable_congr {x y : Scaler} (h : y.strategy = x.strategy) (n : ℤ)
    (observed : Observed) : y.Observable n observed ↔ x.Observable n observed := by
  cases x <;> cases y <;> first | rfl | exact absurd h (by simp [strategy])

lemma Scaler.canCount_congr {x y : Scaler} (h : y.strategy = x.strategy) :
    y.CanCount parsers a pa ↔ x.CanCount parsers a pa := by
  unfold CanCount
  rw [updateScalingContext_ok h]
  simp only [observable_congr h]

/-- A reconcile has computed a count exactly if `C`, and then with a scaler of the given kind. -/
structure Memory.Counted (P : NamespaceNameMetric → Scaler → Prop) (kind : ScalingStrategyType)
    (C : Prop) (m : Memory) : Prop where
  holds : m.Holds P
  kind : ∀ count ∈ m.computed, count.1 = kind
  isSome : m.computed.isSome = true ↔ C

lemma Memory.counted_none {kind : ScalingStrategyType} {C : Prop} (h : m.Holds P)
    (hnone : m.computed = none) (hC : ¬ C) : m.Counted P kind C :=
  ⟨h, by simp [hnone], by simp [hnone, hC]⟩

section

variable {y : Scaler} (h : m.Holds P) (hP : Kept parsers P pa key) (hsound : ∀ x, P key x → x.Sound)
  (hy : m.autoscalerMap key = some y) (hnone : m.computed = none)
include h hP hsound hy hnone

lemma computeReplicasForMetrics_spec :
    wp (computeReplicasForMetrics parsers a pa key)
      (.always (Memory.Counted P y.strategy (y.CanCount parsers a pa))) m := by
  apply wp_bind
  refine wp_ofExcept (fun n hn => ?_) fun e he => ?_
  · refine wp_bind (wp_get ?_)
    rw [hy]
    refine wp_bind (wp_ofExcept (fun z hz => ?_) fun e he => ?_)
    · -- the scaler `z` is asked
      have hPz : P key z := hP.update y z (h key y hy) hz
      have hkind := (Scaler.updateScalingContext_spec hz).1
      have hcan : (z.scale n a.observed a.now).2.scaleValid = true ↔ y.CanCount parsers a pa := by
        rw [Scaler.scaleValid_iff (hsound z hPz), Scaler.observable_congr hkind]
        refine ⟨fun hobs => ⟨⟨z, hz⟩, n, hn, hobs⟩, ?_⟩
        rintro ⟨-, n', hn', hobs⟩
        rw [hn] at hn'
        exact Except.ok.inj hn' ▸ hobs
      show wp (get >>= _) _ (m.put key z)
      apply wp_get
      rw [Memory.put_self]
      apply wp_modify
      have hholds := (h.put hPz).put (hP.scale n a.observed a.now z hPz)
      refine wp_ite (fun hvalid => ?_) fun hvalid => ?_
      · refine wp_modify (wp_pure ⟨hholds, ?_, ?_⟩)
        · intro count hcount
          obtain rfl := Option.some.inj hcount
          exact hkind
        · exact iff_of_true rfl (hcan.mp hvalid)
      · exact Memory.counted_none hholds hnone fun hC => hvalid (hcan.mpr hC)
    · refine Memory.counted_none h hnone ?_
      rintro ⟨⟨z, hz⟩, -⟩
      rw [he] at hz
      exact absurd hz (by simp)
  · refine Memory.counted_none h hnone ?_
    rintro ⟨-, n, hn, -⟩
    rw [he] at hn
    exact absurd hn (by simp)

lemma desiredReplicas_spec (n : ℤ) :
    wp (desiredReplicas parsers a pa key n)
      (.always (Memory.Counted P y.strategy (pa.InRange n ∧ y.CanCount parsers a pa))) m := by
  have hout : ¬ pa.InRange n → m.Counted P y.strategy (pa.InRange n ∧ y.CanCount parsers a pa) :=
    fun hrange => Memory.counted_none h hnone fun hC => hrange hC.1
  refine wp_ite (fun hzero => wp_pure (hout fun hr => hr.1 hzero)) fun hzero => ?_
  refine wp_ite (fun hmax => wp_pure (hout fun hr => absurd hr.2.1 (not_le.mpr hmax))) fun hmax => ?_
  refine wp_ite (fun hmin => wp_pure (hout fun hr => absurd hr.2.2 (not_le.mpr hmin))) fun hmin => ?_
  have hrange : pa.InRange n := ⟨hzero, not_lt.mp hmax, not_lt.mp hmin⟩
  have hcongr : ∀ m', Memory.Counted P y.strategy (y.CanCount parsers a pa) m' →
      Memory.Counted P y.strategy (pa.InRange n ∧ y.CanCount parsers a pa) m' :=
    fun m' hm' => ⟨hm'.holds, hm'.kind, hm'.isSome.trans (and_iff_right hrange).symm⟩
  exact wp_bind (wp_mono (computeReplicasForMetrics_spec h hP hsound hy hnone)
    (fun _ m' hm' => wp_pure (hcongr m' hm')) hcongr fun _ => hcongr)

end

structure Memory.Ends (parsers : Parsers) (a : Answers) (pa : PodAutoscaler)
    (P : NamespaceNameMetric → Scaler → Prop) (key : NamespaceNameMetric) (source : MetricSource)
    (m m' : Memory) : Prop where
  holds : m'.Holds P
  kind : ∀ count ∈ m'.computed, count.1 = m.kindFor key pa
  isSome : ∀ x ∈ m.autoscalerMap key, (m'.computed.isSome = true ↔ a.Admits parsers pa source x)

lemma updateMetricsForScale_spec (h : m.Holds P) (hP : Kept parsers P pa key)
    (hnone : m.computed = none) (n : ℤ) :
    wp (updateMetricsForScale parsers a pa key source n)
      ⟨fun _ m' => m'.Holds P ∧ m'.computed = none ∧ (∃ y ∈ m'.autoscalerMap key,
          y.strategy = m.kindFor key pa) ∧ a.podList = .ok () ∧ a.metricValues = .ok () ∧
          (source.metricSourceType = .pod ∨ source.metricSourceType = .domain),
        fun _ => False,
        fun _ m' => m'.Holds P ∧ m'.computed = none ∧
          ∀ x ∈ m.autoscalerMap key, ¬ a.Admits parsers pa source x⟩ m := by
  refine wp_bind (wp_mono (obtainScaler_spec h hP n) ?_ (fun _ => False.elim) ?_)
  · rintro - m' ⟨hm', hnone', y, hy, hkind, -⟩
    rw [hnone] at hnone'
    refine wp_bind (wp_ofExcept (fun _ hpods => ?_) fun e he => ?_)
    · have hfails : ∀ e, a.metricValues = .error e →
          ∀ x ∈ m.autoscalerMap key, ¬ a.Admits parsers pa source x :=
        fun e he x _ hx => by simp [hx.metricValues] at he
      cases hsource : source.metricSourceType with
      | pod =>
        exact wp_ofExcept (fun _ hvalues => ⟨hm', hnone', ⟨y, hy, hkind⟩, hpods, hvalues, .inl rfl⟩)
          fun e he => ⟨hm', hnone', hfails e he⟩
      | domain =>
        exact wp_ofExcept (fun _ hvalues => ⟨hm', hnone', ⟨y, hy, hkind⟩, hpods, hvalues, .inr rfl⟩)
          fun e he => ⟨hm', hnone', hfails e he⟩
      | other text =>
        show m'.Holds P ∧ m'.computed = none ∧ _
        refine ⟨hm', hnone', fun x _ hx => ?_⟩
        rcases hx.source with hs | hs <;> rw [hsource] at hs <;> exact absurd hs (by simp)
    · exact ⟨hm', hnone', fun x _ hx => by simp [hx.podList] at he⟩
  · rintro e m' ⟨rfl, hno⟩
    refine ⟨h, hnone, fun x hx hadmits => ?_⟩
    obtain ⟨z, hz⟩ := hadmits.context
    exact hno x hx z hz

lemma reconcileCustomPA_spec (h : m.Holds P) (hP : Kept parsers P pa key)
    (hsound : ∀ x, P key x → x.Sound) (hnone : m.computed = none) (hget : a.get = .ok ())
    (hkey : newNamespaceNameMetric pa = .ok (key, source)) :
    wp (reconcileCustomPA parsers a pa) (.always (m.Ends parsers a pa P key source)) m := by
  have hstop : ∀ m' : Memory, m'.Holds P → m'.computed = none →
      (∀ x ∈ m.autoscalerMap key, ¬ a.Admits parsers pa source x) →
      m.Ends parsers a pa P key source m' := fun m' hm' hnone' hno =>
    ⟨hm', by simp [hnone'], fun x hx => by simp [hnone', hno x hx]⟩
  unfold reconcileCustomPA
  rw [hkey]
  refine wp_bind (wp_ofExcept (fun _ heq => ?_) fun e he => absurd he (by simp))
  obtain rfl := Except.ok.inj heq
  refine wp_bind (wp_ofExcept (fun n hn => ?_) fun e he => ?_)
  swap
  · refine hstop m h hnone fun x _ hx => ?_
    obtain ⟨n, hn, -⟩ := hx.replicas
    rw [he] at hn
    exact absurd hn (by simp)
  refine wp_bind (wp_mono (updateMetricsForScale_spec h hP hnone n) ?_ (fun _ => False.elim)
    fun _ m' hm' => hstop m' hm'.1 hm'.2.1 hm'.2.2)
  rintro - m₁ ⟨hm₁, hnone₁, ⟨y, hy, hkind⟩, hpods, hvalues, hsource⟩
  have hend : ∀ m', Memory.Counted P y.strategy (pa.InRange n ∧ y.CanCount parsers a pa) m' →
      m.Ends parsers a pa P key source m' := by
    intro m' hm'
    refine ⟨hm'.holds, fun count hcount => (hm'.kind count hcount).trans hkind, fun x hx => ?_⟩
    have hx' : y.strategy = x.strategy := by
      rw [hkind, Memory.kindFor, show m.autoscalerMap key = some x from hx]
      rfl
    rw [hm'.isSome, Scaler.canCount_congr hx']
    constructor
    · rintro ⟨hrange, hcontext, hready⟩
      exact ⟨hget, hpods, hvalues, hsource, hcontext, ⟨n, hn, hrange⟩, hready⟩
    · intro hadmits
      obtain ⟨n', hn', hrange⟩ := hadmits.replicas
      rw [hn] at hn'
      obtain rfl := Except.ok.inj hn'
      exact ⟨hrange, hadmits.context, hadmits.ready⟩
  refine wp_bind (wp_mono (desiredReplicas_spec hm₁ hP hsound hy hnone₁ n) (fun desired m' hm' => ?_)
    hend fun _ => hend)
  have hstatus : wp (ofExcept a.updateStatus : ReconcileM Unit)
      (.always (m.Ends parsers a pa P key source)) m' :=
    wp_ofExcept (fun _ _ => hend m' hm') fun _ _ => hend m' hm'
  refine wp_ite (fun _ => ?_) fun _ => ?_
  · exact wp_bind (wp_ofExcept (fun _ _ => hstatus) fun _ _ => hend m' hm')
  · exact hstatus

lemma newNamespaceNameMetric_pa (h : newNamespaceNameMetric pa = .ok (key, source)) :
    key.pa = pa.namespacedName := by
  unfold newNamespaceNameMetric at h
  split at h
  · obtain ⟨rfl, -⟩ := Prod.mk.inj (Except.ok.inj h)
    rfl
  · simp at h

/-- The object is one of those whose count the controller computes, and its key is that. -/
structure PodAutoscaler.Custom (pa : PodAutoscaler) (key : NamespaceNameMetric)
    (source : MetricSource) : Prop where
  strategy : pa.scalingStrategy = .kpa ∨ pa.scalingStrategy = .apa
  key : newNamespaceNameMetric pa = .ok (key, source)

/-- What a reconcile leaves behind: it has computed a count for such an object only. -/
structure Memory.Reconciled (parsers : Parsers) (a : Answers)
    (P : NamespaceNameMetric → Scaler → Prop) (found : Option PodAutoscaler) (m m' : Memory) :
    Prop where
  holds : m'.Holds P
  computed : (∃ pa ∈ found, ∃ key source, pa.Custom key source ∧
      m.Ends parsers a pa P key source m') ∨
    m'.computed = none ∧ ∀ pa ∈ found, ∀ key source, pa.Custom key source → a.get ≠ .ok ()

lemma reconcile_spec {request : NamespacedName} {found : Option PodAutoscaler} (h : m.Holds P)
    (hP : ∀ pa ∈ found, ∀ key source, pa.Custom key source → Kept parsers P pa key)
    (hsound : ∀ key x, P key x → x.Sound) (hnone : m.computed = none) :
    wp (reconcile parsers a request found) (.always (m.Reconciled parsers a P found)) m := by
  refine wp_bind (wp_ofExcept (fun _ hget => ?_) fun e he => ?_)
  swap
  · exact ⟨h, .inr ⟨hnone, fun _ _ _ _ _ hget => by simp [hget] at he⟩⟩
  have hskip : (∀ pa ∈ found, ∀ key source, ¬ pa.Custom key source) →
      m.Reconciled parsers a P found m := fun hno =>
    ⟨h, .inr ⟨hnone, fun pa hpa key source hc => absurd hc (hno pa hpa key source)⟩⟩
  cases found with
  | none =>
    refine ⟨fun key x hx => ?_, .inr ⟨hnone, by simp⟩⟩
    have hx : (if key.pa = request then none else m.autoscalerMap key) = some x := hx
    split at hx
    · simp at hx
    · exact h key x hx
  | some pa =>
    have hcustom : pa.scalingStrategy = .kpa ∨ pa.scalingStrategy = .apa →
        wp (reconcileCustomPA parsers a pa) (.always (m.Reconciled parsers a P (some pa))) m := by
      intro hstrategy
      cases hkey : newNamespaceNameMetric pa with
      | error e =>
        unfold reconcileCustomPA
        rw [hkey]
        refine wp_bind (wp_ofExcept (fun _ heq => absurd heq (by simp)) fun _ _ => hskip ?_)
        intro pa' hpa' key source hc
        obtain rfl := Option.some.inj hpa'
        rw [hc.key] at hkey
        exact absurd hkey (by simp)
      | ok found =>
        obtain ⟨key, source⟩ := found
        have hc : pa.Custom key source := ⟨hstrategy, hkey⟩
        have hends : ∀ m', m.Ends parsers a pa P key source m' →
            m.Reconciled parsers a P (some pa) m' := fun m' hm' =>
          ⟨hm'.holds, .inl ⟨pa, rfl, key, source, hc, hm'⟩⟩
        exact wp_mono (reconcileCustomPA_spec h (hP pa rfl key source hc) (hsound key) hnone hget hkey)
          (fun _ => hends) hends fun _ => hends
    show wp (match pa.scalingStrategy with
      | .hpa => ofExcept a.hpa
      | .kpa => reconcileCustomPA parsers a pa
      | .apa => reconcileCustomPA parsers a pa
      | .other _ => pure ()) (.always (m.Reconciled parsers a P (some pa))) m
    have hno : pa.scalingStrategy ≠ .kpa → pa.scalingStrategy ≠ .apa →
        m.Reconciled parsers a P (some pa) m := by
      intro hkpa hapa
      refine hskip fun pa' hpa' key source hc => ?_
      obtain rfl := Option.some.inj hpa'
      exact hc.strategy.elim hkpa hapa
    cases hstrategy : pa.scalingStrategy with
    | kpa => exact hcustom (.inl hstrategy)
    | apa => exact hcustom (.inr hstrategy)
    | hpa =>
      have hno := hno (by simp [hstrategy]) (by simp [hstrategy])
      exact wp_ofExcept (fun _ _ => hno) fun _ _ => hno
    | other text => exact wp_pure (hno (by simp [hstrategy]) (by simp [hstrategy]))

/-! ### Whole histories -/

namespace World

variable {w : World} {e : Event}

lemma kept_sound (pa : PodAutoscaler) (key : NamespaceNameMetric) :
    Kept parsers (fun _ x => x.Sound) pa key where
  new _ _ _ h := (Scaler.new_spec h).2
  update _ _ h hy := (Scaler.updateScalingContext_spec hy).2 h
  scale n observed now _ h := h.scale n observed now

lemma reconciled (request : NamespacedName) (a : Answers) (h : w.memory.Holds P)
    (hP : ∀ pa ∈ w.objects request, ∀ key source, pa.Custom key source → Kept parsers P pa key)
    (hsound : ∀ key x, P key x → x.Sound) :
    Memory.Reconciled parsers a P (w.objects request) { w.memory with computed := none }
      (w.step parsers (.reconcile request a)).memory := by
  have hfresh : Memory.Holds P { w.memory with computed := none } := h
  exact exec_of_wp (reconcile_spec hfresh hP hsound rfl)

/-- **When the named strategy is used**: exactly if the scaler that is kept is of its kind. -/
lemma usesNamed_iff (h : w.memory.Holds fun _ x => x.Sound) :
    w.UsesNamed parsers e ↔ w.Fits parsers e := by
  cases e with
  | edit | delete => exact .rfl
  | reconcile request a =>
    have hkept : ∀ pa ∈ w.objects request, ∀ key source, pa.Custom key source →
        Kept parsers (fun _ x => x.Sound) pa key := fun pa _ key _ _ => kept_sound pa key
    have hspec := reconciled request a h hkept fun _ _ => id
    rcases hspec.computed with ⟨pa, hpa, key, source, hc, hends⟩ | ⟨hnone, hno⟩
    · have hobject : ∀ pa' ∈ w.objects request, pa' = pa := fun pa' hpa' => Option.mem_unique hpa' hpa
      constructor
      · intro huses pa' hpa' _ key' source' hkey' x hx hadmits
        obtain rfl := hobject pa' hpa'
        rw [hc.key] at hkey'
        obtain ⟨rfl, rfl⟩ := Prod.mk.inj (Except.ok.inj hkey')
        obtain ⟨count, hcount⟩ := Option.isSome_iff_exists.mp ((hends.isSome x hx).mpr hadmits)
        obtain ⟨pa'', hpa'', hnamed⟩ := huses count hcount
        obtain rfl := hobject pa'' hpa''
        rw [← hnamed, hends.kind count hcount, Memory.kindFor,
          show w.memory.autoscalerMap key = some x from hx]
        rfl
      · intro hfits count hcount
        refine ⟨pa, hpa, ?_⟩
        rw [hends.kind count hcount]
        cases hstored : w.memory.autoscalerMap key with
        | none => simp [Memory.kindFor, hstored]
        | some x =>
          have hadmits := (hends.isSome x hstored).mp (Option.isSome_iff_exists.mpr ⟨count, hcount⟩)
          simpa [Memory.kindFor, hstored] using
            hfits pa hpa hc.strategy key source hc.key x hstored hadmits
    · constructor
      · intro _ pa hpa hstrategy key source hkey x _ hadmits
        exact absurd hadmits.get (hno pa hpa key source ⟨hstrategy, hkey⟩)
      · intro _ count hcount
        rw [hnone] at hcount
        exact absurd hcount (by simp)

/-- **One step** keeps what scalers have when they are made. -/
lemma holds_step (h : w.memory.Holds P)
    (hP : ∀ name, ∀ pa ∈ w.objects name, ∀ key source, pa.Custom key source → Kept parsers P pa key)
    (hsound : ∀ key x, P key x → x.Sound) : (w.step parsers e).memory.Holds P := by
  cases e with
  | edit | delete => exact h
  | reconcile request a => exact (reconciled request a h (hP request) hsound).holds

/-- Every object has the strategy that belongs to its name, and so do the scalers that were made
for it. -/
structure Settled (s : NamespacedName → ScalingStrategyType) (w : World) : Prop where
  objects : ∀ name, ∀ pa ∈ w.objects name, pa.scalingStrategy = s pa.namespacedName
  holds : w.memory.Holds fun key x => x.Sound ∧ x.strategy = s key.pa

lemma Settled.step {s : NamespacedName → ScalingStrategyType} (h : w.Settled s)
    (he : ∀ pa, e = .edit pa → pa.scalingStrategy = s pa.namespacedName) :
    (w.step parsers e).Settled s := by
  refine ⟨?_, holds_step h.holds (fun name pa hpa key source hc => ⟨?_, ?_, ?_⟩) fun _ _ hx => hx.1⟩
  · intro name pa hpa
    cases e with
    | edit pa' =>
      have hpa : (if name = pa'.namespacedName then some pa' else w.objects name) = some pa := hpa
      split at hpa
      · obtain rfl := Option.some.inj hpa
        exact he pa' rfl
      · exact h.objects name pa hpa
    | delete name' =>
      have hpa : (if name = name' then none else w.objects name) = some pa := hpa
      split at hpa
      · simp at hpa
      · exact h.objects name pa hpa
    | reconcile request a => exact h.objects name pa hpa
  · intro n now x hx
    obtain ⟨hstrategy, hsound⟩ := Scaler.new_spec hx
    exact ⟨hsound, by rw [hstrategy, newNamespaceNameMetric_pa hc.key, h.objects name pa hpa]⟩
  · intro x y hx hy
    obtain ⟨hstrategy, hsound⟩ := Scaler.updateScalingContext_spec hy
    exact ⟨hsound hx.1, hstrategy.trans hx.2⟩
  · intro n observed now x hx
    exact ⟨hx.1.scale _ _ _, (Scaler.strategy_scale _ _ _).trans hx.2⟩

end World

/-- **Every reconcile of a history uses the strategy that the object names** exactly if at every
reconcile that gets to a count the scaler that is kept under the key of the object, if there is
one, is of that kind.  So it is where an object never changes its strategy. -/
theorem uses_named_iff (parsers : Parsers) (es : List Event) :
    (Along (World.step parsers) (World.UsesNamed parsers) .start es ↔
      Along (World.step parsers) (World.Fits parsers) .start es) ∧
    ∀ s : NamespacedName → ScalingStrategyType,
      (∀ pa, Event.edit pa ∈ es → pa.scalingStrategy = s pa.namespacedName) →
      Along (World.step parsers) (World.UsesNamed parsers) .start es := by
  have hstart : World.start.memory.Holds fun _ x => x.Sound := fun _ _ hx => absurd hx (by
    simp [World.start])
  have hkeep : ∀ (w : World) (e : Event), w.memory.Holds (fun _ x => x.Sound) →
      (w.step parsers e).memory.Holds fun _ x => x.Sound := fun w e hw =>
    World.holds_step hw (fun _ pa _ key _ _ => World.kept_sound pa key) fun _ _ => id
  refine ⟨?_, fun s hs => ?_⟩
  · exact along_congr_of_invariant hstart hkeep fun w e hw => World.usesNamed_iff hw
  · have hedits : Along (World.step parsers)
        (fun _ e => ∀ pa, e = Event.edit pa → pa.scalingStrategy = s pa.namespacedName) .start es :=
      along_of_mem fun _ e he pa heq => hs pa (heq ▸ he)
    have hsettled : World.start.Settled s :=
      ⟨fun _ _ h => absurd h (by simp [World.start]), fun _ _ h => absurd h (by simp [World.start])⟩
    refine hedits.imp_of_invariant hsettled (fun w e hw he => hw.step he) fun w e hw _ => ?_
    refine (World.usesNamed_iff fun key x hx => (hw.holds key x hx).1).mpr ?_
    cases e with
    | edit | delete => trivial
    | reconcile request a =>
      intro pa hpa _ key source hkey x hx _
      rw [(hw.holds key x hx).2, newNamespaceNameMetric_pa hkey, hw.objects request pa hpa]

/-- Parsers that read every number as one, and every duration as zero. -/
def plainParsers : Parsers := ⟨fun _ => .ok 1, fun _ => .ok 1, fun _ => .ok 0⟩

def plainObject (strategy : ScalingStrategyType) : PodAutoscaler where
  namespacedName := ⟨"n", "a"⟩
  annotations := []
  scaleTargetRef := "d"
  minReplicas := none
  maxReplicas := 9
  metricsSources := [⟨.pod, "http", "m", "1"⟩]
  scalingStrategy := strategy

def plainAnswers : Answers :=
  ⟨.ok (), .ok (), .ok 2, .ok (), .ok (), .ok 2, ⟨some (1, 1), some 1⟩, .ok (), .ok (), 0⟩

/-- An object is edited to have the strategy, and reconciled. -/
def tryout (strategy : ScalingStrategyType) : List Event :=
  [.edit (plainObject strategy), .reconcile ⟨"n", "a"⟩ plainAnswers]

/-- After a switch from KPA to APA the count is still that of KPA.  APA asks for one replica. -/
theorem switched_uses_kpa :
    ((tryout .kpa ++ tryout .apa).foldl (World.step plainParsers) .start).memory.computed =
      some (.kpa, 2) ∧
    ((tryout .apa).foldl (World.step plainParsers) .start).memory.computed = some (.apa, 1) ∧
    ¬ Along (World.step plainParsers) (World.UsesNamed plainParsers) .start
      (tryout .kpa ++ tryout .apa) := by
  refine ⟨by decide +kernel, by decide +kernel, ?_⟩
  rintro ⟨-, -, -, huses, -⟩
  obtain ⟨pa, hpa, hnamed⟩ := huses (.kpa, 2) (by decide +kernel)
  obtain rfl := Option.some.inj hpa
  exact absurd hnamed (by decide)

/-- An object that stays with APA. -/
theorem uses_named_apa : Along (World.step plainParsers) (World.UsesNamed plainParsers) .start
      (tryout .apa ++ tryout .apa) :=
  (uses_named_iff plainParsers _).2 (fun _ => .apa) (by simp [tryout, plainObject])

end Lodestar.Autoscaler
