import Lodestar.Autoscaler.Window

/-!
# Scaling contexts

What an autoscaler reads from its `PodAutoscaler` object: `BaseScalingContext` of
`pkg/controller/podautoscaler/common/context.go` and the contexts of KPA and APA (`scaler/kpa.go`,
`scaler/apa.go`).  A context starts with defaults; the target value and the annotations of the
object replace them.  How a text is read as a number or as a duration is a parameter.
-/

namespace Lodestar.Autoscaler

open Indexer (Time)

/-! ### The object -/

inductive ScalingStrategyType where
  | hpa
  | kpa
  | apa
  | other (text : String)
  deriving DecidableEq

def ScalingStrategyType.text : ScalingStrategyType → String
  | .hpa => "HPA"
  | .kpa => "KPA"
  | .apa => "APA"
  | .other text => text

inductive MetricSourceType where
  | pod
  | domain
  | other (text : String)
  deriving DecidableEq

/-- `MetricSource`, without the address from which the metric is fetched. -/
structure MetricSource where
  metricSourceType : MetricSourceType
  protocolType : String
  targetMetric : String
  targetValue : String
  deriving DecidableEq

structure NamespacedName where
  space : String
  name : String
  deriving DecidableEq

/-- `PodAutoscaler`, without its status. -/
structure PodAutoscaler where
  namespacedName : NamespacedName
  annotations : List (String × String)
  /-- The name of the target. -/
  scaleTargetRef : String
  minReplicas : Option ℤ
  maxReplicas : ℤ
  metricsSources : List MetricSource
  scalingStrategy : ScalingStrategyType

def PodAutoscaler.getPaMetricSources (pa : PodAutoscaler) : Except String MetricSource :=
  match pa.metricsSources with
  | [source] => .ok source
  | _ => .error "for now we only support one MetricsSource"

/-- `strconv.ParseFloat`, `strconv.ParseInt` for 32 bits and `time.ParseDuration`. -/
structure Parsers where
  parseFloat : String → Except String ℚ
  parseInt : String → Except String ℤ
  parseDuration : String → Except String Time

/-! ### The contexts -/

structure BaseScalingContext where
  maxScaleUpRate : ℚ := 2
  maxScaleDownRate : ℚ := 2
  scalingMetric : String := "CPU"
  targetValue : ℚ := 30
  totalValue : ℚ := 100
  currentUsePerPod : ℚ := 0

structure KpaScalingContext extends BaseScalingContext where
  targetBurstCapacity : ℚ := 2
  activationScale : ℤ := 1
  panicThreshold : ℚ := 2
  stableWindow : Time := 60 * second
  panicWindow : Time := 10 * second
  scaleDownDelay : Time := 1800 * second

structure ApaScalingContext extends BaseScalingContext where
  upFluctuationTolerance : ℚ := 1 / 10
  downFluctuationTolerance : ℚ := 2 / 10
  window : Time := 60 * second

def autoscalingLabelPrefix : String := "autoscaling.aibrix.ai/"

def readAnnotations {γ : Type} (annotate : γ → String → String → Except String γ)
    (pa : PodAutoscaler) (spec : γ) : Except String γ :=
  pa.annotations.foldlM (fun spec entry => annotate spec entry.1 entry.2) spec

section

variable (parsers : Parsers)

def BaseScalingContext.annotate (b : BaseScalingContext) (key value : String) :
    Except String BaseScalingContext :=
  if key = autoscalingLabelPrefix ++ "max-scale-up-rate" then do
    pure { b with maxScaleUpRate := ← parsers.parseFloat value }
  else if key = autoscalingLabelPrefix ++ "max-scale-down-rate" then do
    pure { b with maxScaleDownRate := ← parsers.parseFloat value }
  else pure b

def BaseScalingContext.updateByPaTypes (b : BaseScalingContext) (pa : PodAutoscaler) :
    Except String BaseScalingContext := do
  let source ← pa.getPaMetricSources
  let targetValue ← parsers.parseFloat source.targetValue
  readAnnotations (annotate parsers) pa
    { b with scalingMetric := source.targetMetric, targetValue := targetValue }

def KpaScalingContext.annotate (k : KpaScalingContext) (key value : String) :
    Except String KpaScalingContext :=
  if key = "kpa." ++ autoscalingLabelPrefix ++ "target-burst-capacity" then do
    pure { k with targetBurstCapacity := ← parsers.parseFloat value }
  else if key = "kpa." ++ autoscalingLabelPrefix ++ "activation-scale" then do
    pure { k with activationScale := ← parsers.parseInt value }
  else if key = "kpa." ++ autoscalingLabelPrefix ++ "panic-threshold" then do
    pure { k with panicThreshold := ← parsers.parseFloat value }
  else if key = "kpa." ++ autoscalingLabelPrefix ++ "stable-window" then do
    pure { k with stableWindow := ← parsers.parseDuration value }
  else if key = "kpa." ++ autoscalingLabelPrefix ++ "panic-window" then do
    pure { k with panicWindow := ← parsers.parseDuration value }
  else if key = "kpa." ++ autoscalingLabelPrefix ++ "scale-down-delay" then do
    pure { k with scaleDownDelay := ← parsers.parseDuration value }
  else pure k

def newKpaScalingContextByPa (pa : PodAutoscaler) : Except String KpaScalingContext := do
  let spec : KpaScalingContext := {}
  let base ← spec.toBaseScalingContext.updateByPaTypes parsers pa
  readAnnotations (KpaScalingContext.annotate parsers) pa { spec with toBaseScalingContext := base }

def ApaScalingContext.annotate (a : ApaScalingContext) (key value : String) :
    Except String ApaScalingContext :=
  if key = "apa." ++ autoscalingLabelPrefix ++ "up-fluctuation-tolerance" then do
    pure { a with upFluctuationTolerance := ← parsers.parseFloat value }
  else if key = "apa." ++ autoscalingLabelPrefix ++ "down-fluctuation-tolerance" then do
    pure { a with downFluctuationTolerance := ← parsers.parseFloat value }
  else if key = "apa." ++ autoscalingLabelPrefix ++ "window" then do
    pure { a with window := ← parsers.parseDuration value }
  else pure a

def newApaScalingContextByPa (pa : PodAutoscaler) : Except String ApaScalingContext := do
  let spec : ApaScalingContext := {}
  let base ← spec.toBaseScalingContext.updateByPaTypes parsers pa
  readAnnotations (ApaScalingContext.annotate parsers) pa { spec with toBaseScalingContext := base }

end
end Lodestar.Autoscaler
