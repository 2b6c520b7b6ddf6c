import Lodestar.Routing.Preble

/-!
# The data of the gateway

The messages that Envoy sends and gets, the routing context and the timing record
of a request, the entries that the gateway keeps under a request ID, and the calls
by which a handler acts on what all streams share.  From `pkg/plugins/gateway/types.go`,
`gateway.go`, `pkg/types/router_context.go` and `pkg/utils`.

Decoding of JSON and of server-sent events, tokenization and the table of registered
routers are fields of `Server`, so that every result holds for all of them.
-/

namespace Lodestar.Gateway

open Indexer (Time Token NodeId)

/-! ### Decoded bodies -/

inductive Json where
  | null
  | bool (b : Bool)
  | num (n : ℚ)
  | str (s : String)
  | arr (values : List Json)
  | obj (fields : List (String × Json))

abbrev JsonMap := List (String × Json)

def JsonMap.get (m : JsonMap) (key : String) : Option Json :=
  (m.find? fun field => field.1 = key).map Prod.snd

structure CompletionUsage where
  promptTokens : ℤ := 0
  completionTokens : ℤ := 0
  totalTokens : ℤ := 0
  deriving DecidableEq

/-- What the gateway reads of `openai.ChatCompletionChunk`: the content of the delta
of each choice, and the usage. -/
structure ChatCompletionChunk where
  choices : List String := []
  usage : CompletionUsage := {}

/-- What the gateway reads of `openai.ChatCompletion`. -/
structure ChatCompletion where
  model : String := ""
  usage : CompletionUsage := {}

/-! ### Messages -/

/-- A header, with the text form and the raw form of its value. -/
structure HeaderValue where
  key : String
  value : String := ""
  rawValue : String := ""
  deriving DecidableEq

/-- A reply to Envoy.  The body of an immediate response is the JSON object with the
given message and code under `error`. -/
inductive ProcessingResponse where
  | empty
  | requestHeaders (setHeaders : List HeaderValue) (clearRouteCache : Bool)
  | requestBody (setHeaders : List HeaderValue)
  | responseHeaders (setHeaders : List HeaderValue) (clearRouteCache : Bool)
  | responseBody (setHeaders : List HeaderValue)
  | immediate (code : ℤ) (setHeaders : List HeaderValue) (message : String)
  deriving DecidableEq

def generateErrorResponse (statusCode : ℤ) (headers : List HeaderValue) (body : String) :
    ProcessingResponse :=
  .immediate statusCode (headers ++ [⟨"Content-Type", "application/json", ""⟩]) body

/-- The one error header that most error replies carry. -/
def errorHeader (key rawValue : String) : List HeaderValue := [⟨key, "", rawValue⟩]

/-! ### Users, pods and contexts -/

structure User where
  name : String := ""
  rpm : ℤ := 0
  tpm : ℤ := 0
  deriving DecidableEq

structure Pod where
  name : String
  podIP : String
  terminating : Bool := false
  ready : Bool := true
  deriving DecidableEq

def filterRoutablePods (pods : List Pod) : List Pod :=
  pods.filter fun pod => pod.podIP ≠ "" ∧ pod.terminating = false ∧ pod.ready = true

/-- `RoutingContext`.  The target pod is set once, by the router. -/
structure RoutingContext where
  algorithm : String
  subAlgorithm : String := ""
  targetGPU : String := ""
  iteration : ℤ := -2
  model : String
  message : String
  requestID : String
  targetPod : Option Pod := none
  deriving DecidableEq

namespace RoutingContext

def hasRouted (ctx : RoutingContext) : Bool := ctx.targetPod.isSome

/-- `TargetAddress`; it waits for ever where no target is set. -/
def targetAddress (ctx : RoutingContext) : Option String :=
  ctx.targetPod.map fun pod => pod.podIP ++ ":8000"

/-- `TargetAddressWithoutPort`; it waits for ever where no target is set. -/
def targetAddressWithoutPort (ctx : RoutingContext) : Option String := ctx.targetPod.map Pod.podIP

/-- `TargetName`; it waits for ever where no target is set. -/
def targetName (ctx : RoutingContext) : Option String := ctx.targetPod.map Pod.name

variable {ctx : RoutingContext} {pod : Pod} (h : ctx.targetPod = some pod)
include h

lemma targetAddress_eq : ctx.targetAddress = some (pod.podIP ++ ":8000") := by
  rw [targetAddress, h, Option.map_some]

lemma targetAddressWithoutPort_eq : ctx.targetAddressWithoutPort = some pod.podIP := by
  rw [targetAddressWithoutPort, h, Option.map_some]

lemma targetName_eq : ctx.targetName = some pod.name := by
  rw [targetName, h, Option.map_some]

end RoutingContext

/-- `RequestTiming`; a time that is not set yet is `none`. -/
structure RequestTiming where
  startTime : Time
  firstTokenTime : Option Time := none
  firstDecodeTokenTime : Option Time := none
  lastTokenTime : Option Time := none
  totalTokenCount : ℕ
  prefillTokenCount : ℕ
  decodeTokenCount : ℕ := 0
  isPrefill : Bool := true
  deriving DecidableEq

structure HeaderCache where
  subAlgorithm : String
  iteration : String
  targetGPU : String
  deriving DecidableEq

/-- What the maps of the gateway hold under one request ID: `utils.RequestTimings`,
the maps of the server and the package-level `requestBuffers`. -/
structure Entries where
  timing : Option RequestTiming := none
  routingContext : Option RoutingContext := none
  requestHeaders : Option HeaderCache := none
  streamingUsage : Option CompletionUsage := none
  requestBuffer : Option String := none
  packageBuffer : Option String := none
  statusCode : Option ℤ := none
  selectedPodIP : Option String := none

/-! ### Calls on shared state -/

inductive Counter where
  | requests
  | prefillRequests
  | prefillTokens
  | decodeRequests
  | decodeTokens
  deriving DecidableEq

/-- The line that is logged for a finished request, without the fields that come
from the metric snapshots. -/
structure LogMessage where
  requestID : String
  requestStartTime : ℤ
  requestEndTime : ℤ
  selectedpod : String
  ttft : ℤ
  avgTpot : ℤ
  totalDecodeTime : ℤ
  e2e : ℤ
  numInputTokens : ℤ
  numOutputTokens : ℤ
  numTotalTokens : ℤ
  iteration : ℤ
  subAlgorithm : String
  deriving DecidableEq

/-- A call on state that all streams share.  Each is atomic; between two of them the
other streams may make theirs. -/
inductive Op where
  | increment (counter : Counter) (podIP : String) (n : ℕ)
  | decrement (counter : Counter) (podIP : String) (n : ℕ)
  | decrementNewPrefillTokensForRequest (requestID podIP : String)
  | decrementMooncakeVirtualQueue (requestID : String)
  | addRequestCount (targetPod : Option Pod) (requestID model : String)
  | doneRequestCount (targetPod : Option Pod) (requestID model : String) (traceTerm : ℤ)
  | doneRequestTrace (targetPod : Option Pod) (requestID model : String)
      (promptTokens completionTokens traceTerm : ℤ)
  | prebleRoute (call : Routing.RouteCall)
  | prebleOnRequestComplete (requestID : String)
  | incrRPM (username : String)
  | incrTPM (user : User) (n : ℤ)
  | addRequestLogMessage (requestID : String) (logMessage : LogMessage)
  | removeLiveRequest (requestID : String)

/-- How a call of a handler ends: it returns, waits for ever, or panics. -/
inductive Outcome (α : Type) where
  | returned (a : α)
  | blocked
  | panicked

/-- A handler's run: the entries under the request ID afterwards, the calls it made
on shared state, and how it ended. -/
structure Handled (α : Type) where
  entries : Entries
  ops : List Op
  outcome : Outcome α

structure Server where
  /-- `json.Unmarshal` into a map. -/
  jsonMap : String → Except String JsonMap
  /-- `json.Marshal`. -/
  marshal : Json → Option String
  /-- `json.Unmarshal` into a chat completion. -/
  completion : String → Except String ChatCompletion
  /-- The events that the SSE decoder yields, and the error it stops with, if any. -/
  events : String → List ChatCompletionChunk × Option String
  /-- The tokens of a message; none where the tokenizer fails. -/
  tokenize : String → List Token
  /-- The registered routing strategies. -/
  routers : List String
  /-- The default strategy from the environment. -/
  defaultRoutingStrategy : Option String

end Lodestar.Gateway
