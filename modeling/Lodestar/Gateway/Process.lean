import Lodestar.Gateway.Response

/-!
# The message loop and the gateway as a whole

`Process` of `gateway.go` runs once for each stream: it takes the messages of the
stream one after the other and cleans up when it returns.  Several streams run at the
same time.  They share the in-flight counters of `pkg/utils/kvcache.go`, the prefix
tree of the Preble router and the maps by request ID.

A message takes effect on the variables of its stream and on the entries of its
request at once; the calls on shared state are queued and made one by one, and any
other stream may act between two of them.
-/

namespace Lodestar.Gateway

open Indexer

/-! ### Cleaning up -/

/-- `cleanupInflightCounters`, for a request with its target set. -/
def cleanupInflightCounters (ctx : RoutingContext) (e : Entries) : Entries × List Op :=
  match ctx.targetAddressWithoutPort, e.timing with
  | some podIP, some timing =>
    if podIP = "" then (e, [])
    else ({ e with timing := none }, releaseOps ctx.requestID podIP timing)
  | _, _ => (e, [])

/-- `cleanupPerRequestState`.  The timing record stays, for `cleanupInflightCounters`. -/
def cleanupPerRequestState (ctx : RoutingContext) (e : Entries) : Entries × List Op :=
  if ctx.requestID = "" then (e, [])
  else
    ({ timing := e.timing, packageBuffer := e.packageBuffer },
      (if ctx.subAlgorithm = "scalable_rl_agent" then [.removeLiveRequest ctx.requestID] else []) ++
        [.prebleOnRequestComplete ctx.requestID])

def cleanup (ctx : RoutingContext) (e : Entries) : Entries × List Op :=
  let first := cleanupInflightCounters ctx e
  let second := cleanupPerRequestState ctx first.1
  (second.1, first.2 ++ second.2)

/-! ### The loop of one stream -/

/-- A stream takes messages, has returned, or waits for ever. -/
inductive Status where
  | running
  | ended
  | blocked
  deriving DecidableEq

/-- The local variables of `Process`.  `ctx` is the loop's context where that is a
routing context. -/
structure Proc where
  user : User := {}
  rpm : ℤ := 0
  traceTerm : ℤ := 0
  respErrorCode : ℤ := 0
  model : String := ""
  routingAlgorithm : String := ""
  ctx : Option RoutingContext := none
  routerCtx : Option RoutingContext := none
  stream : Bool := false
  isRespError : Bool := false
  completed : Bool := false
  requestCounted : Bool := false
  inflightCleaned : Bool := false
  requestID : String := ""
  status : Status := .running

/-- A message of Envoy, with what the gateway is told while it handles it. -/
inductive Message where
  | requestHeaders (headers : List HeaderValue) (env : HeadersEnv)
  | requestBody (body : String) (env : BodyEnv)
  | responseHeaders (headers : List HeaderValue)
  | responseBody (msg : ResponseBody) (env : ResponseEnv)
  | unknown

abbrev Maps := String → Entries

/-- A stream after a message: its variables, the maps, the calls on shared state and
the reply. -/
structure Turn where
  proc : Proc
  maps : Maps
  ops : List Op
  outcome : Outcome ProcessingResponse

namespace Proc

variable (s : Server) (p : Proc) (maps : Maps)

def onRequestHeaders (headers : List HeaderValue) (env : HeadersEnv) : Turn :=
  let requestID := getRequestID headers
  let p := { p with requestID := requestID }
  let h := handleRequestHeaders s env headers (maps requestID)
  let maps := Function.update maps requestID h.entries
  match h.outcome with
  | .returned r =>
    ⟨{ p with user := r.user, rpm := r.rpm, routingAlgorithm := r.routingAlgorithm }, maps, h.ops,
      .returned r.resp⟩
  | .blocked => ⟨p, maps, h.ops, .blocked⟩
  | .panicked => ⟨p, maps, h.ops, .panicked⟩

/-- The variables after `HandleRequestBody` returned. -/
def afterBody (r : BodyResult) : Proc :=
  let p := { p with
    model := r.model, routerCtx := r.routingCtx, stream := r.stream, traceTerm := r.term }
  match r.routingCtx with
  | none => p
  | some ctx =>
    { p with ctx := some ctx, requestCounted := p.requestCounted || ctx.hasRouted }

def onRequestBody (body : String) (env : BodyEnv) : Turn :=
  let h := handleRequestBody s env p.requestID body p.user p.routingAlgorithm (maps p.requestID)
  let maps := Function.update maps p.requestID h.entries
  match h.outcome with
  | .returned r => ⟨p.afterBody r, maps, h.ops, .returned r.resp⟩
  | .blocked => ⟨p, maps, h.ops, .blocked⟩
  | .panicked => ⟨p, maps, h.ops, .panicked⟩

def onResponseHeaders (headers : List HeaderValue) : Turn :=
  match p.routerCtx with
  | none => ⟨p, maps, [], .panicked⟩
  | some routerCtx =>
    let requestID := routerCtx.requestID
    let h := handleResponseHeaders p.ctx requestID headers (maps requestID)
    let maps := Function.update maps requestID h.entries
    match h.outcome with
    | .returned (resp, isRespError, code) =>
      let p := { p with isRespError := isRespError, respErrorCode := code }
      -- an error is logged with the address of the target
      if isRespError ∧ routerCtx.hasRouted = false then ⟨p, maps, h.ops, .blocked⟩
      else ⟨p, maps, h.ops, .returned resp⟩
    | .blocked => ⟨p, maps, h.ops, .blocked⟩
    | .panicked => ⟨p, maps, h.ops, .panicked⟩

/-- A body of an upstream error: the request is cleaned up here. -/
def onErrorBody (msg : ResponseBody) : Turn :=
  match p.routerCtx with
  | none => ⟨p, maps, [], .panicked⟩
  | some ctx =>
    if ctx.hasRouted = false then ⟨p, maps, [], .blocked⟩
    else
      let resp := generateErrorResponse p.respErrorCode [] msg.body
      if p.inflightCleaned then ⟨p, maps, [], .returned resp⟩
      else
        let cleaned := cleanup ctx (maps ctx.requestID)
        ⟨{ p with inflightCleaned := true }, Function.update maps ctx.requestID cleaned.1, cleaned.2,
          .returned resp⟩

/-- The call of `HandleResponseBody`. -/
def responseCall (ctx : RoutingContext) (msg : ResponseBody) (env : ResponseEnv) : ResponseCall :=
  ⟨s, env, ctx, msg, p.user, p.rpm, p.model, p.stream, p.traceTerm⟩

/-- The variables and the reply after `HandleResponseBody` returned. -/
def afterResponse (maps : Maps) (resp : ProcessingResponse) (completed : Bool) :
    Proc × Outcome ProcessingResponse :=
  let q := { p with completed := completed }
  if p.completed = false ∧ completed = true then
    let q := { q with requestCounted := false }
    match p.routerCtx with
    | none => (q, .panicked)
    | some ctx =>
      ({ q with inflightCleaned := p.inflightCleaned || (maps ctx.requestID).timing.isNone },
        .returned resp)
  else (q, .returned resp)

def onResponseBody (msg : ResponseBody) (env : ResponseEnv) : Turn :=
  if p.isRespError then p.onErrorBody maps msg
  else
    match p.ctx with
    | none => ⟨p, maps, [], .returned (generateErrorResponse 500
        (errorHeader "X-Error-InvalidContext" "true") "invalid routing context")⟩
    | some ctx =>
      let h := (p.responseCall s ctx msg env).handle p.completed (maps ctx.requestID)
      let maps := Function.update maps ctx.requestID h.entries
      match h.outcome with
      | .returned (resp, completed) =>
        let after := p.afterResponse maps resp completed
        ⟨after.1, maps, h.ops, after.2⟩
      | .blocked => ⟨p, maps, h.ops, .blocked⟩
      | .panicked => ⟨p, maps, h.ops, .panicked⟩

def onMessage : Message → Turn
  | .requestHeaders headers env => p.onRequestHeaders s maps headers env
  | .requestBody body env => p.onRequestBody s maps body env
  | .responseHeaders headers => p.onResponseHeaders maps headers
  | .responseBody msg env => p.onResponseBody s maps msg env
  | .unknown => ⟨p, maps, [], .returned .empty⟩

/-- What the deferred function of `Process` cleans up of its request. -/
def cleanupAtExit (ctx : RoutingContext) (e : Entries) : Entries × List Op :=
  if ctx.hasRouted then if p.inflightCleaned then (e, []) else cleanup ctx e
  else cleanupPerRequestState ctx e

/-- The deferred function of `Process`: the maps afterwards and the calls made. -/
def exit : Maps × List Op :=
  match p.routerCtx with
  | none => (maps, [])
  | some ctx =>
    let cleaned := p.cleanupAtExit ctx (maps ctx.requestID)
    (Function.update maps ctx.requestID cleaned.1, cleaned.2 ++ if p.requestCounted then
        [.doneRequestCount ctx.targetPod ctx.requestID p.model p.traceTerm] else [])

end Proc

/-- The turn of the loop as seen from outside: a reply that cannot be sent and a panic
end the stream with its deferred function. -/
def Proc.receive (s : Server) (p : Proc) (maps : Maps) (msg : Message) (sendFails : Bool) :
    Proc × Maps × List Op :=
  let t := p.onMessage s maps msg
  let ends := match t.outcome with
    | .returned _ => sendFails
    | .panicked => true
    | .blocked => false
  if ends then
    let after := t.proc.exit t.maps
    ({ t.proc with status := .ended }, after.1, t.ops ++ after.2)
  else
    match t.outcome with
    | .blocked => ({ t.proc with status := .blocked }, t.maps, t.ops)
    | _ => (t.proc, t.maps, t.ops)

/-! ### The in-flight counters -/

/-- The counters of `kvcache.go`, each a map from pod to number. -/
abbrev Counters := Counter → String → Option ℤ

namespace Counters

section

variable (c : Counters) (counter : Counter) (podIP : String)

def value : ℤ := (c counter podIP).getD 0

def set (v : ℤ) : Counters :=
  Function.update c counter (Function.update (c counter) podIP (some v))

/-- The `Increment...ForPod` functions. -/
def increment (n : ℕ) : Counters :=
  c.set counter podIP (c.value counter podIP + n)

/-- The `Decrement...ForPod` functions: a pod without a value is skipped, and prefill
tokens are only taken off where there are enough. -/
def decrement (n : ℕ) : Counters :=
  match c counter podIP with
  | none => c
  | some v => if counter = .prefillTokens ∧ v < n then c else c.set counter podIP (v - n)

end
end Counters

/-! ### All streams -/

/-- A stream with the calls it still has to make and those it has made. -/
structure Stream where
  proc : Proc := {}
  pending : List Op := []
  performed : List Op := []

def Stream.Ended (t : Stream) : Prop := t.proc.status = .ended ∧ t.pending = []

/-- The gateway with the streams `ι`. -/
structure System (ι : Type*) where
  streams : ι → Stream
  maps : Maps
  counters : Counters
  preble : Routing.Router

/-- What can happen: a message arrives and its reply is sent or not, a stream is
cancelled or closed, a queued call is made, or the prefix tree evicts. -/
inductive Event (ι : Type*) where
  | receive (i : ι) (msg : Message) (sendFails : Bool)
  | stop (i : ι)
  | perform (i : ι)
  | evict (now : Time) (order : RangeOrder)

namespace System

variable {ι : Type*} [DecidableEq ι] (s : Server) (σ : System ι)

def start (counters : Counters) (preble : Routing.Router) : System ι :=
  ⟨fun _ => {}, fun _ => {}, counters, preble⟩

def countersAfter (c : Counters) : Op → Counters
  | .increment counter podIP n => c.increment counter podIP n
  | .decrement counter podIP n => c.decrement counter podIP n
  | _ => c

def prebleAfter (r : Routing.Router) : Op → Routing.Router
  | .prebleRoute call => (r.route call).2
  | .prebleOnRequestComplete requestID => r.prebleOnRequestComplete requestID
  | _ => r

/-- A stream acts only while it runs and all its calls are made. -/
def ready (t : Stream) : Bool := t.proc.status = .running ∧ t.pending.isEmpty

/-- The new variables of a stream, with the calls it queued. -/
def advance (i : ι) (p : Proc) (maps : Maps) (ops : List Op) : System ι :=
  { σ with
    streams := Function.update σ.streams i { σ.streams i with proc := p, pending := ops }
    maps := maps }

def perform (i : ι) : System ι :=
  match (σ.streams i).pending with
  | [] => σ
  | op :: ops =>
    { σ with
      streams := Function.update σ.streams i { σ.streams i with
        pending := ops, performed := (σ.streams i).performed ++ [op] }
      counters := countersAfter σ.counters op
      preble := prebleAfter σ.preble op }

/-- The gateway after an event; what cannot happen changes nothing. -/
def step : Event ι → System ι
  | .receive i msg sendFails =>
    if ready (σ.streams i) then
      let after := (σ.streams i).proc.receive s σ.maps msg sendFails
      σ.advance i after.1 after.2.1 after.2.2
    else σ
  | .stop i =>
    if ready (σ.streams i) then
      let after := (σ.streams i).proc.exit σ.maps
      σ.advance i { (σ.streams i).proc with status := .ended } after.1 after.2
    else σ
  | .perform i => σ.perform i
  | .evict now order => { σ with preble := { σ.preble with cache := σ.preble.cache.evict now order } }

def run (es : List (Event ι)) : System ι := es.foldl (step s) σ

/-- The request of stream `i` has the ID `ids i`: that is the ID in effect when its body
is handled. -/
def Named {ι : Type*} (ids : ι → String) (σ : System ι) : Event ι → Prop
  | .receive i (.requestBody _ _) _ =>
      ready (σ.streams i) = true → (σ.streams i).proc.requestID = ids i
  | _ => True

instance {ι : Type*} (ids : ι → String) (σ : System ι) : ∀ e : Event ι, Decidable (Named ids σ e)
  | .receive _ (.requestBody _ _) _ => by unfold Named; infer_instance
  | .receive _ (.responseBody _ _) _ | .receive _ (.requestHeaders _ _) _
  | .receive _ (.responseHeaders _) _ | .receive _ .unknown _ | .stop _ | .perform _
  | .evict _ _ => isTrue trivial

end System

/-! ### A small gateway

Two pods and a handful of bodies, for runs on fixed inputs.  The decoders are given by
what they yield on these bodies and events; an event ends with a blank line. -/

namespace Small

def chat : String := "\x7b\"model\":\"m\",\"messages\":\"hi\"\x7d"

def chatStreamed : String := "\x7b\"model\":\"m\",\"messages\":\"hi\",\"stream\":true\x7d"

def completion : String :=
  "\x7b\"model\":\"m\",\"usage\":\x7b\"prompt_tokens\":2,\"completion_tokens\":1,\"total_tokens\":3\x7d\x7d"

def token : String := "\x7b\"choices\":[\x7b\"delta\":\x7b\"content\":\"hello\"\x7d\x7d]\x7d"

def usage : String :=
  "\x7b\"choices\":[],\"usage\":\x7b\"prompt_tokens\":2,\"completion_tokens\":1,\"total_tokens\":3\x7d\x7d"

def done : String := "data: [DONE]\n\n"

def chunk (event : String) : String := "data: " ++ event ++ "\n\n"

/-- A chunk with one event, without a space behind the colon. -/
def chunkTight (event : String) : String := "data:" ++ event ++ "\n\n"

def usageMap : Json :=
  .obj [("prompt_tokens", .num 2), ("completion_tokens", .num 1), ("total_tokens", .num 3)]

/-- The texts up to the blank lines; `read` is the current one, backwards. -/
def blocks (read : List Char) : List Char → List (List Char)
  | '\n' :: '\n' :: rest => read.reverse :: blocks [] rest
  | c :: rest => blocks (c :: read) rest
  | [] => []

def eventOf (block : List Char) : Option ChatCompletionChunk :=
  if block = ("data: " ++ token).toList ∨ block = ("data:" ++ token).toList then some ⟨["hello"], {}⟩
  else if block = ("data: " ++ usage).toList ∨ block = ("data:" ++ usage).toList then
    some ⟨[], ⟨2, 1, 3⟩⟩
  else none

def server : Server where
  jsonMap body :=
    if body = chat then .ok [("model", .str "m"), ("messages", .str "hi")]
    else if body = chatStreamed then
      .ok [("model", .str "m"), ("messages", .str "hi"), ("stream", .bool true)]
    else if body = token then
      .ok [("choices", .arr [.obj [("delta", .obj [("content", .str "hello")])]])]
    else if body = usage then .ok [("choices", .arr []), ("usage", usageMap)]
    else if body = completion then .ok [("model", .str "m"), ("usage", usageMap)]
    else .error "invalid character"
  marshal _ := some "\"hi\""
  completion body :=
    if body = completion then .ok ⟨"m", ⟨2, 1, 3⟩⟩ else .error "unexpected end of JSON input"
  events body := ((blocks [] body.toList).filterMap eventOf, none)
  tokenize _ := [1, 2]
  routers := ["random", "preble"]
  defaultRoutingStrategy := none

def pods : List Pod := [{ name := "p", podIP := "10.0.0.1" }, { name := "q", podIP := "10.0.0.2" }]

def counters : Counters := fun _ _ => none

variable {ι : Type*} (i : ι)

/-- A stream makes the next `n` of its queued calls. -/
def performs (n : ℕ) : List (Event ι) := List.replicate n (.perform i)

/-- The headers of a request; `strategy` has the header of the routing strategy, if there
is one. -/
def headers (requestID : String) (strategy : List HeaderValue) : Event ι :=
  .receive i (.requestHeaders (⟨"request-id", "", requestID⟩ :: strategy)
    ⟨.ok {}, some 0, some 1, some 0⟩) false

def strategy (name : String) : List HeaderValue := [⟨"routing-strategy", "", name⟩]

/-- The body of a request; the router picks the first pod. -/
def request (body : String) : Event ι :=
  .receive i (.requestBody body { hasModel := true, pods := some pods, now := 0, providerError := none
                                  answer := .picked 0, term := 0
                                  preble := ⟨some 0, [], fun _ => 0, fun _ _ => 0, 0⟩ }) false

def response (body : String) (endOfStream : Bool) : Event ι :=
  .receive i (.responseBody ⟨body, endOfStream⟩ ⟨1, 1, 0, [], .ok 0, .ok 0⟩) false

end Small

/-! ### The headers in the routing context -/

/-- The routing context has what the headers say, whose names may be in any letter case, or the
defaults. -/
structure RoutingContext.Reads (ctx : RoutingContext) (headers : List HeaderValue) : Prop where
  subAlgorithm : ctx.subAlgorithm = (firstHeader headers "subalgorithm").getD ""
  iteration : ctx.iteration = let value := (firstHeader headers "iteration").getD ""
    if value = "" then -3 else (atoi value).getD (-2)
  targetGPU : ctx.targetGPU = (firstHeader headers "targetgpu").getD "NVIDIA-L20"

/-- No name in lower case is the one with a capital letter. -/
lemma getTargetGPU_eq (headers : List HeaderValue) : getTargetGPU headers = "NVIDIA-L20" := by
  have hnone : firstHeader headers "targetGPU" = none := by
    refine Option.map_eq_none_iff.mpr (List.find?_eq_none.mpr fun h _ heq => ?_)
    have hmem : 'G' ∈ h.key.toLower.toList := by
      rw [decide_eq_true_iff.mp heq]
      decide
    rw [String.toLower, String.toList_map] at hmem
    obtain ⟨c, -, hc⟩ := List.mem_map.mp hmem
    have hupper := Char.isUpper_toLower_eq_false c
    rw [hc] at hupper
    exact absurd hupper (by decide)
  rw [getTargetGPU, hnone]
  rfl

variable {s : Server} {env : BodyEnv} {requestID body : String} {user : User} {alg : String}
  {e : Entries} {ctx : RoutingContext}

lemma routingContext_handleRequestBody
    (h : (handleRequestBody s env requestID body user alg e).entries.routingContext = some ctx)
    (hfresh : e.routingContext = none) :
    ∃ (ctx₀ : RoutingContext) (pod : Option Pod),
      ctx = { ctx₀.withHeaders e.requestHeaders with targetPod := pod } := by
  unfold handleRequestBody at h
  dsimp only at h
  repeat' split at h
  all_goals first
    | exact absurd (hfresh.symm.trans h) (by simp)
    | skip
  unfold routeRequest at h
  dsimp only at h
  split at h <;> exact ⟨_, _, (Option.some.inj h).symm⟩

/-- **The routing context has what the headers say exactly if** no other GPU than the default is
asked for. -/
theorem context_reads_iff {henv : HeadersEnv} {headers : List HeaderValue}
    (hfresh : e.routingContext = none)
    (h : (handleRequestBody s env requestID body user alg
      (handleRequestHeaders s henv headers e).entries).entries.routingContext = some ctx) :
    ctx.Reads headers ↔ ∀ gpu ∈ firstHeader headers "targetgpu", gpu = "NVIDIA-L20" := by
  rw [(handleRequestHeaders_spec s henv headers e).1] at h
  obtain ⟨ctx₀, pod, rfl⟩ := routingContext_handleRequestBody h hfresh
  have hgpu : "NVIDIA-L20" = (firstHeader headers "targetgpu").getD "NVIDIA-L20" ↔
      ∀ gpu ∈ firstHeader headers "targetgpu", gpu = "NVIDIA-L20" := by
    cases firstHeader headers "targetgpu" <;> simp [eq_comm]
  rw [← hgpu]
  constructor
  · intro hreads
    exact (getTargetGPU_eq headers).symm.trans hreads.targetGPU
  · intro heq
    exact ⟨rfl, rfl, (getTargetGPU_eq headers).trans heq⟩

/-- What a request with the headers, on two pods, leaves as its context. -/
def routedContext (headers : List HeaderValue) : Option RoutingContext :=
  let env : BodyEnv := { hasModel := true, pods := some Small.pods, now := 0, providerError := none
                         answer := .picked 0, term := 0
                         preble := ⟨none, [], fun _ => 0, fun _ _ => 0, 0⟩ }
  let e := (handleRequestHeaders Small.server ⟨.ok {}, some 0, some 1, some 0⟩ headers {}).entries
  (handleRequestBody Small.server env "r" Small.chat {} "random" e).entries.routingContext

theorem context_reads_default : ∃ ctx, routedContext [⟨"Iteration", "", "4"⟩] = some ctx ∧
    ctx.Reads [⟨"Iteration", "", "4"⟩] := by
  obtain ⟨ctx, hctx⟩ := Option.isSome_iff_exists.mp
    (show (routedContext [⟨"Iteration", "", "4"⟩]).isSome = true by decide +kernel)
  exact ⟨ctx, hctx, (context_reads_iff rfl hctx).mpr (by decide +kernel)⟩

/-- A client asks for another GPU, and the router does not see it. -/
theorem targetGPU_unseen :
    firstHeader [⟨"targetGPU", "", "Tesla-V100"⟩] "targetgpu" = some "Tesla-V100" ∧
      (routedContext [⟨"targetGPU", "", "Tesla-V100"⟩]).map RoutingContext.targetGPU =
        some "NVIDIA-L20" := by
  decide +kernel

end Lodestar.Gateway
