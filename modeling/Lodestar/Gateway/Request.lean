import Lodestar.Gateway.Types

/-!
# The request handlers

`HandleRequestHeaders` (`gateway_req_headers.go`, with the limits of
`gateway_ratelimit.go`), `HandleRequestBody` (`gateway_req_body.go`), `selectTargetPod`
(`gateway.go`) and the helpers of `util.go`.  What a handler learns from Redis, from
the pod cache, from the clock and from a router comes in as an argument.
-/

namespace Lodestar.Gateway

open Indexer (Time NodeId)

/-! ### Headers -/

section

variable (headers : List HeaderValue)

/-- The raw value of the first header with the given name, in lower case. -/
def firstHeader (name : String) : Option String :=
  (headers.find? fun h => h.key.toLower = name).map HeaderValue.rawValue

def getRequestID : String :=
  (firstHeader headers "request-id").getD ""

def getSubAlgorithm : String :=
  (firstHeader headers "subalgorithm").getD ""

def getIteration : String :=
  (firstHeader headers "iteration").getD ""

def getTargetGPU : String :=
  (firstHeader headers "targetGPU").getD "NVIDIA-L20"

end

/-- `getRoutingStrategy`: the strategy, and whether one is asked for. -/
def getRoutingStrategy (s : Server) (headers : List HeaderValue) : String × Bool :=
  match firstHeader headers "routing-strategy" with
  | some strategy => (strategy, true)
  | none => (s.defaultRoutingStrategy.getD "", s.defaultRoutingStrategy.isSome)

def routerNotSet : String := ""

def validate (s : Server) (algorithm : String) : String × Bool :=
  if algorithm ∈ s.routers then (algorithm, true) else (routerNotSet, false)

/-! ### Rate limits -/

/-- What Redis answers while the headers of a request are handled; `none` where a
call fails. -/
structure HeadersEnv where
  getUser : Except String User
  getRPM : Option ℤ
  incrRPM : Option ℤ
  getTPM : Option ℤ

/-- `checkLimits`: the calls made, and the new RPM or the reply of a rejection. -/
def checkLimits (env : HeadersEnv) (user : User) : List Op × Except ProcessingResponse ℤ :=
  let rpmLimit := if user.rpm = 0 then 100 else user.rpm
  let tpmLimit := if user.tpm = 0 then (rpmLimit * 1000).bmod (2 ^ 64) else user.tpm
  let exceeded := errorHeader "x-error-rpm-exceeded" "true"
  match env.getRPM with
  | none => ([], .error (generateErrorResponse 500 exceeded ("fail to get RPM for user: " ++ user.name)))
  | some rpmCurrent =>
    if rpmCurrent ≥ rpmLimit then
      ([], .error (generateErrorResponse 429 exceeded
        ("user: " ++ user.name ++ " has exceeded RPM: " ++ toString rpmLimit)))
    else
      match env.incrRPM with
      | none => ([.incrRPM user.name], .error (generateErrorResponse 500
          (errorHeader "x-error-incr-rpm" "true") ("fail to increment RPM for user: " ++ user.name)))
      | some rpm =>
        let exceeded := errorHeader "x-error-tpm-exceeded" "true"
        match env.getTPM with
        | none => ([.incrRPM user.name], .error (generateErrorResponse 500 exceeded
            ("fail to get TPM for user: " ++ user.name)))
        | some tpmCurrent =>
          if tpmCurrent ≥ tpmLimit then
            ([.incrRPM user.name], .error (generateErrorResponse 429 exceeded
              ("user: " ++ user.name ++ " has exceeded TPM: " ++ toString tpmLimit)))
          else ([.incrRPM user.name], .ok rpm)

/-- The results of `HandleRequestHeaders`. -/
structure HeadersResult where
  resp : ProcessingResponse
  user : User
  rpm : ℤ
  routingAlgorithm : String

/-- The name in the last `user` header. -/
def getUsername (headers : List HeaderValue) : String :=
  (firstHeader headers.reverse "user").getD ""

def handleRequestHeaders (s : Server) (env : HeadersEnv) (headers : List HeaderValue)
    (e : Entries) : Handled HeadersResult :=
  let headerCache : HeaderCache :=
    ⟨getSubAlgorithm headers, getIteration headers, getTargetGPU headers⟩
  let e := { e with requestHeaders := some headerCache }
  let (routingStrategy, routingStrategyEnabled) := getRoutingStrategy s headers
  let (routingAlgorithm, ok) := validate s routingStrategy
  let accepted := ProcessingResponse.requestHeaders [⟨"x-went-into-req-headers", "", "true"⟩] true
  if routingStrategyEnabled ∧ ¬ ok then
    ⟨e, [], .returned ⟨generateErrorResponse 400
      (errorHeader "x-error-invalid-routing-strategy" routingStrategy) "incorrect routing strategy",
      {}, 0, routingAlgorithm⟩⟩
  else if getUsername headers = "" then ⟨e, [], .returned ⟨accepted, {}, 0, routingAlgorithm⟩⟩
  else
    match env.getUser with
    | .error msg => ⟨e, [], .returned ⟨generateErrorResponse 500 (errorHeader "x-error-user" "true") msg,
        {}, 0, routingAlgorithm⟩⟩
    | .ok user =>
      match checkLimits env user with
      | (ops, .error resp) => ⟨e, ops, .returned ⟨resp, {}, 0, routingAlgorithm⟩⟩
      | (ops, .ok rpm) => ⟨e, ops, .returned ⟨accepted, user, rpm, routingAlgorithm⟩⟩

lemma checkLimits_ops (env : HeadersEnv) (user : User) :
    ∀ op ∈ (checkLimits env user).1, ∃ username, op = .incrRPM username := by
  intro op ho
  unfold checkLimits at ho
  dsimp only at ho
  repeat' split at ho
  all_goals first
    | exact absurd ho List.not_mem_nil
    | exact ⟨_, List.mem_singleton.mp ho⟩

/-- **The request headers** are always answered; they are kept for the body, and at most one
request is counted. -/
lemma handleRequestHeaders_spec (s : Server) (env : HeadersEnv) (headers : List HeaderValue)
    (e : Entries) :
    (handleRequestHeaders s env headers e).entries = { e with
      requestHeaders := some ⟨getSubAlgorithm headers, getIteration headers, getTargetGPU headers⟩ } ∧
    (∀ op ∈ (handleRequestHeaders s env headers e).ops, ∃ username, op = .incrRPM username) ∧
    ∃ r, (handleRequestHeaders s env headers e).outcome = .returned r := by
  have hl := checkLimits_ops env
  unfold handleRequestHeaders
  dsimp only
  split
  · exact ⟨rfl, by simp, _, rfl⟩
  · split
    · exact ⟨rfl, by simp, _, rfl⟩
    · split
      · exact ⟨rfl, by simp, _, rfl⟩
      · rename_i user _
        have hl := hl user
        split <;> rename_i heq <;> rw [heq] at hl <;> exact ⟨rfl, hl, _, rfl⟩

/-! ### The request body -/

def JsonMap.string (m : JsonMap) (key : String) : Option String :=
  match m.get key with
  | some (.str s) => some s
  | _ => none

def JsonMap.bool (m : JsonMap) (key : String) : Option Bool :=
  match m.get key with
  | some (.bool b) => some b
  | _ => none

def JsonMap.object (m : JsonMap) (key : String) : Option JsonMap :=
  match m.get key with
  | some (.obj fields) => some fields
  | _ => none

/-- `validateStreamOptions`: the reply of a rejection. -/
def validateStreamOptions (user : User) (m : JsonMap) : Option ProcessingResponse :=
  if user.tpm = 0 then none
  else
    match m.object "stream_options" with
    | none => some (generateErrorResponse 500
        (errorHeader "x-error-no-stream-options" "stream options not set") "no stream option available")
    | some options =>
      if options.bool "include_usage" = some true then none
      else some (generateErrorResponse 500
        (errorHeader "x-error-no-stream-options-include-usage"
          "include usage for stream options not set") "no stream with usage option available")

def getRequestMessage (s : Server) (m : JsonMap) : Except ProcessingResponse String :=
  let messages := match m.get "messages" with
    | none | some (.str "") => m.get "prompt"
    | some v => some v
  let failed := generateErrorResponse 500 (errorHeader "x-error-request-body-processing" "true")
  match messages with
  | none => .error (failed "no messages/prompt in the request body")
  | some v =>
    match s.marshal v with
    | none => .error (failed "unable to marshal messages from request body")
    | some message => .ok message

def digits (cs : List Char) : Option ℤ :=
  if cs ≠ [] ∧ cs.all Char.isDigit then
    some (cs.foldl (fun (n : ℤ) c => 10 * n + (c.toNat - '0'.toNat : ℕ)) 0)
  else none

def signedDigits (s : String) : Option ℤ :=
  match s.toList with
  | '-' :: cs => (digits cs).map Neg.neg
  | '+' :: cs => digits cs
  | cs => digits cs

/-- `strconv.Atoi`; `none` where it reports an error. -/
def atoi (s : String) : Option ℤ :=
  (signedDigits s).filter fun n => -2 ^ 63 ≤ n ∧ n < 2 ^ 63

/-- The number that `strconv.Atoi` returns, whether or not it reports an error. -/
def atoiValue (s : String) : ℤ :=
  ((signedDigits s).map fun n => max (-2 ^ 63) (min n (2 ^ 63 - 1))).getD 0

/-- The routing context with the cached headers copied in. -/
def RoutingContext.withHeaders (ctx : RoutingContext) (cache : Option HeaderCache) :
    RoutingContext :=
  match cache with
  | none => { ctx with subAlgorithm := "", iteration := -3 }
  | some h => { ctx with
      subAlgorithm := h.subAlgorithm
      iteration := if h.iteration = "" then -3 else (atoi h.iteration).getD (-2)
      targetGPU := h.targetGPU }

/-- What a router other than Preble does with a request: it fails, never returns,
panics, or picks the ready pod at a position and sets it as the target. -/
inductive RouterAnswer where
  | error (message : String)
  | blocked
  | panicked
  | picked (i : ℕ)

/-- What the load histogram and the clock decide in a call of the Preble router. -/
structure PrebleChoice where
  pick : Option ℕ
  migrations : List (NodeId × String)
  insertTimes : ℕ → Time
  queryTimes : String → ℕ → Time
  now : Time

/-- What the gateway is told while the body of a request is handled. -/
structure BodyEnv where
  hasModel : Bool
  /-- The pods of the model, `none` where the lookup fails. -/
  pods : Option (List Pod)
  now : Time
  /-- The error of the provider of the router. -/
  providerError : Option String
  answer : RouterAnswer
  preble : PrebleChoice
  /-- The trace window that the request is counted in. -/
  term : ℤ

inductive Selection where
  | error (message : String)
  | blocked
  | panicked
  | target (pod : Pod)

def routerPrefixCacheAndLoad : String := "preble"

def prebleCall (s : Server) (choice : PrebleChoice) (ctx : RoutingContext) (readyPods : List Pod) :
    Routing.RouteCall where
  requestID := ctx.requestID
  model := ctx.model
  tokens := s.tokenize ctx.message
  readyPods := readyPods.map Pod.podIP
  pick := choice.pick
  migrations := choice.migrations
  insertTimes := choice.insertTimes
  queryTimes := choice.queryTimes
  now := choice.now

/-- What a call of the Preble router comes to.  It does not depend on the tree. -/
def prebleSelection (call : Routing.RouteCall) (readyPods : List Pod) : Selection :=
  if call.tokens = [] then .blocked
  else
    match call.pick.bind fun i => readyPods[i]? with
    | none => .error "no suitable pod found"
    | some pod => .target pod

/-- `selectTargetPod`: the calls made and the target. -/
def selectTargetPod (s : Server) (env : BodyEnv) (ctx : RoutingContext) (pods : List Pod) :
    List Op × Selection :=
  match env.providerError with
  | some message => ([], .error message)
  | none =>
    if pods = [] then ([], .error "no pods to forward request")
    else
      match filterRoutablePods pods with
      | [] => ([], .error "no ready pods available for fallback")
      | [pod] => ([], .target pod)
      | readyPods =>
        if ctx.algorithm = routerPrefixCacheAndLoad then
          let call := prebleCall s env.preble ctx readyPods
          ([.prebleRoute call], prebleSelection call readyPods)
        else
          match env.answer with
          | .error message => ([], .error message)
          | .blocked => ([], .blocked)
          | .panicked => ([], .panicked)
          | .picked i =>
            match readyPods[i]? with
            | none => ([], .error "no suitable pod found")
            | some pod => ([], .target pod)

def incrementNumInflightForPod (podIP : String) : Op := .increment .requests podIP 1

def incrementNumInflightPrefillRequestsForPod (podIP : String) : Op :=
  .increment .prefillRequests podIP 1

def incrementNumInflightPrefillTokensForPod (podIP : String) (n : ℕ) : Op :=
  .increment .prefillTokens podIP n

/-- The results of `HandleRequestBody`. -/
structure BodyResult where
  resp : ProcessingResponse
  model : String
  routingCtx : Option RoutingContext
  stream : Bool
  term : ℤ

/-- The part of `HandleRequestBody` that routes the request: the entries once the
request is set up, and the end of the call. -/
def routeRequest (s : Server) (env : BodyEnv) (ctx : RoutingContext) (pods : List Pod)
    (stream : Bool) (e : Entries) : Handled BodyResult :=
  let ctx := ctx.withHeaders e.requestHeaders
  let n := (s.tokenize ctx.message).length
  let timing : RequestTiming :=
    { startTime := env.now, totalTokenCount := n, prefillTokenCount := n }
  let e := { e with routingContext := some ctx, timing := some timing }
  match selectTargetPod s env ctx pods with
  | (ops, .blocked) => ⟨e, ops, .blocked⟩
  | (ops, .panicked) => ⟨e, ops, .panicked⟩
  | (ops, .error _) =>
    ⟨{ e with selectedPodIP := some "" }, ops, .returned
      ⟨generateErrorResponse 503 (errorHeader "x-error-routing" "true")
        "error on selecting target pod", ctx.model, some ctx, stream, 0⟩⟩
  | (ops, .target pod) =>
    -- the map holds a pointer to the context, so the target shows there too
    let ctx := { ctx with targetPod := some pod }
    let address := pod.podIP ++ ":8000"
    ⟨{ e with routingContext := some ctx, selectedPodIP := some address },
      ops ++ [incrementNumInflightForPod pod.podIP,
        incrementNumInflightPrefillRequestsForPod pod.podIP,
        incrementNumInflightPrefillTokensForPod pod.podIP n,
        .addRequestCount (some pod) ctx.requestID ctx.model],
      .returned ⟨.requestBody [⟨"routing-strategy", "", ctx.algorithm⟩, ⟨"target-pod", "", address⟩],
        ctx.model, some ctx, stream, env.term⟩⟩

def handleRequestBody (s : Server) (env : BodyEnv) (requestID body : String) (user : User)
    (routingAlgorithm : String) (e : Entries) : Handled BodyResult :=
  let reject (resp : ProcessingResponse) (model : String) (stream : Bool) : Handled BodyResult :=
    ⟨e, [], .returned ⟨resp, model, none, stream, 0⟩⟩
  match s.jsonMap body with
  | .error _ => reject (generateErrorResponse 500
      (errorHeader "x-error-request-body-processing" "true") "error processing request body") "" false
  | .ok m =>
    let model := (m.string "model").getD ""
    if model = "" then
      reject (generateErrorResponse 500 (errorHeader "x-error-no-model-in-request" "")
        "no model in request body") "" false
    else if env.hasModel = false then
      reject (generateErrorResponse 400 (errorHeader "x-error-no-model-backends" model)
        ("model " ++ model ++ " does not exist")) model false
    else
      let pods := env.pods.getD []
      if filterRoutablePods pods = [] then
        reject (generateErrorResponse 503 (errorHeader "x-error-no-model-backends" "true")
          ("error on getting pods for model " ++ model)) model false
      else
        let stream := (m.bool "stream").getD false
        match if stream then validateStreamOptions user m else none with
        | some resp => reject resp model stream
        | none =>
          if routingAlgorithm = routerNotSet then
            ⟨e, [.addRequestCount none requestID model], .returned
              ⟨.requestBody [⟨"model", "", model⟩], model, none, stream, env.term⟩⟩
          else
            match getRequestMessage s m with
            | .error resp =>
              let ctx : RoutingContext :=
                { algorithm := routingAlgorithm, model := model, message := "", requestID := requestID }
              ⟨e, [], .returned ⟨resp, model, some ctx, stream, 0⟩⟩
            | .ok message =>
              let ctx : RoutingContext :=
                { algorithm := routingAlgorithm, model := model, message := message,
                  requestID := requestID }
              routeRequest s env ctx pods stream e

/-! ### The cases of a request body -/

/-- How `HandleRequestBody` can end, by how far it gets. -/
inductive BodyCase (s : Server) (env : BodyEnv) (requestID routingAlgorithm : String) (e : Entries) :
    Handled BodyResult → Prop where
  | rejected (r : BodyResult) (h : r.routingCtx = none) :
      BodyCase s env requestID routingAlgorithm e ⟨e, [], .returned r⟩
  | notRouted (r : BodyResult) (model : String) (h : r.routingCtx = none)
      (halg : routingAlgorithm = routerNotSet) :
      BodyCase s env requestID routingAlgorithm e
        ⟨e, [.addRequestCount none requestID model], .returned r⟩
  | noMessage (r : BodyResult) (ctx : RoutingContext) (h : r.routingCtx = some ctx)
      (hid : ctx.requestID = requestID) (hp : ctx.targetPod = none) :
      BodyCase s env requestID routingAlgorithm e ⟨e, [], .returned r⟩
  | failed (r : BodyResult) (ctx : RoutingContext) (pods : List Pod) (e' : Entries) (ops : List Op)
      (message : String) (h : r.routingCtx = some ctx) (hid : ctx.requestID = requestID)
      (hp : ctx.targetPod = none) (hc : e'.routingContext = some ctx)
      (hsel : selectTargetPod s env ctx pods = (ops, .error message)) :
      BodyCase s env requestID routingAlgorithm e ⟨e', ops, .returned r⟩
  | blocked (ctx : RoutingContext) (pods : List Pod) (e' : Entries) (ops : List Op)
      (hid : ctx.requestID = requestID)
      (hsel : selectTargetPod s env ctx pods = (ops, .blocked)) :
      BodyCase s env requestID routingAlgorithm e ⟨e', ops, .blocked⟩
  | panicked (ctx : RoutingContext) (pods : List Pod) (e' : Entries) (ops : List Op)
      (hid : ctx.requestID = requestID)
      (hsel : selectTargetPod s env ctx pods = (ops, .panicked)) :
      BodyCase s env requestID routingAlgorithm e ⟨e', ops, .panicked⟩
  | routed (r : BodyResult) (ctx : RoutingContext) (pods : List Pod) (pod : Pod)
      (timing : RequestTiming) (e' : Entries) (ops : List Op) (hid : ctx.requestID = requestID)
      (h : r.routingCtx = some { ctx with targetPod := some pod }) (hmodel : r.model = ctx.model)
      (hc : e'.routingContext = some { ctx with targetPod := some pod })
      (ht : e'.timing = some timing) (hfirst : timing.firstTokenTime = none)
      (hsel : selectTargetPod s env ctx pods = (ops, .target pod)) :
      BodyCase s env requestID routingAlgorithm e ⟨e', ops ++ [incrementNumInflightForPod pod.podIP,
        incrementNumInflightPrefillRequestsForPod pod.podIP,
        incrementNumInflightPrefillTokensForPod pod.podIP timing.prefillTokenCount,
        .addRequestCount (some pod) ctx.requestID ctx.model], .returned r⟩

variable {s : Server} {env : BodyEnv} {e : Entries}

lemma routeRequest_cases (ctx : RoutingContext) (hp : ctx.targetPod = none) (pods : List Pod)
    (stream : Bool) (routingAlgorithm : String) :
    BodyCase s env ctx.requestID routingAlgorithm e (routeRequest s env ctx pods stream e) := by
  have hid : (ctx.withHeaders e.requestHeaders).requestID = ctx.requestID := by
    unfold RoutingContext.withHeaders
    split <;> rfl
  have hp' : (ctx.withHeaders e.requestHeaders).targetPod = none := by
    unfold RoutingContext.withHeaders
    split <;> exact hp
  unfold routeRequest
  dsimp only
  split
  · rename_i hsel
    exact .blocked _ pods _ _ hid hsel
  · rename_i hsel
    exact .panicked _ pods _ _ hid hsel
  · rename_i hsel
    exact .failed _ _ pods _ _ _ rfl hid hp' rfl hsel
  · rename_i hsel
    exact .routed _ _ pods _ { startTime := env.now, totalTokenCount := _, prefillTokenCount := _ }
      _ _ hid rfl rfl rfl rfl rfl hsel

lemma handleRequestBody_cases (requestID body : String) (user : User) (routingAlgorithm : String) :
    BodyCase s env requestID routingAlgorithm e
      (handleRequestBody s env requestID body user routingAlgorithm e) := by
  unfold handleRequestBody
  dsimp only
  split
  · exact .rejected _ rfl
  · split
    · exact .rejected _ rfl
    · split
      · exact .rejected _ rfl
      · split
        · exact .rejected _ rfl
        · split
          · exact .rejected _ rfl
          · split
            · rename_i halg
              exact .notRouted _ _ rfl halg
            · split
              · exact .noMessage _ _ rfl rfl rfl
              · rename_i message _
                exact routeRequest_cases ⟨routingAlgorithm, "", "", -2, _, message, requestID, none⟩
                  rfl _ _ _

variable {ctx : RoutingContext} {pods : List Pod} {ops : List Op}

lemma selectTargetPod_target {pod : Pod}
    (h : selectTargetPod s env ctx pods = (ops, .target pod)) : pod ∈ filterRoutablePods pods := by
  unfold selectTargetPod at h
  split at h
  · simp at h
  · split at h
    · simp at h
    · split at h
      · simp at h
      · rename_i hf
        rw [hf]
        simp only [Prod.mk.injEq, Selection.target.injEq] at h
        simp [h.2]
      · split at h
        · simp only [Prod.mk.injEq, prebleSelection] at h
          obtain ⟨-, h⟩ := h
          split at h
          · simp at h
          · split at h
            · simp at h
            · rename_i pod' hpick
              obtain ⟨i, -, hi⟩ := Option.bind_eq_some_iff.mp hpick
              simp only [Selection.target.injEq] at h
              exact h ▸ List.mem_of_getElem? hi
        · split at h
          · simp at h
          · simp at h
          · simp at h
          · split at h
            · simp at h
            · rename_i hi
              simp only [Prod.mk.injEq, Selection.target.injEq] at h
              exact h.2 ▸ List.mem_of_getElem? hi

lemma selectTargetPod_preble {selection : Selection}
    (h : selectTargetPod s env ctx pods = (ops, selection)) :
    ops = [] ∨ ∃ call : Routing.RouteCall, ops = [.prebleRoute call] ∧
      call.requestID = ctx.requestID ∧ (call.attached.isSome = true ↔ ∃ pod, selection = .target pod) := by
  unfold selectTargetPod at h
  split at h
  · simp_all
  · split at h
    · simp_all
    · split at h
      · simp_all
      · simp_all
      · rename_i hnil hone
        split at h
        · obtain ⟨rfl, rfl⟩ := h
          refine Or.inr ⟨_, rfl, rfl, ?_⟩
          have hlen : 2 ≤ (filterRoutablePods pods).length := by
            match hl : filterRoutablePods pods with
            | [] => exact absurd hl hnil
            | [pod] => exact absurd hl (hone pod)
            | a :: b :: l => simp
          unfold prebleSelection Routing.RouteCall.attached
          by_cases ht : (prebleCall s env.preble ctx (filterRoutablePods pods)).tokens = []
          · simp [ht]
          · rw [if_pos ⟨by simpa [prebleCall] using hlen, ht⟩, if_neg ht]
            simp only [prebleCall, Routing.RouteCall.target, List.getElem?_map]
            cases env.preble.pick with
            | none => simp
            | some k =>
              simp only [Option.bind_some]
              cases (filterRoutablePods pods)[k]? <;> simp
        · split at h
          · simp_all
          · simp_all
          · simp_all
          · split at h <;> simp_all

lemma selectTargetPod_ops {selection : Selection}
    (h : selectTargetPod s env ctx pods = (ops, selection)) :
    ∀ op ∈ ops, ∃ call : Routing.RouteCall, op = .prebleRoute call ∧
      call.requestID = ctx.requestID := by
  rcases selectTargetPod_preble h with rfl | ⟨call, rfl, hid, -⟩
  · simp
  · intro op ho
    exact ⟨call, List.mem_singleton.mp ho, hid⟩

lemma filterMap_selectTargetPod {α : Type*} {f : Op → Option α} {selection : Selection}
    (h : selectTargetPod s env ctx pods = (ops, selection))
    (hf : ∀ call, f (.prebleRoute call) = none) : ops.filterMap f = [] := by
  refine List.filterMap_eq_nil_iff.mpr fun op ho => ?_
  obtain ⟨call, rfl, -⟩ := selectTargetPod_ops h op ho
  exact hf call

end Lodestar.Gateway
