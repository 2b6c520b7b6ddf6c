import Lodestar.Gateway.Request

/-!
# The response handlers

`HandleResponseHeaders` (`gateway_rsp_headers.go`), `handleStreamingResponse`,
`calculateTimingMetrics` and `HandleResponseBody` (`gateway_rsp_body.go`).

`HandleResponseBody` is cut at the points where the source starts a new part:
the chunk is decoded and its tokens counted, the end of the stream is handled, the
usage is charged, the chunk is decoded a second time, and the reply is built.  A part
that returns early skips the ones behind it.
-/

namespace Lodestar.Gateway

open Indexer (Time)

/-! ### Response headers -/

/-- The codes of the `:status` headers. -/
def statusCodes (headers : List HeaderValue) : List ℤ :=
  (headers.filter fun h => h.key = ":status").map fun h => atoiValue h.rawValue

/-- `HandleResponseHeaders`: the reply, whether the status is an error, and the code
of the error. -/
def handleResponseHeaders (ctx : Option RoutingContext) (requestID : String)
    (headers : List HeaderValue) (e : Entries) : Handled (ProcessingResponse × Bool × ℤ) :=
  let codes := statusCodes headers
  let errors := codes.filter fun code => code ≠ 200
  let entries := { e with statusCode := codes.getLast?.or e.statusCode }
  let first : HeaderValue := ⟨"x-went-into-req-headers", "", "true"⟩
  let copied := headers.map fun h => (⟨h.key, "", h.rawValue⟩ : HeaderValue)
  let result (setHeaders : List HeaderValue) : ProcessingResponse × Bool × ℤ :=
    (.responseHeaders setHeaders true, !errors.isEmpty, errors.getLast?.getD 0)
  match ctx with
  | none => ⟨entries, [], .returned (result (first :: copied))⟩
  | some ctx =>
    match ctx.targetAddress with
    | none => ⟨e, [], .blocked⟩
    | some address => ⟨entries, [], .returned (result
        (first :: ⟨"target-pod", "", address⟩ :: ⟨"request-id", "", requestID⟩ :: copied))⟩

/-- **The response headers** leave only their status behind, and make no calls. -/
lemma handleResponseHeaders_spec (ctx : Option RoutingContext) (requestID : String)
    (headers : List HeaderValue) (e : Entries) :
    (∃ code, (handleResponseHeaders ctx requestID headers e).entries = { e with statusCode := code }) ∧
      (handleResponseHeaders ctx requestID headers e).ops = [] := by
  unfold handleResponseHeaders
  split
  · exact ⟨⟨_, rfl⟩, rfl⟩
  · split <;> exact ⟨⟨_, rfl⟩, rfl⟩

/-! ### Counters -/

section

variable (podIP : String)

def decrementNumInflightRequestsForPod : Op := .decrement .requests podIP 1

def decrementNumInflightPrefillRequestsForPod : Op :=
  .decrement .prefillRequests podIP 1

def decrementNumInflightPrefillTokensForPod (n : ℕ) : Op :=
  .decrement .prefillTokens podIP n

def incrementNumInflightDecodeRequestsForPod : Op :=
  .increment .decodeRequests podIP 1

def decrementNumInflightDecodeRequestsForPod : Op :=
  .decrement .decodeRequests podIP 1

def incrementNumInflightDecodeTokensForPod (n : ℕ) : Op :=
  .increment .decodeTokens podIP n

def decrementNumInflightDecodeTokensForPod (n : ℕ) : Op :=
  .decrement .decodeTokens podIP n

end

/-- The release of a request that ends before the end of its stream, by the phase
that its timing record shows. -/
def releaseOps (requestID podIP : String) (timing : RequestTiming) : List Op :=
  (match timing.firstTokenTime with
    | none => [decrementNumInflightPrefillRequestsForPod podIP,
        decrementNumInflightPrefillTokensForPod podIP timing.prefillTokenCount,
        .decrementNewPrefillTokensForRequest requestID podIP]
    | some _ => [decrementNumInflightDecodeRequestsForPod podIP,
        decrementNumInflightDecodeTokensForPod podIP timing.decodeTokenCount]) ++
    [decrementNumInflightRequestsForPod podIP, .decrementMooncakeVirtualQueue requestID]

/-! ### Streamed chunks -/

section

variable (requestID podIP : String) (now : Time)

/-- A token with content: the first one ends the prefill phase. -/
def onToken (timing : RequestTiming) : RequestTiming × List Op :=
  match timing.firstTokenTime with
  | none =>
    ({ timing with
        isPrefill := false
        decodeTokenCount := 1
        firstTokenTime := some now
        lastTokenTime := some now
        totalTokenCount := timing.totalTokenCount + 1 },
      [decrementNumInflightPrefillRequestsForPod podIP,
        decrementNumInflightPrefillTokensForPod podIP timing.prefillTokenCount,
        .decrementNewPrefillTokensForRequest requestID podIP,
        incrementNumInflightDecodeRequestsForPod podIP,
        incrementNumInflightDecodeTokensForPod podIP 1])
  | some _ =>
    ({ timing with
        firstDecodeTokenTime := timing.firstDecodeTokenTime.or (some now)
        decodeTokenCount := timing.decodeTokenCount + 1
        lastTokenTime := some now
        totalTokenCount := timing.totalTokenCount + 1 },
      [incrementNumInflightDecodeTokensForPod podIP 1])

def ChatCompletionChunk.hasContent (evt : ChatCompletionChunk) : Bool :=
  match evt.choices with
  | [] => false
  | content :: _ => content ≠ ""

def onEvents : List ChatCompletionChunk → RequestTiming → RequestTiming × List Op
  | [], timing => (timing, [])
  | evt :: evts, timing =>
    if evt.hasContent then
      let first := onToken requestID podIP now timing
      let rest := onEvents evts first.1
      (rest.1, first.2 ++ rest.2)
    else onEvents evts timing

end

/-- The white space of `strings.TrimSpace`. -/
def isSpace (c : Char) : Bool :=
  let n := c.toNat
  (0x09 ≤ n && n ≤ 0x0d) || n = 0x20 || n = 0x85 || n = 0xa0 || n = 0x1680 ||
    (0x2000 ≤ n && n ≤ 0x200a) || n = 0x2028 || n = 0x2029 || n = 0x202f || n = 0x205f || n = 0x3000

def trimSpace (line : List Char) : List Char :=
  ((line.dropWhile isSpace).reverse.dropWhile isSpace).reverse

def trimPrefix (line pre : List Char) : List Char :=
  if pre.isPrefixOf line then line.drop pre.length else line

/-- The conversion of a decoded number to `int64`. -/
def toInt64 (n : ℚ) : ℤ := n.num.tdiv n.den

def JsonMap.count (m : JsonMap) (key : String) : ℤ :=
  match m.get key with
  | some (.num n) => toInt64 n
  | _ => 0

def usageOfLine (s : Server) (line : List Char) : Option CompletionUsage :=
  let line := trimSpace line
  if ¬ "data:".toList.isPrefixOf line ∨ line = "data: [DONE]".toList then none
  else
    match s.jsonMap (String.ofList (trimPrefix line "data: ".toList)) with
    | .error _ => none
    | .ok chunk =>
      match chunk.object "usage" with
      | none => none
      | some m =>
        let usage : CompletionUsage :=
          ⟨m.count "prompt_tokens", m.count "completion_tokens", m.count "total_tokens"⟩
        if usage.promptTokens > 0 ∨ usage.completionTokens > 0 ∨ usage.totalTokens > 0 then
          some usage
        else none

/-- The last line of a chunk that reports a usage decides. -/
def usageOfChunk (s : Server) (body : String) : Option CompletionUsage :=
  (body.toList.splitOn '\n').reverse.findSome? (usageOfLine s)

/-- `handleStreamingResponse`: the usage, whether the stream is complete, and the
reply of a stream that cannot be decoded. -/
def handleStreamingResponse (s : Server) (now : Time) (requestID body : String) (e : Entries) :
    Handled (CompletionUsage × Bool × Option ProcessingResponse) :=
  let existingUsage := e.streamingUsage.getD {}
  let e := { e with streamingUsage := some existingUsage }
  match e.timing, e.routingContext with
  | none, _ => ⟨e, [], .returned (existingUsage, false, none)⟩
  | some _, none => ⟨e, [], .returned (existingUsage, false, none)⟩
  | some timing, some routerCtx =>
    match routerCtx.targetAddressWithoutPort with
    | none => ⟨e, [], .blocked⟩
    | some podIP =>
      let (timing, ops) := onEvents requestID podIP now (s.events body).1 timing
      let e := { e with timing := some timing }
      match (s.events body).2 with
      | some err =>
        ⟨{ e with timing := none }, ops ++ releaseOps requestID podIP timing, .returned
          (existingUsage, true,
            some (generateErrorResponse 500 (errorHeader "x-error-streaming" "true") err))⟩
      | none =>
        match usageOfChunk s body with
        | some newUsage =>
          ⟨{ e with streamingUsage := some newUsage }, ops, .returned (newUsage, false, none)⟩
        | none => ⟨e, ops, .returned (existingUsage, false, none)⟩

/-! ### The end of a stream -/

/-- What the gateway is told while a response body is handled: the clock, the metric
snapshots as headers, and the answers of the rate limiter. -/
structure ResponseEnv where
  now : Time
  /-- The clock when the latency is taken. -/
  finished : Time
  firstRequestStartTime : ℤ
  metricHeaders : List HeaderValue
  incrTPM : Except String ℤ
  incrTPMAgain : Except String ℤ

def milliseconds (d : Time) : ℤ := d.tdiv 1000000

def unixMicro (t : Time) : ℤ := t.tdiv 1000

/-- `calculateTimingMetrics` of a request with target `podIP`: the headers, the log
line and the calls made. -/
def calculateTimingMetrics (env : ResponseEnv) (timing : RequestTiming) (ctx : RoutingContext)
    (podIP : String) (stream : Bool) (usage : CompletionUsage) :
    List HeaderValue × LogMessage × List Op :=
  let ttftMs := match timing.firstTokenTime with
    | none => 0
    | some t => milliseconds (t - timing.startTime)
  let totalGenerationTimeMs := match timing.firstTokenTime with
    | none => 0
    | some t => milliseconds (env.now - t)
  let effectiveTokenCount : ℤ :=
    if stream ∧ timing.decodeTokenCount > 1 then timing.decodeTokenCount - 1
    else if usage.completionTokens > 1 then usage.completionTokens - 1
    else 0
  let avgTpotMs := if effectiveTokenCount > 0 then totalGenerationTimeMs.tdiv effectiveTokenCount
    else 0
  let e2e := milliseconds (env.finished - timing.startTime)
  ([⟨"x-timing-ttft-ms", "", toString ttftMs⟩, ⟨"x-timing-tpot-ms", "", toString avgTpotMs⟩,
      ⟨"x-timing-e2e-ms", "", toString e2e⟩] ++ env.metricHeaders,
    { requestID := ctx.requestID
      requestStartTime := unixMicro timing.startTime - env.firstRequestStartTime
      requestEndTime := unixMicro env.now - env.firstRequestStartTime
      selectedpod := podIP
      ttft := ttftMs
      avgTpot := avgTpotMs
      totalDecodeTime := totalGenerationTimeMs
      e2e := e2e
      numInputTokens := usage.promptTokens
      numOutputTokens := usage.completionTokens
      numTotalTokens := usage.totalTokens
      iteration := ctx.iteration
      subAlgorithm := ctx.subAlgorithm },
    [decrementNumInflightRequestsForPod podIP,
      decrementNumInflightDecodeTokensForPod podIP timing.decodeTokenCount,
      decrementNumInflightDecodeRequestsForPod podIP] ++
      if ctx.subAlgorithm = "scalable_rl_agent" then [.removeLiveRequest ctx.requestID] else [])

/-! ### Response bodies -/

structure ResponseBody where
  body : String
  endOfStream : Bool

/-- What `HandleResponseBody` gets besides the message. -/
structure ResponseCall where
  server : Server
  env : ResponseEnv
  ctx : RoutingContext
  msg : ResponseBody
  user : User
  rpm : ℤ
  model : String
  stream : Bool
  traceTerm : ℤ

/-- The local variables of `HandleResponseBody`, with the entries of the request and
the calls made so far. -/
structure Frame where
  entries : Entries
  ops : List Op := []
  usage : CompletionUsage := {}
  res : ChatCompletion := {}
  promptTokens : ℤ := 0
  completionTokens : ℤ := 0
  headers : List HeaderValue := []
  complete : Bool

/-- Where a part of `HandleResponseBody` leads: on to the next part, back to the
caller with a reply, or nowhere. -/
inductive Flow where
  | next (f : Frame)
  | reply (f : Frame) (resp : ProcessingResponse)
  | blocked (f : Frame)

def Flow.frame : Flow → Frame
  | .next f => f
  | .reply f _ => f
  | .blocked f => f

/-- The next part runs only if the one before goes on to it. -/
def Flow.andThen : Flow → (Frame → Flow) → Flow
  | .next f, k => k f
  | .reply f resp, _ => .reply f resp
  | .blocked f, _ => .blocked f

namespace ResponseCall

variable (c : ResponseCall)

def unmarshalFailed (err : String) : ProcessingResponse :=
  generateErrorResponse 500 (errorHeader "x-error-response-unmarshal" "true") err

def unknownResponse (content : String) : ProcessingResponse :=
  generateErrorResponse 500 (errorHeader "x-error-response-unknown" "true")
    (if content = "" then "unknown response" else content)

/-- A streamed chunk of a request with a timing record. -/
def decodeStreamed (f : Frame) : Flow :=
  match handleStreamingResponse c.server c.env.now c.ctx.requestID c.msg.body f.entries with
  | ⟨e, ops, .returned (usage, complete, none)⟩ =>
    .next { f with entries := e, ops := f.ops ++ ops, usage := usage, complete := complete }
  | ⟨e, ops, .returned (usage, complete, some resp)⟩ =>
    .reply { f with entries := e, ops := f.ops ++ ops, usage := usage, complete := complete } resp
  | ⟨e, ops, _⟩ => .blocked { f with entries := e, ops := f.ops ++ ops }

/-- A chunk of a response that is not streamed, of a request with a timing record. -/
def decodeBuffered (timing : RequestTiming) (f : Frame) : Flow :=
  let buffer := f.entries.requestBuffer.getD "" ++ c.msg.body
  let timing := if c.msg.endOfStream then
    { timing with firstTokenTime := timing.firstTokenTime.or (some c.env.now) } else timing
  let f := { f with entries := { f.entries with
    requestBuffer := some buffer, timing := some timing } }
  if c.msg.endOfStream = false then .reply f (.responseBody [])
  else
    let f := { f with entries := { f.entries with requestBuffer := none } }
    match c.server.completion buffer with
    | .error err => .reply { f with complete := true } (unmarshalFailed err)
    | .ok res =>
      if res.model = "" then .reply { f with complete := true, res := res } (unknownResponse buffer)
      else .next { f with res := res, usage := res.usage }

/-- The first part: the chunk is decoded for the timing record. -/
def decode (f : Frame) : Flow :=
  match f.entries.timing with
  | none => .next f
  | some timing => if c.stream then c.decodeStreamed f else c.decodeBuffered timing f

/-- The second part: at the end of the stream the request is released and logged. -/
def finish (f : Frame) : Flow :=
  match f.entries.timing with
  | none => .next f
  | some timing =>
    if c.msg.endOfStream = false then .next f
    else
      match c.ctx.targetAddressWithoutPort with
      | none => .blocked f
      | some podIP =>
        let (headers, logMessage, ops) :=
          calculateTimingMetrics c.env timing c.ctx podIP c.stream f.usage
        .next { f with
          headers := f.headers ++ headers
          ops := f.ops ++ ops ++ [.addRequestLogMessage c.ctx.requestID logMessage,
            .decrementMooncakeVirtualQueue c.ctx.requestID]
          entries := { f.entries with
            timing := none
            routingContext := none
            requestHeaders := none
            streamingUsage := none
            statusCode := none
            selectedPodIP := none } }

def limitHeaders (tpm : ℤ) : List HeaderValue :=
  [⟨"x-update-rpm", "", toString c.rpm⟩, ⟨"x-update-tpm", "", toString tpm⟩]

/-- The user is charged with `n` tokens; the frame has the new limits, or the call ends
with a reply. -/
def charge (answer : Except String ℤ) (n : ℤ) (f : Frame) : Flow :=
  if c.user.name = "" then .next f
  else
    let f := { f with ops := f.ops ++ [.incrTPM c.user n] }
    match answer with
    | .error err => .reply f (generateErrorResponse 500 (errorHeader "x-error-incr-tpm" "true") err)
    | .ok tpm => .next { f with headers := f.headers ++ c.limitHeaders tpm }

/-- The third part: the usage of the chunk completes the request. -/
def report (f : Frame) : Flow :=
  if f.usage.totalTokens ≤ 0 then .next f
  else
    let f := { f with
      complete := true
      promptTokens := f.usage.promptTokens
      completionTokens := f.usage.completionTokens }
    (c.charge c.env.incrTPM f.usage.totalTokens f).andThen fun f =>
      match c.ctx.targetAddress with
      | none => .blocked f
      | some address => .next { f with headers := f.headers ++
          [⟨"target-pod", "", address⟩, ⟨"request-id", "", c.ctx.requestID⟩] }

def usageOfEvents (usage : CompletionUsage) (evts : List ChatCompletionChunk) : CompletionUsage :=
  evts.foldl (fun usage evt => if evt.choices = [] then evt.usage else usage) usage

/-- The release after the second decoding of a chunk failed. -/
def releaseAgainOps (podIP : String) (timing : RequestTiming) : List Op :=
  (match timing.firstTokenTime with
    | some _ => [decrementNumInflightDecodeRequestsForPod podIP,
        decrementNumInflightDecodeTokensForPod podIP timing.decodeTokenCount]
    | none => [decrementNumInflightPrefillRequestsForPod podIP,
        decrementNumInflightPrefillTokensForPod podIP timing.prefillTokenCount]) ++
    [decrementNumInflightRequestsForPod podIP]

def decodeStreamedAgain (f : Frame) : Flow :=
  let (evts, err) := c.server.events c.msg.body
  let f := { f with usage := usageOfEvents f.usage evts }
  match err with
  | none => .next f
  | some err =>
    let resp := generateErrorResponse 500 (errorHeader "x-error-streaming" "true") err
    match f.entries.timing with
    | none => .reply { f with complete := true } resp
    | some timing =>
      let f := { f with entries := { f.entries with timing := none } }
      match c.ctx.targetAddressWithoutPort with
      | none => .blocked f
      | some podIP =>
        .reply { f with complete := true, ops := f.ops ++ releaseAgainOps podIP timing } resp

/-- The second decoding of a response that is not streamed, from a buffer of its own. -/
def decodeBufferedAgain (f : Frame) : Flow :=
  let buffer := f.entries.packageBuffer.getD "" ++ c.msg.body
  if c.msg.endOfStream = false then
    .reply { f with entries := { f.entries with packageBuffer := some buffer } } (.responseBody [])
  else
    let f := { f with entries := { f.entries with packageBuffer := none } }
    match c.server.completion buffer with
    | .error err => .reply { f with complete := true } (unmarshalFailed err)
    | .ok res =>
      if res.model = "" then
        .reply { f with complete := true, res := res } (unknownResponse c.msg.body)
      else .next { f with res := res, usage := res.usage }

/-- The fourth part: the chunk is decoded for the reply. -/
def decodeAgain (f : Frame) : Flow :=
  if c.stream then c.decodeStreamedAgain f else c.decodeBufferedAgain f

/-- The last part: the usage or the end of the stream completes the request. -/
def close (f : Frame) : Flow :=
  if f.usage.totalTokens = 0 then
    let f := if c.msg.endOfStream then { f with complete := true } else f
    .reply f (.responseBody f.headers)
  else
    let f := { f with
      complete := true
      promptTokens := f.usage.promptTokens
      completionTokens := f.usage.completionTokens }
    (c.charge c.env.incrTPMAgain f.res.usage.totalTokens f).andThen fun f =>
      match c.ctx.targetName, c.ctx.targetAddress with
      | some name, some address => .reply f (.responseBody (f.headers ++
          [⟨"target-pod", "", address⟩, ⟨"request-id", "", c.ctx.requestID⟩,
            ⟨"target-pod-name", "", name⟩]))
      | _, _ => .blocked f

/-- The parts of `HandleResponseBody` one after the other. -/
def body (f : Frame) : Flow :=
  ((((c.decode f).andThen c.finish).andThen c.report).andThen c.decodeAgain).andThen c.close

/-- `HandleResponseBody` with a routing context.  The call that is deferred in the
source records the completion. -/
def handle (hasCompleted : Bool) (e : Entries) : Handled (ProcessingResponse × Bool) :=
  match c.body { entries := e, complete := hasCompleted } with
  | .reply f resp =>
    let done := if hasCompleted = false ∧ f.complete = true then
      [Op.doneRequestTrace c.ctx.targetPod c.ctx.requestID c.model f.promptTokens f.completionTokens
        c.traceTerm] else []
    ⟨f.entries, f.ops ++ done, .returned (resp, f.complete)⟩
  | .next f => ⟨f.entries, f.ops, .blocked⟩
  | .blocked f => ⟨f.entries, f.ops, .blocked⟩

end ResponseCall
end Lodestar.Gateway
