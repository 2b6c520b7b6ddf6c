import Lodestar.Gateway.Calls

/-!
# A request and its response

One stream on its own: the headers and the body of a request, the headers of its response,
and the body of the response in any number of messages, the last of which ends the stream.

* `Proc.Reaches` : a stream answers some messages and goes on.
-/

namespace Lodestar.Gateway

/-! ### A stream on its own -/

namespace Proc

/-- The calls of a stream that takes the given messages and is then closed, while no other
stream uses its request ID. -/
def calls (s : Server) : Proc → Maps → List Message → List Op
  | p, maps, [] => (p.exit maps).2
  | p, maps, msg :: msgs =>
    let after := p.receive s maps msg false
    after.2.2 ++ if after.1.status = .running then calls s after.1 after.2.1 msgs else []

/-- The replies of such a stream, one for each message. -/
def replies (s : Server) : Proc → Maps → List Message → List (Outcome ProcessingResponse)
  | _, _, [] => []
  | p, maps, msg :: msgs =>
    let after := p.receive s maps msg false
    (p.onMessage s maps msg).outcome ::
      if after.1.status = .running then replies s after.1 after.2.1 msgs else []

/-- The variables of a stream and the maps after the given messages. -/
def after (s : Server) (p : Proc) (maps : Maps) (msgs : List Message) : Proc × Maps :=
  msgs.foldl (fun σ msg =>
    let next := σ.1.receive s σ.2 msg false
    (next.1, next.2.1)) (p, maps)

/-- The stream answers the messages, makes the calls `ops` and goes on as `q`. -/
inductive Reaches (s : Server) : Proc → Maps → List Message → List Op → Proc → Maps → Prop where
  | nil (p : Proc) (maps : Maps) : Reaches s p maps [] [] p maps
  | cons {p q r : Proc} {maps maps' maps'' : Maps} {msg : Message} {msgs : List Message}
      {ops ops' : List Op} {resp : ProcessingResponse}
      (h : p.onMessage s maps msg = ⟨q, maps', ops, .returned resp⟩) (hq : q.status = .running)
      (rest : Reaches s q maps' msgs ops' r maps'') :
      Reaches s p maps (msg :: msgs) (ops ++ ops') r maps''

/-- The stream waits for the body of a response to its routed request. -/
structure Waits (ctx : RoutingContext) (p : Proc) : Prop where
  status : p.status = .running
  ctx_eq : p.ctx = some ctx
  routerCtx_eq : p.routerCtx = some ctx
  isRespError : p.isRespError = false
  routed : ∃ pod, ctx.targetPod = some pod

def SameCharge (p q : Proc) : Prop := q.user = p.user ∧ q.stream = p.stream

variable {s : Server} {p q r : Proc} {maps maps' maps'' : Maps} {msgs msgs' : List Message}
  {ops ops' : List Op} {ctx : RoutingContext}

lemma receive_of_returned {msg : Message} {resp : ProcessingResponse}
    (h : p.onMessage s maps msg = ⟨q, maps', ops, .returned resp⟩) :
    p.receive s maps msg false = (q, maps', ops) := by
  simp [receive, h]

lemma receive_routerCtx (p : Proc) (maps : Maps) (msg : Message) (sendFails : Bool) :
    (p.receive s maps msg sendFails).1.routerCtx = (p.onMessage s maps msg).proc.routerCtx := by
  rcases receive_cases s p maps msg sendFails with h | ⟨-, h⟩ | h <;> rw [h]

section

variable (h : Reaches s p maps msgs ops q maps')
include h

lemma Reaches.trans (h' : Reaches s q maps' msgs' ops' r maps'') :
    Reaches s p maps (msgs ++ msgs') (ops ++ ops') r maps'' := by
  induction h with
  | nil => exact h'
  | cons hmsg hq _ ih =>
    rw [List.append_assoc]
    exact .cons hmsg hq (ih h')

lemma Reaches.calls (rest : List Message) :
    p.calls s maps (msgs ++ rest) = ops ++ q.calls s maps' rest := by
  induction h with
  | nil => rfl
  | cons hmsg hq _ ih =>
    rw [List.cons_append, Proc.calls, receive_of_returned hmsg, List.append_assoc, ← ih]
    rw [if_pos hq]

lemma Reaches.replies :
    ∃ answers, ∀ rest, p.replies s maps (msgs ++ rest) = answers ++ q.replies s maps' rest := by
  induction h with
  | nil => exact ⟨[], fun rest => rfl⟩
  | @cons _ _ _ _ _ _ _ _ _ _ resp hmsg hq _ ih =>
    obtain ⟨answers, ih⟩ := ih
    refine ⟨.returned resp :: answers, fun rest => ?_⟩
    rw [List.cons_append, Proc.replies, receive_of_returned hmsg, hmsg, List.cons_append, ← ih]
    rw [if_pos hq]

end

lemma afterResponse_waits (h : p.Waits ctx) (maps : Maps) (resp : ProcessingResponse)
    (completed : Bool) : (p.afterResponse maps resp completed).1.Waits ctx ∧
      p.SameCharge (p.afterResponse maps resp completed).1 ∧
      (p.afterResponse maps resp completed).1.completed = completed ∧
      (p.afterResponse maps resp completed).2 = .returned resp := by
  obtain ⟨h₁, h₂, h₃, h₄, h₅⟩ := h
  unfold afterResponse
  split
  · rw [h₃]
    exact ⟨⟨h₁, h₂, rfl, h₄, h₅⟩, ⟨rfl, rfl⟩, rfl, rfl⟩
  · exact ⟨⟨h₁, h₂, h₃, h₄, h₅⟩, ⟨rfl, rfl⟩, rfl, rfl⟩

lemma Waits.onMessage (h : p.Waits ctx) {msg : ResponseBody} {env : ResponseEnv} {e : Entries}
    {resp : ProcessingResponse} {completed : Bool}
    (hhandle : (p.responseCall s ctx msg env).handle p.completed (maps ctx.requestID) =
      ⟨e, ops, .returned (resp, completed)⟩) :
    ∃ q, p.onMessage s maps (.responseBody msg env) =
        ⟨q, Function.update maps ctx.requestID e, ops, .returned resp⟩ ∧
      q.Waits ctx ∧ p.SameCharge q ∧ q.completed = completed := by
  obtain ⟨hq, hsame, hcompleted, hout⟩ :=
    afterResponse_waits h (Function.update maps ctx.requestID e) resp completed
  refine ⟨_, ?_, hq, hsame, hcompleted⟩
  simp only [Proc.onMessage, onResponseBody, h.isRespError, h.ctx_eq, hhandle, ← hout]
  rfl

/-- The messages of a response: its body in chunks, the last of which ends the stream. -/
def responseMessages (chunks : List (String × ResponseEnv)) (last : String × ResponseEnv) :
    List Message :=
  chunks.map (fun chunk => .responseBody ⟨chunk.1, false⟩ chunk.2) ++
    [.responseBody ⟨last.1, true⟩ last.2]

def bodies (chunks : List (String × ResponseEnv)) (last : String × ResponseEnv) : List String :=
  chunks.map Prod.fst ++ [last.1]

end Proc

/-! ### The request before -/

def Entries.Fresh (e : Entries) : Prop :=
  e.streamingUsage = none ∧ e.requestBuffer = none ∧ e.packageBuffer = none

def Entries.Unstarted (e : Entries) : Prop :=
  ∃ timing, e.timing = some timing ∧ timing.firstTokenTime = none ∧ timing.decodeTokenCount = 0

def Op.OfRequest : Op → Prop
  | .incrRPM _ => True
  | .prebleRoute _ => True
  | .increment _ _ _ => True
  | .addRequestCount _ _ _ => True
  | _ => False

variable {s : Server} {e : Entries}

/-- If the request gets a target, its timing record is new and nothing is kept of a
response. -/
def Handled.StartsFresh (h : Handled BodyResult) : Prop :=
  ∀ r ctx, h.outcome = .returned r → r.routingCtx = some ctx → ctx.hasRouted = true →
    h.entries.Fresh ∧ h.entries.Unstarted

lemma handleRequestBody_startsFresh (h : e.Fresh) (env : BodyEnv) (requestID body : String)
    (user : User) (routingAlgorithm : String) :
    (handleRequestBody s env requestID body user routingAlgorithm e).StartsFresh := by
  have hreject (ops : List Op) (resp : ProcessingResponse) (model : String) (stream : Bool)
      (term : ℤ) : (⟨e, ops, .returned ⟨resp, model, none, stream, term⟩⟩ :
        Handled BodyResult).StartsFresh := by
    intro r ctx hret hctx
    obtain rfl := Outcome.returned.inj hret
    simp at hctx
  unfold handleRequestBody
  dsimp only
  split
  · exact hreject _ _ _ _ _
  · split
    · exact hreject _ _ _ _ _
    · split
      · exact hreject _ _ _ _ _
      · split
        · exact hreject _ _ _ _ _
        · split
          · exact hreject _ _ _ _ _
          · split
            · exact hreject _ _ _ _ _
            · split
              · intro r ctx hret hctx hr
                obtain rfl := Outcome.returned.inj hret
                obtain rfl := Option.some.inj hctx
                simp [RoutingContext.hasRouted] at hr
              · unfold routeRequest
                dsimp only
                split <;> exact fun _ _ _ _ _ => ⟨h, _, rfl, rfl, rfl⟩

namespace Proc

variable {p : Proc} {maps : Maps} {ctx : RoutingContext}

/-- What a routed request leaves behind for its response. -/
structure Arrived (ctx : RoutingContext) (e : Entries) : Prop where
  timing : e.timing.isSome = true
  routingContext : e.routingContext = some ctx
  fresh : e.Fresh

attribute [local simp] afterBody

lemma onRequestBody_routed (hp : p.routerCtx = none) (hfresh : (maps p.requestID).Fresh)
    (body : String) (env : BodyEnv)
    (hctx : (p.onRequestBody s maps body env).proc.routerCtx = some ctx)
    (hr : ctx.hasRouted = true) : ∃ q maps' ops resp,
      p.onRequestBody s maps body env = ⟨q, maps', ops, .returned resp⟩ ∧ q.ctx = some ctx ∧
      q.status = p.status ∧ q.isRespError = p.isRespError ∧ q.completed = p.completed ∧
      Arrived ctx (maps' ctx.requestID) ∧ (maps' ctx.requestID).Unstarted ∧
      ∀ op ∈ ops, op.OfRequest := by
  have hcases : BodyCase s env p.requestID p.routingAlgorithm (maps p.requestID) _ :=
    handleRequestBody_cases p.requestID body p.user p.routingAlgorithm
  have hfresh' := handleRequestBody_startsFresh (s := s) hfresh env p.requestID body p.user
    p.routingAlgorithm
  unfold onRequestBody at hctx ⊢
  generalize handleRequestBody s env p.requestID body p.user p.routingAlgorithm
    (maps p.requestID) = h at hcases hfresh' hctx ⊢
  cases hcases with
  | rejected _ h | notRouted _ _ h => simp [h] at hctx
  | noMessage _ ctx' h _ hp' | failed _ ctx' _ _ _ _ h _ hp' =>
    obtain rfl : ctx' = ctx := by simpa [h] using hctx
    simp [RoutingContext.hasRouted, hp'] at hr
  | blocked | panicked => simp [hp] at hctx
  | routed r ctx' pods pod timing e' ops hid h hmodel hc ht hfirst hsel =>
    obtain rfl : { ctx' with targetPod := some pod } = ctx := by simpa [h] using hctx
    obtain ⟨hfresh₁, hunstarted⟩ := hfresh' r _ rfl h hr
    have hentries : Function.update maps p.requestID e' ctx'.requestID = e' := by
      rw [hid, Function.update_self]
    refine ⟨_, _, _, _, rfl, by simp [h], by simp [h], by simp [h],
      by simp [h], ?_, ?_, fun op ho => ?_⟩
    · rw [hentries]
      exact ⟨by rw [ht]; rfl, hc, hfresh₁⟩
    · rw [hentries]
      exact hunstarted
    · rcases List.mem_append.mp ho with ho | ho
      · obtain ⟨call, rfl, -⟩ := selectTargetPod_ops hsel op ho
        trivial
      · simp only [List.mem_cons, List.not_mem_nil, or_false] at ho
        rcases ho with rfl | rfl | rfl | rfl <;> trivial

lemma onResponseHeaders_ok (maps : Maps) (hctx : p.ctx = some ctx) (hrouter : p.routerCtx = some ctx)
    (hr : ctx.hasRouted = true) {headers : List HeaderValue}
    (hok : ∀ code ∈ statusCodes headers, code = 200) :
    ∃ q maps' resp code, p.onResponseHeaders maps headers = ⟨q, maps', [], .returned resp⟩ ∧
      q.ctx = some ctx ∧ q.routerCtx = some ctx ∧ q.status = p.status ∧ q.isRespError = false ∧
      q.completed = p.completed ∧ p.SameCharge q ∧
      maps' ctx.requestID = { maps ctx.requestID with statusCode := code } := by
  obtain ⟨pod, hpod⟩ := Option.isSome_iff_exists.mp hr
  have haddr := RoutingContext.targetAddress_eq hpod
  have herrors : (statusCodes headers).filter (fun code => code ≠ 200) = [] := by
    simpa [List.filter_eq_nil_iff] using hok
  simp only [onResponseHeaders, hrouter, hctx, handleResponseHeaders, haddr, herrors]
  exact ⟨_, _, _, _, rfl, rfl, rfl, rfl, rfl, rfl, ⟨rfl, rfl⟩, Function.update_self _ _ _⟩

end Proc

/-! ### A whole exchange -/

open Proc

structure Exchange where
  headers : List HeaderValue
  headersEnv : HeadersEnv
  body : String
  bodyEnv : BodyEnv
  respHeaders : List HeaderValue
  chunks : List (String × ResponseEnv)
  last : String × ResponseEnv

namespace Exchange

variable (s : Server) (maps : Maps) (x : Exchange)

def proc : Proc :=
  (after s {} maps [.requestHeaders x.headers x.headersEnv, .requestBody x.body x.bodyEnv]).1

def opening : List Message :=
  [.requestHeaders x.headers x.headersEnv, .requestBody x.body x.bodyEnv,
    .responseHeaders x.respHeaders]

/-- The request gets a target and a response without an error, under an ID that no other
request has used. -/
structure Served : Prop where
  fresh : (maps (getRequestID x.headers)).Fresh
  routed : (x.proc s maps).routerCtx.any RoutingContext.hasRouted = true
  status : ∀ code ∈ statusCodes x.respHeaders, code = 200

variable {s maps x}

/-- **The stream of a request that is served** comes to the body of the response. -/
lemma Served.reaches (h : x.Served s maps) : ∃ ctx q maps' ops,
    Reaches s {} maps x.opening ops q maps' ∧ q.Waits ctx ∧ q.completed = false ∧
      Arrived ctx (maps' ctx.requestID) ∧ (maps' ctx.requestID).Unstarted ∧
      (x.proc s maps).SameCharge q ∧ ∀ op ∈ ops, op.OfRequest := by
  obtain ⟨ctx, hctx, hr⟩ := (Option.any_eq_true _ _).mp h.routed
  obtain ⟨he₁, hrpm, r, hret⟩ :=
    handleRequestHeaders_spec s x.headersEnv x.headers (maps (getRequestID x.headers))
  -- the request headers
  let h₀ := handleRequestHeaders s x.headersEnv x.headers (maps (getRequestID x.headers))
  let p₁ : Proc := { requestID := getRequestID x.headers, user := r.user, rpm := r.rpm,
                     routingAlgorithm := r.routingAlgorithm }
  let maps₁ := Function.update maps (getRequestID x.headers) h₀.entries
  have h₁ : onMessage s {} maps (.requestHeaders x.headers x.headersEnv) =
      ⟨p₁, maps₁, h₀.ops, .returned r.resp⟩ := by
    simp only [onMessage, onRequestHeaders, hret]
    rfl
  -- the request body
  have hfresh₁ : (maps₁ p₁.requestID).Fresh := by
    rw [show maps₁ p₁.requestID = h₀.entries from Function.update_self _ _ _,
      show h₀.entries = _ from he₁]
    exact h.fresh
  simp only [proc, after, List.foldl_cons, List.foldl_nil, receive_of_returned h₁] at hctx ⊢
  rw [receive_routerCtx] at hctx
  obtain ⟨p₂, maps₂, ops₂, resp₂, h₂, hctx₂, hstatus₂, herr₂, hcomp₂, harr₂, hnew₂, hops₂⟩ :=
    onRequestBody_routed rfl hfresh₁ x.body x.bodyEnv hctx hr
  have hrouter₂ : p₂.routerCtx = some ctx := by
    rw [onMessage, h₂] at hctx
    exact hctx
  have h₂ : p₁.onMessage s maps₁ (.requestBody x.body x.bodyEnv) =
      ⟨p₂, maps₂, ops₂, .returned resp₂⟩ := h₂
  rw [receive_of_returned h₂]
  -- the response headers
  obtain ⟨q, maps', resp, code, h₃, hctx₃, hrouter₃, hstatus₃, herr₃, hcomp₃, hsame, hentries⟩ :=
    onResponseHeaders_ok maps₂ hctx₂ hrouter₂ hr h.status
  have hq : q.status = .running := hstatus₃.trans hstatus₂
  refine ⟨ctx, q, maps', _, .cons h₁ rfl (.cons h₂ hstatus₂ (.cons h₃ hq (.nil q maps'))),
    ⟨hq, hctx₃, hrouter₃, herr₃, Option.isSome_iff_exists.mp hr⟩, hcomp₃.trans hcomp₂, ?_, ?_,
    hsame, fun op ho => ?_⟩
  · rw [hentries]
    exact ⟨harr₂.timing, harr₂.routingContext, harr₂.fresh⟩
  · rw [hentries]
    exact hnew₂
  · simp only [List.append_nil] at ho
    rcases List.mem_append.mp ho with ho | ho
    · obtain ⟨username, rfl⟩ := hrpm op ho
      trivial
    · exact hops₂ op ho

/-- A request of a user, with the chunks of its response; the router picks the first pod. -/
def small (body : String) (chunks : List String) (last : String) : Exchange where
  headers := [⟨"request-id", "", "r"⟩, ⟨"user", "", "alice"⟩, ⟨"routing-strategy", "", "random"⟩]
  headersEnv := ⟨.ok { name := "alice" }, some 0, some 1, some 0⟩
  body := body
  bodyEnv := { hasModel := true, pods := some Small.pods, now := 0, providerError := none
               answer := .picked 0, term := 0
               preble := ⟨some 0, [], fun _ => 0, fun _ _ => 0, 0⟩ }
  respHeaders := [⟨":status", "", "200"⟩]
  chunks := chunks.map fun chunk => (chunk, ⟨1, 1, 0, [], .ok 0, .ok 0⟩)
  last := (last, ⟨1, 1, 0, [], .ok 0, .ok 0⟩)

lemma small_served {s : Server} {body : String} {chunks : List String} {last : String}
    (h : ((small body chunks last).proc s fun _ => {}).routerCtx.any RoutingContext.hasRouted = true) :
    (small body chunks last).Served s fun _ => {} where
  fresh := ⟨rfl, rfl, rfl⟩
  routed := h
  status := by
    show ∀ code ∈ statusCodes [⟨":status", "", "200"⟩], code = 200
    decide +kernel

end Exchange
end Lodestar.Gateway
