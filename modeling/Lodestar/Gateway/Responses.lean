import Lodestar.Gateway.Completed
import Lodestar.Gateway.Streams
import Lodestar.Gateway.Routers

/-!
# Answers to the messages of a response

The message loop of `Process` reads the routing context of the last request body when a
response arrives.  There is none if no strategy was asked for or the body was rejected, and
then a nil pointer is dereferenced; where routing failed the context has no target, and
`TargetAddress` waits for ever.
-/

namespace Lodestar.Gateway

open Lib Accounting List Function

namespace ResponseCall

variable {c : ResponseCall} {pod : Pod}

lemma decode_goes {f : Frame} (hl : Linked c.ctx f.entries) :
    (c.decode f).Leads (fun _ => True) (fun _ => True) (c.ctx.targetPod = none) := by
  unfold decode
  split
  · trivial
  · rename_i timing ht
    split
    · refine (decodeStreamed_spec ht).1.imp (fun _ _ => trivial) (fun _ _ => trivial) ?_
      rintro ⟨ctx, hctx, hnone⟩
      obtain ⟨rc, hrc, htarget⟩ := hl (by rw [ht]; rfl)
      obtain rfl := Option.some.inj (hctx.symm.trans hrc)
      exact htarget ▸ hnone
    · exact (decodeBuffered_spec timing).imp (fun _ _ => trivial) (fun _ _ => trivial) False.elim

/-- **A response body is answered** if the request has a target. -/
lemma handle_returned_of_target (hp : c.ctx.targetPod = some pod) {e : Entries}
    (hl : Linked c.ctx e) (hasCompleted : Bool) :
    ∃ r, (c.handle hasCompleted e).outcome = .returned r := by
  have hgoes : (c.body { entries := e, complete := hasCompleted }).Leads (fun _ => False)
      (fun _ => True) (c.ctx.targetPod = none) :=
    ((((decode_goes hl).andThen fun g _ =>
      (finish_spec g fun _ => True).1.imp (fun _ _ => trivial) (fun _ h => h) id).andThen fun g _ =>
      (report_spec g).1.imp (fun _ _ => trivial) (fun _ _ => trivial) id).andThen fun g _ =>
      (decodeAgain_spec g).1.imp (fun _ _ => trivial) (fun _ _ => trivial) id).andThen fun g _ =>
      (close_spec g _).1.imp (fun _ h => h) (fun _ _ => trivial) id
  unfold handle
  cases hbody : c.body { entries := e, complete := hasCompleted } with
  | reply f resp => exact ⟨_, rfl⟩
  | next f =>
    rw [hbody] at hgoes
    exact hgoes.elim
  | blocked f =>
    rw [hbody] at hgoes
    exact absurd (show c.ctx.targetPod = none from hgoes) (by simp [hp])

end ResponseCall

/-! ### What a stream knows about its request -/

/-- The context of the loop is that of the last request body, and where it has a target, the
entry of the request has the same one. -/
structure Proc.Fits (p : Proc) (maps : Maps) : Prop where
  ctx_eq : ∀ c, p.routerCtx = some c → p.ctx = some c
  target : ∀ c pod, p.routerCtx = some c → c.targetPod = some pod →
    pod.podIP ≠ "" ∧ Linked c (maps c.requestID)

namespace Proc

variable {s : Server} {p : Proc} {maps : Maps}

lemma Fits.of_records {q : Proc} {maps' : Maps} (h : p.Fits maps) (hctx : q.ctx = p.ctx)
    (hrouter : q.routerCtx = p.routerCtx) (hrec : ∀ id, (maps' id).timing = (maps id).timing ∧
      (maps' id).routingContext = (maps id).routingContext) : q.Fits maps' where
  ctx_eq := by
    rw [hctx, hrouter]
    exact h.ctx_eq
  target := by
    rw [hrouter]
    intro c pod hc hpod
    obtain ⟨hip, hl⟩ := h.target c pod hc hpod
    exact ⟨hip, hl.congr (hrec _).1 (hrec _).2⟩

lemma Fits.of_none {q : Proc} (hrouter : q.routerCtx = none) (maps : Maps) : q.Fits maps where
  ctx_eq := by simp [hrouter]
  target := by simp [hrouter]

lemma Fits.of_idle (h : p.Fits maps) {msg : Message} (hreq : msg.isRequestBody = false)
    (hresp : ∀ body env, msg ≠ .responseBody body env) :
    (p.onMessage s maps msg).proc.Fits (p.onMessage s maps msg).maps := by
  have hi := idle_onMessage s p maps hreq hresp
  exact h.of_records hi.same.ctx hi.same.routerCtx fun id =>
    ⟨hi.timing id, routingContext_of_idle s p maps hreq hresp id⟩

attribute [local simp] afterBody

lemma fits_onRequestBody (body : String) (env : BodyEnv)
    {resp : ProcessingResponse} (hret : (p.onRequestBody s maps body env).outcome = .returned resp) :
    (p.onRequestBody s maps body env).proc.Fits (p.onRequestBody s maps body env).maps := by
  have hcases : BodyCase s env p.requestID p.routingAlgorithm (maps p.requestID) _ :=
    handleRequestBody_cases p.requestID body p.user p.routingAlgorithm
  unfold Proc.onRequestBody at hret ⊢
  generalize handleRequestBody s env p.requestID body p.user p.routingAlgorithm
    (maps p.requestID) = handled at hcases hret ⊢
  cases hcases with
  | rejected _ hnone | notRouted _ _ hnone => exact .of_none (by simp [hnone]) _
  | noMessage _ ctx hsome _ htarget | failed _ ctx _ _ _ _ hsome _ htarget =>
    refine ⟨by simp [hsome], fun c pod hc hpod => ?_⟩
    obtain rfl : ctx = c := by simpa [hsome] using hc
    simp [htarget] at hpod
  | blocked | panicked => simp at hret
  | routed r ctx pods pod timing e' ops hid hsome hmodel hc ht hfirst hsel =>
    refine ⟨by simp [hsome], fun c pod' hc' hpod => ?_⟩
    obtain rfl : { ctx with targetPod := some pod } = c := by simpa [hsome] using hc'
    obtain rfl : pod = pod' := by simpa using hpod
    have hentries : Function.update maps p.requestID e' ctx.requestID = e' := by
      rw [hid, update_self]
    refine ⟨podIP_ne_of_selected hsel, ?_⟩
    dsimp only
    rw [hentries]
    exact fun _ => ⟨_, hc, rfl⟩

lemma Fits.onErrorBody (h : p.Fits maps) (msg : ResponseBody) :
    (p.onErrorBody maps msg).proc.Fits (p.onErrorBody maps msg).maps := by
  unfold Proc.onErrorBody
  cases hr : p.routerCtx with
  | none => exact h
  | some ctx =>
    dsimp only
    split
    · exact h
    · split
      · exact h
      · refine ⟨fun c hc => h.ctx_eq c (hr.trans hc), fun c pod hc hpod => ?_⟩
        obtain rfl : ctx = c := by simpa using hc
        have hip := (h.target ctx pod hr hpod).1
        have htiming := timing_cleanup hpod hip (maps ctx.requestID)
        refine ⟨hip, fun hsome => ?_⟩
        dsimp only at hsome
        rw [update_self, htiming] at hsome
        simp at hsome

lemma Fits.onResponseBody (h : p.Fits maps) (msg : ResponseBody) (env : ResponseEnv) :
    (p.onResponseBody s maps msg env).proc.Fits (p.onResponseBody s maps msg env).maps := by
  unfold Proc.onResponseBody
  split
  · exact h.onErrorBody msg
  · cases hctx : p.ctx with
    | none => exact h
    | some ctx =>
      have hkeep : ∀ q : Proc, q.ctx = p.ctx → q.routerCtx = p.routerCtx →
          q.Fits (Function.update maps ctx.requestID
            ((p.responseCall s ctx msg env).handle p.completed (maps ctx.requestID)).entries) := by
        intro q hqctx hqrouter
        refine ⟨by rw [hqctx, hqrouter]; exact h.ctx_eq, fun c pod hc hpod => ?_⟩
        rw [hqrouter] at hc
        obtain rfl : ctx = c := Option.some.inj (hctx.symm.trans (h.ctx_eq c hc))
        obtain ⟨hip, hl⟩ := h.target ctx pod hc hpod
        have hmoves := moves_handle (A := noAccounting) (c := p.responseCall s ctx msg env)
          p.completed (e := maps ctx.requestID) fun _ _ _ _ => Or.inl trivial
        rw [update_self]
        exact ⟨hip, (hmoves hl).2.1⟩
      dsimp only
      split
      · obtain ⟨hactx, harouter, -, -⟩ := afterResponse_spec p _ _ _
        exact hkeep _ hactx harouter
      · exact hkeep p rfl rfl
      · exact hkeep p rfl rfl

/-- **Whatever message is answered**, the stream and the maps fit afterwards. -/
lemma Fits.onMessage (h : p.Fits maps) (msg : Message) {resp : ProcessingResponse}
    (hret : (p.onMessage s maps msg).outcome = .returned resp) :
    (p.onMessage s maps msg).proc.Fits (p.onMessage s maps msg).maps := by
  cases msg with
  | requestBody body env => exact fits_onRequestBody body env hret
  | responseBody body env => exact h.onResponseBody body env
  | requestHeaders | responseHeaders | unknown => exact h.of_idle rfl (by simp)

/-! ### Runs of one stream -/

def HasTarget (p : Proc) : Prop := p.routerCtx.any RoutingContext.hasRouted = true

instance (p : Proc) : Decidable p.HasTarget := inferInstanceAs (Decidable (_ = true))

lemma hasTarget_iff : p.HasTarget ↔ ∃ ctx pod, p.routerCtx = some ctx ∧ ctx.targetPod = some pod := by
  rw [HasTarget, Option.any_eq_true]
  simp only [RoutingContext.hasRouted, Option.isSome_iff_exists]
  exact ⟨fun ⟨ctx, hctx, pod, hpod⟩ => ⟨ctx, pod, hctx, hpod⟩,
    fun ⟨ctx, pod, hctx, hpod⟩ => ⟨ctx, hctx, pod, hpod⟩⟩

attribute [local simp] RoutingContext.hasRouted

lemma onResponseHeaders_answered_iff (h : p.Fits maps) (headers : List HeaderValue) :
    (∃ resp, (p.onResponseHeaders maps headers).outcome = .returned resp) ↔ p.HasTarget := by
  rw [hasTarget_iff]
  unfold Proc.onResponseHeaders
  cases hr : p.routerCtx with
  | none => simp
  | some ctx =>
    have hctx := h.ctx_eq ctx hr
    cases hpod : ctx.targetPod with
    | none =>
      have haddr : ctx.targetAddress = none := by simp [RoutingContext.targetAddress, hpod]
      simp [hctx, handleResponseHeaders, haddr, hpod]
    | some pod =>
      have haddr := RoutingContext.targetAddress_eq hpod
      simp [hctx, handleResponseHeaders, haddr, hpod]

lemma onErrorBody_answered_iff (msg : ResponseBody) :
    (∃ resp, (p.onErrorBody maps msg).outcome = .returned resp) ↔ p.HasTarget := by
  rw [hasTarget_iff]
  unfold Proc.onErrorBody
  cases hr : p.routerCtx with
  | none => simp
  | some ctx =>
    cases hpod : ctx.targetPod with
    | none => simp [hpod]
    | some pod =>
      have hrouted : ctx.hasRouted = true := by simp [hpod]
      simp only [hrouted, Bool.true_eq_false, if_false]
      split <;> simp [hpod]

lemma onResponseBody_answered (h : p.Fits maps) (ht : p.HasTarget) (msg : ResponseBody)
    (env : ResponseEnv) : ∃ resp, (p.onResponseBody s maps msg env).outcome = .returned resp := by
  unfold Proc.onResponseBody
  split
  · exact (onErrorBody_answered_iff msg).mpr ht
  · obtain ⟨ctx, pod, hrouter, hpod⟩ := hasTarget_iff.mp ht
    have hctx := h.ctx_eq ctx hrouter
    obtain ⟨⟨resp, completed⟩, hret⟩ := ResponseCall.handle_returned_of_target
      (c := p.responseCall s ctx msg env) hpod (h.target ctx pod hrouter hpod).2 p.completed
    simp only [hctx, hret, afterResponse, hrouter]
    split <;> exact ⟨_, rfl⟩

end Proc

/-- What happens to a stream: a message comes, whose reply is sent or not, or other streams
change their entries of the maps. -/
inductive StreamEvent where
  | message (msg : Message) (sendFails : Bool)
  | others (maps : Maps)

namespace StreamEvent

open Proc
variable {s : Server} {σ : Proc × Maps}

def step (s : Server) (σ : Proc × Maps) : StreamEvent → Proc × Maps
  | .message msg sendFails =>
    if σ.1.status = .running then
      let after := σ.1.receive s σ.2 msg sendFails
      (after.1, after.2.1)
    else σ
  | .others maps =>
    (σ.1, fun id => if σ.1.routerCtx.any (fun c => c.requestID = id) then σ.2 id else maps id)

def Answered (s : Server) (σ : Proc × Maps) : StreamEvent → Prop
  | .message (.responseHeaders headers) _ => σ.1.status = .running →
      ∃ resp, (σ.1.onMessage s σ.2 (.responseHeaders headers)).outcome = .returned resp
  | .message (.responseBody body env) _ => σ.1.status = .running →
      ∃ resp, (σ.1.onMessage s σ.2 (.responseBody body env)).outcome = .returned resp
  | _ => True

/-- A response message comes when the last request body has a target; a body may also come
when no request body got as far as a context. -/
def Expected (σ : Proc × Maps) : StreamEvent → Prop
  | .message (.responseHeaders _) _ => σ.1.status = .running → σ.1.HasTarget
  | .message (.responseBody _ _) _ => σ.1.status = .running →
      σ.1.HasTarget ∨ σ.1.ctx = none ∧ σ.1.isRespError = false
  | _ => True

instance (σ : Proc × Maps) : (e : StreamEvent) → Decidable (Expected σ e)
  | .message (.responseHeaders _) _ => by unfold Expected; infer_instance
  | .message (.responseBody _ _) _ => by unfold Expected; infer_instance
  | .message (.requestHeaders _ _) _ | .message (.requestBody _ _) _ | .message .unknown _
  | .others _ => isTrue trivial

def Kept (σ : Proc × Maps) : Prop := σ.1.status = .running → σ.1.Fits σ.2

lemma answered_of_expected (h : Kept σ) {e : StreamEvent} (he : Expected σ e) : Answered s σ e := by
  match e, he with
  | .message (.responseHeaders headers) _, he =>
    exact fun hrun => (onResponseHeaders_answered_iff (h hrun) headers).mpr (he hrun)
  | .message (.responseBody body env) _, he =>
    intro hrun
    rcases he hrun with ht | ⟨hctx, herr⟩
    · exact onResponseBody_answered (h hrun) ht body env
    · simp only [onMessage, Proc.onResponseBody, herr, hctx]
      exact ⟨_, rfl⟩
  | .message (.requestHeaders _ _) _, _ => trivial
  | .message (.requestBody _ _) _, _ => trivial
  | .message .unknown _, _ => trivial
  | .others _, _ => trivial

/-- **One step** keeps the stream and the maps together. -/
lemma kept_step (h : Kept σ) (e : StreamEvent) : Kept (step s σ e) := by
  cases e with
  | others maps =>
    intro hrun
    have hfits := h hrun
    refine ⟨hfits.ctx_eq, fun c pod hc hpod => ?_⟩
    have hc' : σ.1.routerCtx = some c := hc
    obtain ⟨hip, hl⟩ := hfits.target c pod hc' hpod
    have hown : σ.1.routerCtx.any (fun d => d.requestID = c.requestID) = true := by simp [hc']
    simpa only [step, hown, if_true] using And.intro hip hl
  | message msg sendFails =>
    unfold step
    dsimp only
    split
    · rename_i hrun
      rcases receive_cases s σ.1 σ.2 msg sendFails with heq | ⟨⟨resp, hret⟩, heq⟩ | heq
      · simp [Kept, heq]
      · rw [heq]
        exact fun _ => (h hrun).onMessage msg hret
      · simp [Kept, heq]
    · exact h

/-- **Answers to response messages**, for every sequence of messages on a stream.  If each of
them comes when the last request body has a target, or, for a body, when no request body got
as far as a context, then all are answered.  Response headers, and the bodies of a response
with an error status, are answered only if the last request body has a target.  And no router
publishes a nil pointer as a target. -/
theorem answered_run (s : Server) (maps : Maps) (es : List StreamEvent) :
    (Along (step s) Expected ({}, maps) es → Along (step s) (Answered s) ({}, maps) es) ∧
    (∀ headers sendFails,
      Answered s (es.foldl (step s) ({}, maps)) (.message (.responseHeaders headers) sendFails) ↔
        Expected (es.foldl (step s) ({}, maps)) (.message (.responseHeaders headers) sendFails)) ∧
    (∀ body env sendFails, (es.foldl (step s) ({}, maps)).1.isRespError = true →
      (Answered s (es.foldl (step s) ({}, maps)) (.message (.responseBody body env) sendFails) ↔
        Expected (es.foldl (step s) ({}, maps)) (.message (.responseBody body env) sendFails))) ∧
    ∀ {κ : Type} (pods : List Pod) (drawn : ℕ) (call : RouterCall κ),
      filterRoutablePods pods ≠ [] → call.route (filterRoutablePods pods) drawn ≠ .published none := by
  have hkept : Kept (es.foldl (step s) ({}, maps)) :=
    foldl_invariant (I := Kept) (fun _ => .of_none rfl maps) (fun _ e h => kept_step h e) es
  refine ⟨fun h => ?_, fun headers sendFails => ⟨fun h hrun => ?_, answered_of_expected hkept⟩,
    fun body env sendFails herr => ⟨fun h hrun => ?_, answered_of_expected hkept⟩,
    fun pods drawn call hpods hnil => ?_⟩
  · exact h.imp_of_invariant (I := Kept) (fun _ => .of_none rfl maps) (fun _ e h _ => kept_step h e)
      fun σ e hσ he => answered_of_expected hσ he
  · exact (onResponseHeaders_answered_iff (hkept hrun) headers).mp (h hrun)
  · have hans := h hrun
    simp only [onMessage, Proc.onResponseBody, herr, if_true] at hans
    exact .inl ((onErrorBody_answered_iff body).mp hans)
  · have hroutable : filterRoutablePods (filterRoutablePods pods) = filterRoutablePods pods := by
      simp [filterRoutablePods, filter_filter]
    obtain ⟨answer, hanswer⟩ := represents_route hpods hroutable drawn call
    rw [hnil] at hanswer
    obtain ⟨i, pod, -, -, hsome⟩ := hanswer
    simp at hsome

deriving instance DecidableEq for Outcome

section

open Gateway.Small

/-- The messages of a request with the given routing strategy. -/
def requested (strategy : List HeaderValue) (answer : RouterAnswer) : List StreamEvent :=
  [.message (.requestHeaders (⟨"request-id", "", "r"⟩ :: strategy)
      ⟨.ok {}, some 0, some 1, some 0⟩) false,
    .message (.requestBody chat { hasModel := true, pods := some pods, now := 0
                                  providerError := none, answer := answer, term := 0
                                  preble := ⟨some 0, [], fun _ => 0, fun _ _ => 0, 0⟩ }) false]

def respHeaders : StreamEvent := .message (.responseHeaders [⟨":status", "", "200"⟩]) false

/-- A request that is routed, and its response. -/
theorem answered_run_small : Along (step server) (Answered server) ({}, fun _ => {})
      (requested (strategy "random") (.picked 0) ++
        [respHeaders, .message (.responseBody ⟨completion, true⟩ ⟨1, 1, 0, [], .ok 0, .ok 0⟩) false]) :=
  (answered_run server (fun _ => {}) _).1 (by decide +kernel)

/-- Without a routing strategy the headers of the response meet no context, and the loop
panics; if the router finds no pod they meet one without a target, and the loop waits. -/
theorem unanswered_headers :
    let unrouted := (requested [] (.picked 0)).foldl (step server) ({}, fun _ => {})
    let failed := (requested (strategy "random") (.error "no pods")).foldl (step server)
      ({}, fun _ => {})
    unrouted.1.status = .running ∧ unrouted.1.routerCtx = none ∧
      (unrouted.1.onMessage server unrouted.2 (.responseHeaders [])).outcome = .panicked ∧
    failed.1.status = .running ∧ ¬ failed.1.HasTarget ∧
      (failed.1.onMessage server failed.2 (.responseHeaders [])).outcome = .blocked := by
  decide +kernel

end
end StreamEvent
end Lodestar.Gateway
