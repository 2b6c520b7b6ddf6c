import Lodestar.Gateway.Process
import Lodestar.Gateway.ResponseParts

/-!
# Which calls the handlers make, and what a turn leaves alone

Besides the in-flight counters the streams share the prefix tree of the Preble router
and the request counts of the pod cache.  Which of the handlers acts on which of them is
read off here once: the parts of `HandleResponseBody` only make calls `OfResponse`, the
deferred call of it is the only `DoneRequestTrace`, and the completion hook of the router
is run by the cleanup alone.  The variables that hold the context of the request change
with the request body only, so a stream is `Untouched` until that comes.
-/

namespace Lodestar.Gateway

open Lib List Function

/-! ### Response bodies -/

/-- A call that the parts of `HandleResponseBody` and the release of a request make. -/
def Op.OfResponse : Op → Prop
  | .increment counter _ _ => counter = .decodeRequests ∨ counter = .decodeTokens
  | .decrement counter _ n => counter = .requests → n = 1
  | .decrementNewPrefillTokensForRequest _ _ => True
  | .decrementMooncakeVirtualQueue _ => True
  | .incrTPM _ _ => True
  | .addRequestLogMessage _ _ => True
  | .removeLiveRequest _ => True
  | _ => False

/-- A call that gives back what the timing record of a request stands for. -/
def Op.OfRelease : Op → Prop
  | .decrement _ _ _ => True
  | .decrementNewPrefillTokensForRequest _ _ => True
  | .decrementMooncakeVirtualQueue _ => True
  | _ => False

attribute [local simp] Op.OfResponse Op.OfRelease decrementNumInflightPrefillRequestsForPod
  decrementNumInflightPrefillTokensForPod decrementNumInflightDecodeRequestsForPod
  decrementNumInflightDecodeTokensForPod decrementNumInflightRequestsForPod
  incrementNumInflightDecodeRequestsForPod incrementNumInflightDecodeTokensForPod

lemma mem_releaseOps (requestID podIP : String) (timing : RequestTiming) :
    ∀ op ∈ releaseOps requestID podIP timing, op.OfRelease ∧ op.OfResponse := by
  unfold releaseOps
  cases timing.firstTokenTime <;> simp

/-- What holds of the calls of every token holds of those of a chunk. -/
lemma forall_onEvents {P : Op → Prop} {requestID podIP : String} {now : Indexer.Time}
    (h : ∀ timing, ∀ op ∈ (onToken requestID podIP now timing).2, P op)
    (evts : List ChatCompletionChunk) (timing : RequestTiming) :
    ∀ op ∈ (onEvents requestID podIP now evts timing).2, P op := by
  induction evts generalizing timing with
  | nil => simp [onEvents]
  | cons evt evts ih =>
    rw [onEvents]
    split
    · exact fun op ho => (mem_append.mp ho).elim (h timing op) (ih _ op)
    · exact ih timing

namespace Frame

/-- From one frame to the other only calls of a response are made. -/
def Adds (f g : Frame) : Prop := ∃ ops, g.ops = f.ops ++ ops ∧ ∀ op ∈ ops, op.OfResponse

variable {f g g' : Frame}

lemma Adds.trans (h : f.Adds g) (h' : g.Adds g') : f.Adds g' := by
  obtain ⟨ops, ho, hr⟩ := h
  obtain ⟨ops', ho', hr'⟩ := h'
  refine ⟨ops ++ ops', by rw [ho', ho, append_assoc], fun op hop => ?_⟩
  exact (mem_append.mp hop).elim (hr op) (hr' op)

lemma Adds.of_eq (h : g.ops = f.ops) : f.Adds g := ⟨[], by rw [h, append_nil], by simp⟩

lemma Billed.adds (h : f.Billed g) : f.Adds g := by
  obtain ⟨-, ops, ho, hbilled⟩ := h
  refine ⟨ops, ho, fun op hop => ?_⟩
  obtain ⟨user, n, rfl⟩ := hbilled op hop
  trivial

lemma Adds.andThen {F : Flow} {k : Frame → Flow} (h : f.Adds F.frame)
    (hk : ∀ g : Frame, g.Adds (k g).frame) : f.Adds (F.andThen k).frame := by
  cases F with
  | next g => exact h.trans (hk g)
  | reply | blocked => exact h

end Frame

namespace ResponseCall

variable (c : ResponseCall)

lemma adds_decode (f : Frame) : f.Adds (c.decode f).frame := by
  unfold decode
  cases ht : f.entries.timing with
  | none => exact .of_eq rfl
  | some timing =>
    dsimp only
    split
    · have hev podIP : ∀ op ∈ (onEvents c.ctx.requestID podIP c.env.now
          (c.server.events c.msg.body).1 timing).2, op.OfResponse := by
        refine forall_onEvents (fun timing => ?_) _ _
        unfold onToken
        cases timing.firstTokenTime <;> simp
      have hF := c.streamed ht
      generalize c.decodeStreamed f = F at hF ⊢
      cases hF with
      | unlinked _ h | blocked _ _ h => exact ⟨[], h.ops, by simp⟩
      | counted _ _ _ h => exact ⟨_, h.ops, hev _⟩
      | broken _ _ _ _ h =>
        exact ⟨_, h.ops, fun op ho => (mem_append.mp ho).elim (hev _ op) fun ho =>
          (mem_releaseOps _ _ _ op ho).2⟩
    · unfold decodeBuffered
      dsimp only
      repeat' split
      all_goals exact .of_eq rfl

lemma adds_finish (f : Frame) : f.Adds (c.finish f).frame := by
  unfold finish
  cases f.entries.timing with
  | none => exact .of_eq rfl
  | some timing =>
    dsimp only
    split
    · exact .of_eq rfl
    · split
      · exact .of_eq rfl
      · refine ⟨_, append_assoc _ _ _, ?_⟩
        unfold calculateTimingMetrics
        dsimp only
        split <;> simp

lemma adds_decodeAgain (f : Frame) : f.Adds (c.decodeAgain f).frame := by
  rcases (decodeAgain_spec f).2 with ⟨ho, -⟩ | ⟨timing, -, -, -, -, ⟨-, ho⟩ | ⟨pod, -, ho⟩⟩
  · exact .of_eq ho
  · exact .of_eq ho
  · refine ⟨_, ho, ?_⟩
    unfold releaseAgainOps
    cases timing.firstTokenTime <;> simp

lemma adds_body (f : Frame) : f.Adds (c.body f).frame :=
  ((((c.adds_decode f).andThen c.adds_finish).andThen fun g => (report_spec g).2.billed.adds).andThen
    c.adds_decodeAgain).andThen fun g => (close_spec g fun _ => True).2.billed.adds

lemma handle_calls (hasCompleted : Bool) (e : Entries) : ∃ ops done,
    (c.handle hasCompleted e).ops = ops ++ done ∧ (∀ op ∈ ops, op.OfResponse) ∧
    ((∀ r, (c.handle hasCompleted e).outcome ≠ .returned r) → done = []) ∧
    ∀ resp completed, (c.handle hasCompleted e).outcome = .returned (resp, completed) →
      ∃ promptTokens completionTokens, done = if hasCompleted = false ∧ completed = true then
        [.doneRequestTrace c.ctx.targetPod c.ctx.requestID c.model promptTokens completionTokens
          c.traceTerm] else [] := by
  obtain ⟨ops, ho, hr⟩ := c.adds_body { entries := e, complete := hasCompleted }
  unfold handle
  cases hF : c.body { entries := e, complete := hasCompleted } with
  | reply f resp =>
    rw [hF] at ho
    have hops : f.ops = ops := by simpa [Flow.frame] using ho
    refine ⟨ops, _, congrArg (· ++ _) hops, hr, ?_, ?_⟩
    · intro h
      exact absurd rfl (h _)
    · intro resp' completed h
      obtain ⟨rfl, rfl⟩ := h
      exact ⟨_, _, rfl⟩
  | next | blocked =>
    rw [hF] at ho
    exact ⟨ops, [], by simpa [Flow.frame] using ho, hr, fun _ => rfl, by simp⟩

end ResponseCall

/-! ### Turns without a request body -/

/-- A call that is made for something else than a request body. -/
def Op.Later : Op → Prop
  | .increment counter _ _ => counter = .decodeRequests ∨ counter = .decodeTokens
  | .decrement counter _ n => counter = .requests → n = 1
  | .addRequestCount _ _ _ => False
  | .prebleRoute _ => False
  | _ => True

lemma Op.OfResponse.later {op : Op} (h : op.OfResponse) : op.Later := by
  cases op <;> first | exact h | exact h.elim

/-- Any other call of the deferred function of `Process`. -/
def Op.OfExit : Op → Prop
  | .doneRequestCount _ _ _ _ => True
  | .prebleOnRequestComplete _ => True
  | .removeLiveRequest _ => True
  | _ => False

lemma Op.OfExit.later {op : Op} (h : op.OfExit) : op.Later := by
  cases op <;> first | exact h | exact h.elim

def Message.isRequestBody : Message → Bool
  | .requestBody _ _ => true
  | _ => false

lemma Message.eq_requestBody {msg : Message} (h : msg.isRequestBody = true) :
    ∃ body env, msg = .requestBody body env := by
  cases msg with
  | requestBody body env => exact ⟨body, env, rfl⟩
  | _ => simp [isRequestBody] at h

structure Proc.SameRequest (p q : Proc) : Prop where
  ctx : q.ctx = p.ctx
  routerCtx : q.routerCtx = p.routerCtx
  stream : q.stream = p.stream
  model : q.model = p.model
  traceTerm : q.traceTerm = p.traceTerm
  status : q.status = p.status

lemma Proc.SameRequest.refl (p : Proc) : p.SameRequest p := ⟨rfl, rfl, rfl, rfl, rfl, rfl⟩

section

variable (s : Server) (p : Proc) (maps : Maps)

section

variable (ctx : RoutingContext) (e : Entries)

lemma mem_cleanupInflightCounters :
    ∀ op ∈ (cleanupInflightCounters ctx e).2,
      e.timing.isSome = true ∧ op.OfRelease ∧ op.OfResponse := by
  unfold cleanupInflightCounters
  split
  · rename_i ht
    split
    · simp
    · exact fun op ho => ⟨by simp [ht], mem_releaseOps _ _ _ op ho⟩
  · simp

lemma mem_cleanupPerRequestState :
    ∀ op ∈ (cleanupPerRequestState ctx e).2, op.OfExit := by
  unfold cleanupPerRequestState
  split
  · simp
  · split <;> simp [Op.OfExit]

lemma mem_cleanup : ∀ op ∈ (cleanup ctx e).2,
    op.OfExit ∨ e.timing.isSome = true ∧ op.OfRelease ∧ op.OfResponse := by
  intro op ho
  rcases mem_append.mp ho with ho | ho
  · exact .inr (mem_cleanupInflightCounters ctx e op ho)
  · exact .inl (mem_cleanupPerRequestState ctx _ op ho)

lemma later_cleanup : ∀ op ∈ (cleanup ctx e).2, op.Later :=
  fun op ho => (mem_cleanup ctx e op ho).elim Op.OfExit.later fun h => h.2.2.later

end

lemma mem_exit : ∀ op ∈ (p.exit maps).2, op.OfExit ∨ ∃ ctx, p.routerCtx = some ctx ∧
    (maps ctx.requestID).timing.isSome = true ∧ op.OfRelease ∧ op.OfResponse := by
  unfold Proc.exit Proc.cleanupAtExit
  cases p.routerCtx with
  | none => simp
  | some ctx =>
    intro op ho
    rcases mem_append.mp ho with ho | ho
    · split at ho
      · split at ho
        · exact absurd ho not_mem_nil
        · exact (mem_cleanup ctx _ op ho).imp id fun h => ⟨ctx, rfl, h⟩
      · exact .inl (mem_cleanupPerRequestState ctx _ op ho)
    · split at ho
      · obtain rfl := List.mem_singleton.mp ho
        exact .inl trivial
      · exact absurd ho not_mem_nil

lemma later_exit : ∀ op ∈ (p.exit maps).2, op.Later := fun op ho =>
  (mem_exit p maps op ho).elim Op.OfExit.later fun ⟨_, _, _, _, h⟩ => h.later

/-- A turn that changes neither the request nor what is known about its progress: it makes
at most calls of the rate limiter and leaves all timing records alone. -/
structure Idle (t : Turn) : Prop where
  same : p.SameRequest t.proc
  completed : t.proc.completed = p.completed
  requestCounted : t.proc.requestCounted = p.requestCounted
  inflightCleaned : t.proc.inflightCleaned = p.inflightCleaned
  timing : ∀ id, (t.maps id).timing = (maps id).timing
  ops : ∀ op ∈ t.ops, ∃ username, op = .incrRPM username

variable {p maps} in
lemma Idle.later {t : Turn} (h : Idle p maps t) : ∀ op ∈ t.ops, op.Later := by
  intro op ho
  obtain ⟨username, rfl⟩ := h.ops op ho
  trivial

lemma idle_onRequestHeaders (headers : List HeaderValue) (env : HeadersEnv) :
    Idle p maps (p.onRequestHeaders s maps headers env) := by
  obtain ⟨he, ho, -⟩ := handleRequestHeaders_spec s env headers (maps (getRequestID headers))
  have ht : (handleRequestHeaders s env headers (maps (getRequestID headers))).entries.timing =
      (maps (getRequestID headers)).timing := by rw [he]
  have ht := field_update Entries.timing ht
  unfold Proc.onRequestHeaders
  dsimp only
  split <;> exact ⟨⟨rfl, rfl, rfl, rfl, rfl, rfl⟩, rfl, rfl, rfl, ht, ho⟩

lemma idle_onResponseHeaders (headers : List HeaderValue) :
    Idle p maps (p.onResponseHeaders maps headers) := by
  unfold Proc.onResponseHeaders
  cases hr : p.routerCtx with
  | none => exact ⟨.refl p, rfl, rfl, rfl, fun _ => rfl, by simp⟩
  | some ctx =>
    obtain ⟨⟨code, he⟩, ho⟩ :=
      handleResponseHeaders_spec p.ctx ctx.requestID headers (maps ctx.requestID)
    have ht : (handleResponseHeaders p.ctx ctx.requestID headers (maps ctx.requestID)).entries.timing =
        (maps ctx.requestID).timing := by rw [he]
    have ht := field_update Entries.timing ht
    dsimp only
    split
    · split <;> exact ⟨⟨rfl, hr.symm ▸ rfl, rfl, rfl, rfl, rfl⟩, rfl, rfl, rfl, ht, by simp [ho]⟩
    · exact ⟨.refl p, rfl, rfl, rfl, ht, by simp [ho]⟩
    · exact ⟨.refl p, rfl, rfl, rfl, ht, by simp [ho]⟩

/-- **Headers and unknown messages** leave the turn idle. -/
lemma idle_onMessage {msg : Message} (hreq : msg.isRequestBody = false)
    (hresp : ∀ body env, msg ≠ .responseBody body env) : Idle p maps (p.onMessage s maps msg) := by
  cases msg with
  | requestHeaders headers env => exact idle_onRequestHeaders s p maps headers env
  | requestBody body env => simp [Message.isRequestBody] at hreq
  | responseHeaders headers => exact idle_onResponseHeaders p maps headers
  | responseBody msg env => exact absurd rfl (hresp msg env)
  | unknown => exact ⟨.refl p, rfl, rfl, rfl, fun _ => rfl, by simp [Proc.onMessage]⟩

lemma responseBody_or_idle {msg : Message} (h : msg.isRequestBody = false) :
    (∃ body env, msg = .responseBody body env) ∨ Idle p maps (p.onMessage s maps msg) := by
  by_cases hm : ∃ body env, msg = .responseBody body env
  · exact .inl hm
  · exact .inr (idle_onMessage s p maps h fun body env heq => hm ⟨body, env, heq⟩)

lemma routingContext_of_idle {msg : Message} (hreq : msg.isRequestBody = false)
    (hresp : ∀ body env, msg ≠ .responseBody body env) (id : String) :
    ((p.onMessage s maps msg).maps id).routingContext = (maps id).routingContext := by
  cases msg with
  | requestBody body env => simp [Message.isRequestBody] at hreq
  | responseBody msg env => exact absurd rfl (hresp msg env)
  | unknown => rfl
  | requestHeaders headers env =>
    obtain ⟨he, -⟩ := handleRequestHeaders_spec s env headers (maps (getRequestID headers))
    have hrc := congrArg Entries.routingContext he
    have hrec := field_update (g := maps) Entries.routingContext hrc id
    simp only [Proc.onMessage, Proc.onRequestHeaders]
    split <;> exact hrec
  | responseHeaders headers =>
    simp only [Proc.onMessage, Proc.onResponseHeaders]
    cases p.routerCtx with
    | none => rfl
    | some ctx =>
      obtain ⟨⟨code, he⟩, -⟩ :=
        handleResponseHeaders_spec p.ctx ctx.requestID headers (maps ctx.requestID)
      have hrc := congrArg Entries.routingContext he
      have hrec := field_update (g := maps) Entries.routingContext hrc id
      dsimp only
      split
      · split <;> exact hrec
      · exact hrec
      · exact hrec

lemma later_onErrorBody (msg : ResponseBody) : (∀ op ∈ (p.onErrorBody maps msg).ops, op.Later) ∧
      p.SameRequest (p.onErrorBody maps msg).proc := by
  unfold Proc.onErrorBody
  cases hr : p.routerCtx with
  | none => exact ⟨by simp, .refl p⟩
  | some ctx =>
    dsimp only
    split
    · exact ⟨by simp, .refl p⟩
    · split
      · exact ⟨by simp, .refl p⟩
      · exact ⟨later_cleanup ctx _, rfl, hr.symm, rfl, rfl, rfl, rfl⟩

lemma sameRequest_afterResponse (resp : ProcessingResponse) (completed : Bool) :
    p.SameRequest (p.afterResponse maps resp completed).1 := by
  unfold Proc.afterResponse
  split
  · cases hr : p.routerCtx with
    | none | some => exact ⟨rfl, hr.symm ▸ rfl, rfl, rfl, rfl, rfl⟩
  · exact ⟨rfl, rfl, rfl, rfl, rfl, rfl⟩

lemma later_handle (c : ResponseCall) (hasCompleted : Bool) (e : Entries) :
    ∀ op ∈ (c.handle hasCompleted e).ops, op.Later := by
  obtain ⟨ops, done, ho, hr, hstuck, hdone⟩ := c.handle_calls hasCompleted e
  rw [ho]
  intro op hop
  rcases mem_append.mp hop with hop | hop
  · exact (hr op hop).later
  · cases hout : (c.handle hasCompleted e).outcome with
    | returned r =>
      obtain ⟨promptTokens, completionTokens, rfl⟩ := hdone r.1 r.2 hout
      split at hop
      · obtain rfl := List.mem_singleton.mp hop
        trivial
      · exact absurd hop not_mem_nil
    | blocked | panicked => simp [hstuck (by simp [hout])] at hop

lemma later_onResponseBody (msg : ResponseBody) (env : ResponseEnv) :
    (∀ op ∈ (p.onResponseBody s maps msg env).ops, op.Later) ∧
      p.SameRequest (p.onResponseBody s maps msg env).proc := by
  unfold Proc.onResponseBody
  split
  · exact later_onErrorBody p maps msg
  · cases p.ctx with
    | none => exact ⟨by simp, .refl p⟩
    | some ctx =>
      have hl := later_handle (p.responseCall s ctx msg env) p.completed (maps ctx.requestID)
      dsimp only
      split
      · exact ⟨hl, sameRequest_afterResponse p _ _ _⟩
      · exact ⟨hl, .refl p⟩
      · exact ⟨hl, .refl p⟩

/-- **A message that is not a request body** leaves the request as it is and makes only
later calls. -/
lemma later_onMessage {msg : Message} (h : msg.isRequestBody = false) :
    (∀ op ∈ (p.onMessage s maps msg).ops, op.Later) ∧
      p.SameRequest (p.onMessage s maps msg).proc := by
  rcases responseBody_or_idle s p maps h with ⟨body, env, rfl⟩ | hidle
  · exact later_onResponseBody s p maps body env
  · exact ⟨hidle.later, hidle.same⟩

lemma status_onMessage (msg : Message) : (p.onMessage s maps msg).proc.status = p.status := by
  cases hm : msg.isRequestBody with
  | false => exact (later_onMessage s p maps hm).2.status
  | true =>
    obtain ⟨body, env, rfl⟩ := Message.eq_requestBody hm
    simp only [Proc.onMessage, Proc.onRequestBody]
    split
    · unfold Proc.afterBody
      split <;> rfl
    · rfl
    · rfl

end

/-- The calls that a stream has made or queued, in their order. -/
def Stream.calls (t : Stream) : List Op := t.performed ++ t.pending

/-! ### Streams before their request body -/

structure Proc.Untouched (p : Proc) : Prop where
  ctx : p.ctx = none
  routerCtx : p.routerCtx = none
  isRespError : p.isRespError = false
  completed : p.completed = false
  requestCounted : p.requestCounted = false
  inflightCleaned : p.inflightCleaned = false

lemma untouched_onMessage (s : Server) {p : Proc} (h : p.Untouched) (maps : Maps) {msg : Message}
    (hm : msg.isRequestBody = false) : (p.onMessage s maps msg).proc.Untouched := by
  obtain ⟨h₁, h₂, h₃, h₄, h₅, h₆⟩ := h
  cases msg with
  | requestHeaders headers env =>
    simp only [Proc.onMessage, Proc.onRequestHeaders]
    split <;> exact ⟨h₁, h₂, h₃, h₄, h₅, h₆⟩
  | requestBody body env => simp [Message.isRequestBody] at hm
  | responseHeaders headers =>
    simp only [Proc.onMessage, Proc.onResponseHeaders, h₂]
    exact ⟨h₁, h₂, h₃, h₄, h₅, h₆⟩
  | responseBody msg env =>
    simp only [Proc.onMessage, Proc.onResponseBody, h₁, h₃]
    exact ⟨h₁, h₂, h₃, h₄, h₅, h₆⟩
  | unknown => exact ⟨h₁, h₂, h₃, h₄, h₅, h₆⟩

lemma receive_cases (s : Server) (p : Proc) (maps : Maps) (msg : Message) (sendFails : Bool) :
    let t := p.onMessage s maps msg
    p.receive s maps msg sendFails =
        ({ t.proc with status := .ended }, (t.proc.exit t.maps).1, t.ops ++ (t.proc.exit t.maps).2) ∨
      (∃ resp, t.outcome = .returned resp) ∧
        p.receive s maps msg sendFails = (t.proc, t.maps, t.ops) ∨
      p.receive s maps msg sendFails = ({ t.proc with status := .blocked }, t.maps, t.ops) := by
  intro t
  simp only [Proc.receive]
  cases t.outcome with
  | returned resp =>
    cases sendFails with
    | true => exact .inl (by simp [t])
    | false => exact .inr (.inl ⟨⟨resp, rfl⟩, by simp [t]⟩)
  | blocked => exact .inr (.inr (by simp [t]))
  | panicked => exact .inl (by simp [t])

section

variable {ι : Type*}

/-- The event is a request body on stream `i`. -/
def Event.isBodyOf [DecidableEq ι] (i : ι) : Event ι → Bool
  | .receive j msg _ => i = j && msg.isRequestBody
  | _ => false

def System.FirstBody (σ : System ι) : Event ι → Prop
  | .receive i msg _ => msg.isRequestBody = true → (σ.streams i).proc.Untouched
  | _ => True

variable [DecidableEq ι] {s : Server} {σ : System ι} {i : ι}

lemma calls_perform (σ : System ι) (j k : ι) : ((σ.perform j).streams k).proc = (σ.streams k).proc ∧
      ((σ.perform j).streams k).calls = (σ.streams k).calls := by
  unfold System.perform
  cases hp : (σ.streams j).pending with
  | nil => exact ⟨rfl, rfl⟩
  | cons op ops =>
    by_cases hk : k = j
    · subst hk
      simp [Stream.calls, hp]
    · simp [hk]

/-- **One event, as one stream sees it**: it takes a message, or it is closed, or its variables and
its calls stay. -/
lemma System.stream_step (s : Server) (σ : System ι) (e : Event ι) (i : ι) :
    let t := σ.streams i
    let t' := (σ.step s e).streams i
    (t'.proc = t.proc ∧ t'.calls = t.calls) ∨ System.ready t = true ∧
      ((∃ msg sendFails, e = .receive i msg sendFails ∧
        let next := t.proc.receive s σ.maps msg sendFails
        t'.proc = next.1 ∧ t'.calls = t.calls ++ next.2.2) ∨
      e = .stop i ∧ t'.proc = { t.proc with status := .ended } ∧
        t'.calls = t.calls ++ (t.proc.exit σ.maps).2) := by
  intro t t'
  have hact : ∀ {p maps ops}, System.ready (σ.streams i) = true →
      ((σ.advance i p maps ops).streams i).proc = p ∧
        ((σ.advance i p maps ops).streams i).calls = (σ.streams i).calls ++ ops := by
    intro p maps ops hr
    have hp : (σ.streams i).pending = [] := by simpa [System.ready] using (of_decide_eq_true hr).2
    simp [System.advance, Stream.calls, hp]
  have hother : ∀ {j p maps ops}, i ≠ j → (σ.advance j p maps ops).streams i = σ.streams i :=
    fun hij => update_of_ne hij ..
  cases e with
  | receive j msg sendFails =>
    simp only [t', System.step]
    split
    · by_cases hij : i = j
      · subst hij
        exact .inr ⟨‹_›, .inl ⟨msg, sendFails, rfl, hact ‹_›⟩⟩
      · exact .inl (by simp [t, hother hij])
    · exact .inl ⟨rfl, rfl⟩
  | stop j =>
    simp only [t', System.step]
    split
    · by_cases hij : i = j
      · subst hij
        exact .inr ⟨‹_›, .inr ⟨rfl, hact ‹_›⟩⟩
      · exact .inl (by simp [t, hother hij])
    · exact .inl ⟨rfl, rfl⟩
  | perform j => exact .inl (calls_perform σ j i)
  | evict now order => exact .inl ⟨rfl, rfl⟩

lemma untouched_step {e : Event ι} (h : (σ.streams i).proc.Untouched)
    (he : e.isBodyOf i = false) : ((σ.step s e).streams i).proc.Untouched := by
  rcases System.stream_step s σ e i with ⟨hp, -⟩ | ⟨-, ⟨msg, sendFails, rfl, hp, -⟩ | ⟨rfl, hp, -⟩⟩
  · rwa [hp]
  · rw [hp]
    obtain ⟨h₁, h₂, h₃, h₄, h₅, h₆⟩ := untouched_onMessage s h σ.maps
      (by simpa [Event.isBodyOf] using he)
    rcases receive_cases s (σ.streams i).proc σ.maps msg sendFails with hr | ⟨-, hr⟩ | hr <;>
      (rw [hr]; exact ⟨h₁, h₂, h₃, h₄, h₅, h₆⟩)
  · rw [hp]
    exact ⟨h.ctx, h.routerCtx, h.isRespError, h.completed, h.requestCounted, h.inflightCleaned⟩

lemma along_firstBody {es : List (Event ι)} (hone : ∀ i, es.countP (Event.isBodyOf i) ≤ 1)
    (h : ∀ i, (σ.streams i).proc.Untouched ∨ es.countP (Event.isBodyOf i) = 0) :
    Along (System.step s) System.FirstBody σ es := by
  induction es generalizing σ with
  | nil => exact trivial
  | cons e es ih =>
    constructor
    · cases e with
      | receive i msg sendFails =>
        intro hm
        refine (h i).resolve_right fun h0 => ?_
        simp [Event.isBodyOf, hm] at h0
      | _ => trivial
    · refine ih (fun i => ((sublist_cons_self e es).countP_le).trans (hone i)) fun i => ?_
      by_cases he : e.isBodyOf i = true
      · have := hone i
        rw [countP_cons_of_pos he] at this
        exact .inr (by omega)
      · have hi := h i
        rw [countP_cons_of_neg he] at hi
        exact hi.imp (fun hu => untouched_step hu (by simpa using he)) id

omit [DecidableEq ι] in
lemma untouched_start (counters : Counters) (preble : Routing.Router) (i : ι) :
    ((System.start counters preble : System ι).streams i).proc.Untouched :=
  ⟨rfl, rfl, rfl, rfl, rfl, rfl⟩

end
end Lodestar.Gateway
