import Lodestar.Lib.Pairing
import Lodestar.Gateway.Completed
import Lodestar.Gateway.Streams

/-!
# The request counts of the pod cache

`HandleRequestBody` adds a request to the counts of the pod cache, and either the deferred
call of `HandleResponseBody` that completes the request or the deferred function of
`Process` takes it off.  The flag `requestCounted` says that the request still has to be
taken off.

Two things go wrong.  Without a routing strategy the request is added although the flag is
only set for a routed request, so nobody takes it off.  And a request that is complete can
become incomplete again: a streamed chunk starts its completion from `false`, and where the
usage was only seen by the second of the two decoders, the next chunk forgets it; the end
of the stream then takes the request off once more.  `requestCounts_run` says that outside
of these, and of bodies that come when they should not, the calls are paired.
-/

namespace Lodestar.Gateway

open Lib List

/-! ### Marks -/

/-- What the calls of one request have in common: the target, the ID and the model. -/
abbrev CountKey := Option Pod × String × String

/-- A call that adds a request to the counts or takes it off. -/
def Op.mark : Op → Option (Mark CountKey)
  | .addRequestCount targetPod requestID model => some (.start (targetPod, requestID, model))
  | .doneRequestCount targetPod requestID model _ => some (.finish (targetPod, requestID, model))
  | .doneRequestTrace targetPod requestID model _ _ _ => some (.finish (targetPod, requestID, model))
  | _ => none

def countCalls (ops : List Op) : List (Mark CountKey) := ops.filterMap Op.mark

@[simp]
lemma countCalls_nil : countCalls [] = [] := rfl

lemma countCalls_append (ops ops' : List Op) :
    countCalls (ops ++ ops') = countCalls ops ++ countCalls ops' :=
  filterMap_append

lemma countCalls_of_response {ops : List Op} (h : ∀ op ∈ ops, op.OfResponse) :
    countCalls ops = [] := by
  refine filterMap_eq_nil_iff.mpr fun op ho => ?_
  have := h op ho
  cases op <;> first | rfl | exact this.elim

lemma countCalls_cleanupPerRequestState (ctx : RoutingContext) (e : Entries) :
    countCalls (cleanupPerRequestState ctx e).2 = [] := by
  unfold cleanupPerRequestState
  split
  · rfl
  · split <;> rfl

lemma countCalls_cleanup (ctx : RoutingContext) (e : Entries) :
    countCalls (cleanup ctx e).2 = [] := by
  unfold cleanup
  rw [countCalls_append, countCalls_of_response fun op ho => (mem_cleanupInflightCounters ctx e op ho).2.2,
    countCalls_cleanupPerRequestState, nil_append]

def Proc.countKey (p : Proc) : Option CountKey :=
  if p.requestCounted then p.routerCtx.map fun ctx => (ctx.targetPod, ctx.requestID, p.model)
  else none

lemma countCalls_exit (p : Proc) (maps : Maps) :
    countCalls (p.exit maps).2 = (p.countKey.map Mark.finish).toList := by
  unfold Proc.exit Proc.countKey Proc.cleanupAtExit
  cases p.routerCtx with
  | none => simp
  | some ctx =>
    have hclean : countCalls (if ctx.hasRouted = true then
        if p.inflightCleaned = true then (maps ctx.requestID, []) else cleanup ctx (maps ctx.requestID)
        else cleanupPerRequestState ctx (maps ctx.requestID)).2 = [] := by
      split
      · split
        · rfl
        · exact countCalls_cleanup ctx _
      · exact countCalls_cleanupPerRequestState ctx _
    rw [countCalls_append, hclean]
    split
    · rfl
    · rfl

lemma countCalls_of_idle {p : Proc} {maps : Maps} {t : Turn} (h : Idle p maps t) :
    countCalls t.ops = [] := by
  refine filterMap_eq_nil_iff.mpr fun op ho => ?_
  obtain ⟨username, rfl⟩ := h.ops op ho
  rfl

/-! ### One turn -/

/-- The flag agrees with the calls: it is set exactly while a call without its counterpart
is out, for the request at hand, and a routed request that is not complete has it set. -/
structure Counted (p : Proc) (l : List (Mark CountKey)) : Prop where
  off : p.requestCounted = false → Paired l
  on : p.requestCounted = true → ∃ ctx, p.routerCtx = some ctx ∧ p.ctx = some ctx ∧
    Open (ctx.targetPod, ctx.requestID, p.model) l
  routed : ∀ ctx, p.ctx = some ctx → ctx.hasRouted = true → p.completed = false →
    p.requestCounted = true

/-- The body is turned down before the routing strategy is looked at. -/
def turnsDown (s : Server) (env : BodyEnv) (body : String) (user : User) : Bool :=
  match s.jsonMap body with
  | .error _ => true
  | .ok m => (m.string "model").getD "" = "" || !env.hasModel ||
      (filterRoutablePods (env.pods.getD [])).isEmpty ||
      (m.bool "stream").getD false && (validateStreamOptions user m).isSome

/-- A request body that can be counted: no request is counted yet, and the request has a
routing strategy or is turned down. -/
def BodyCounts (s : Server) (p : Proc) (body : String) (env : BodyEnv) : Prop :=
  p.requestCounted = false ∧
    (p.routingAlgorithm = routerNotSet → turnsDown s env body p.user = true)

/-- A chunk that can be counted: the request is routed, and a request that is complete
stays complete. -/
def StaysComplete (s : Server) (p : Proc) (maps : Maps) (msg : ResponseBody) (env : ResponseEnv) :
    Prop :=
  p.isRespError = false → ∀ ctx ∈ p.ctx, ctx.hasRouted = true ∧
    (p.completed = true → p.stream = true → (maps ctx.requestID).timing.isSome = true →
      let c := p.responseCall s ctx msg env
      let decoded := s.events msg.body
      let usage := c.firstUsage (maps ctx.requestID)
      msg.endOfStream = true ∨ decoded.2.isSome = true ∨ 0 < usage.totalTokens ∨
        (ResponseCall.usageOfEvents usage decoded.1).totalTokens ≠ 0)

section

variable {s : Server} {p : Proc} {maps : Maps} {l : List (Mark CountKey)}

lemma Counted.of_same {q : Proc} (h : Counted p l) (hs : p.SameRequest q)
    (hcomp : q.completed = p.completed) (hcount : q.requestCounted = p.requestCounted) :
    Counted q l := by
  obtain ⟨hoff, hon, hrouted⟩ := h
  refine ⟨fun hq => hoff (hcount ▸ hq), fun hq => ?_, fun ctx hctx hr hq => ?_⟩
  · rw [hs.routerCtx, hs.ctx, hs.model]
    exact hon (hcount ▸ hq)
  · rw [hcount]
    exact hrouted ctx (hs.ctx ▸ hctx) hr (hcomp ▸ hq)

/-- **The deferred function** closes what is open. -/
lemma Counted.exit (h : Counted p l) (maps : Maps) : Paired (l ++ countCalls (p.exit maps).2) := by
  rw [countCalls_exit]
  unfold Proc.countKey
  cases hc : p.requestCounted with
  | false =>
    simpa using h.off hc
  | true =>
    obtain ⟨ctx, hr, -, ho⟩ := h.on hc
    rw [hr]
    exact ho.finish

lemma completed_of_staysComplete {ctx : RoutingContext} (hctx : p.ctx = some ctx)
    {msg : ResponseBody} {env : ResponseEnv} (hok : StaysComplete s p maps msg env)
    (hresp : p.isRespError = false) (hp : p.completed = true) {resp : ProcessingResponse}
    {completed : Bool}
    (hout : ((p.responseCall s ctx msg env).handle true (maps ctx.requestID)).outcome =
      .returned (resp, completed)) : completed = true := by
  obtain ⟨-, hstay⟩ := hok hresp ctx hctx
  cases ht : (maps ctx.requestID).timing with
  | none => exact ResponseCall.completed_of_completed hout (.inl ht)
  | some timing =>
    cases hs : p.stream with
    | false => exact ResponseCall.completed_of_completed hout (.inr hs)
    | true =>
      rcases hstay hp hs (by rw [ht]; rfl) with hend | hrest
      · exact ResponseCall.completed_of_endOfStream hout hend
      · exact ResponseCall.completed_of_streamed hout hs ht hrest

lemma Counted.onErrorBody (h : Counted p l) (msg : ResponseBody) :
    Counted (p.onErrorBody maps msg).proc (l ++ countCalls (p.onErrorBody maps msg).ops) := by
  unfold Proc.onErrorBody
  cases hr : p.routerCtx with
  | none => simpa using h
  | some ctx =>
    dsimp only
    split
    · simpa using h
    · split
      · simpa using h
      · rw [countCalls_cleanup, append_nil]
        exact h.of_same ⟨rfl, hr.symm, rfl, rfl, rfl, rfl⟩ rfl rfl

attribute [local simp] Proc.afterResponse

/-- **A response body** takes the request off exactly when it completes it. -/
lemma Counted.onResponseBody (h : Counted p l) {msg : ResponseBody} {env : ResponseEnv}
    (hok : StaysComplete s p maps msg env) :
    Counted (p.onResponseBody s maps msg env).proc
      (l ++ countCalls (p.onResponseBody s maps msg env).ops) := by
  unfold Proc.onResponseBody
  cases hresp : p.isRespError with
  | true =>
    exact h.onErrorBody msg
  | false =>
    rw [if_neg (by simp)]
    cases hctx : p.ctx with
    | none => simpa using h
    | some ctx =>
      dsimp only
      obtain ⟨ops, done, ho, hr, hstuck, hdone⟩ :=
        (p.responseCall s ctx msg env).handle_calls p.completed (maps ctx.requestID)
      have hops : countCalls ((p.responseCall s ctx msg env).handle p.completed
          (maps ctx.requestID)).ops = countCalls done := by
        rw [ho, countCalls_append, countCalls_of_response hr, nil_append]
      cases hout : ((p.responseCall s ctx msg env).handle p.completed
          (maps ctx.requestID)).outcome with
      | blocked | panicked =>
        rw [hstuck (by simp [hout])] at hops
        simpa [hops] using h
      | returned r =>
        obtain ⟨resp, completed⟩ := r
        obtain ⟨promptTokens, completionTokens, rfl⟩ := hdone resp completed hout
        rw [hops]
        generalize Function.update maps ctx.requestID ((p.responseCall s ctx msg env).handle
          p.completed (maps ctx.requestID)).entries = maps'
        have hsame := sameRequest_afterResponse p maps' resp completed
        cases hp : p.completed with
        | true =>
          rw [hp] at hout
          obtain rfl := completed_of_staysComplete hctx hok hresp hp hout
          rw [if_neg (by simp), countCalls_nil, append_nil]
          refine h.of_same hsame ?_ ?_ <;> simp [hp]
        | false =>
          have hcounted := h.routed ctx hctx (hok hresp ctx hctx).1 hp
          obtain ⟨ctx', hr', hctx', hopen⟩ := h.on hcounted
          obtain rfl : ctx' = ctx := by simpa [hctx] using hctx'.symm
          cases completed with
          | false =>
            rw [if_neg (by simp), countCalls_nil, append_nil]
            refine h.of_same hsame ?_ ?_ <;> simp [hp]
          | true =>
            -- the request is taken off and the flag cleared
            refine ⟨fun _ => hopen.finish, ?_, ?_⟩
            · simp [hp, hr']
            · simp [hp, hr']

attribute [local simp] Proc.afterBody

lemma handleRequestBody_turnsDown {env : BodyEnv} {body : String} {user : User} {e : Entries}
    (h : turnsDown s env body user = true) (requestID routingAlgorithm : String) :
    ∃ r : BodyResult, r.routingCtx = none ∧
      handleRequestBody s env requestID body user routingAlgorithm e = ⟨e, [], .returned r⟩ := by
  unfold turnsDown at h
  unfold handleRequestBody
  cases hm : s.jsonMap body with
  | error err => exact ⟨_, rfl, rfl⟩
  | ok m =>
    simp only [hm, Bool.or_eq_true, Bool.and_eq_true, decide_eq_true_eq, Bool.not_eq_true',
      List.isEmpty_iff] at h
    dsimp only
    by_cases hmodel : (m.string "model").getD "" = ""
    · rw [if_pos hmodel]
      exact ⟨_, rfl, rfl⟩
    by_cases hhas : env.hasModel = false
    · rw [if_neg hmodel, if_pos hhas]
      exact ⟨_, rfl, rfl⟩
    by_cases hpods : filterRoutablePods (env.pods.getD []) = []
    · rw [if_neg hmodel, if_neg hhas, if_pos hpods]
      exact ⟨_, rfl, rfl⟩
    simp only [hmodel, hhas, hpods, false_or, reduceCtorEq] at h
    obtain ⟨resp, hresp⟩ := Option.isSome_iff_exists.mp h.2
    rw [if_neg hmodel, if_neg hhas, if_neg hpods, if_pos h.1, hresp]
    exact ⟨_, rfl, rfl⟩

/-- **A request body** is added exactly when the flag is set for it. -/
lemma Counted.onRequestBody (h : Counted p l) {body : String} {env : BodyEnv}
    (hok : BodyCounts s p body env) :
    Counted (p.onRequestBody s maps body env).proc
      (l ++ countCalls (p.onRequestBody s maps body env).ops) := by
  obtain ⟨hcount, hset⟩ := hok
  have hpaired := h.off hcount
  unfold Proc.onRequestBody
  have hcase := @handleRequestBody_cases s env (maps p.requestID) p.requestID body p.user
    p.routingAlgorithm
  generalize heq : handleRequestBody s env p.requestID body p.user p.routingAlgorithm
    (maps p.requestID) = handled at hcase
  -- a request that is not routed leaves the flag and the old context as they are
  have hold : ∀ r : BodyResult, r.routingCtx = none → Counted (p.afterBody r) l := by
    intro r hr
    refine ⟨fun _ => hpaired, ?_, ?_⟩
    · simp [hr, hcount]
    · simpa [hr] using h.routed
  have hunrouted : ∀ (r : BodyResult) ctx, r.routingCtx = some ctx → ctx.targetPod = none →
      Counted (p.afterBody r) l := by
    intro r ctx hr hp
    have hnot : ctx.hasRouted = false := by simp [RoutingContext.hasRouted, hp]
    refine ⟨fun _ => hpaired, ?_, ?_⟩
    · simp [hr, hcount, hnot]
    · intro ctx' hctx' hrouted
      obtain rfl : ctx = ctx' := by simpa [hr] using hctx'
      simp [hnot] at hrouted
  cases hcase with
  | rejected r hr => simpa using hold r hr
  | notRouted r model hr halg =>
    obtain ⟨r', hr', hhandled⟩ := handleRequestBody_turnsDown (hset halg) p.requestID
      p.routingAlgorithm
    rw [hhandled] at heq
    exact absurd heq (by simp)
  | noMessage r ctx hr hrid hp => simpa using hunrouted r ctx hr hp
  | failed r ctx pods e' ops message hr hrid hp hc hsel =>
    have hsel : countCalls ops = [] := filterMap_selectTargetPod hsel fun _ => rfl
    simpa [hsel] using hunrouted r ctx hr hp
  | blocked _ _ _ _ _ hsel | panicked _ _ _ _ _ hsel =>
    simpa [countCalls, filterMap_selectTargetPod (f := Op.mark) hsel fun _ => rfl] using h
  | routed r ctx pods pod timing e' ops hrid hr hmodel hc htiming hfirst hsel =>
    have hops : countCalls (ops ++ [incrementNumInflightForPod pod.podIP,
        incrementNumInflightPrefillRequestsForPod pod.podIP,
        incrementNumInflightPrefillTokensForPod pod.podIP timing.prefillTokenCount,
        .addRequestCount (some pod) ctx.requestID ctx.model]) =
          [.start (some pod, ctx.requestID, ctx.model)] := by
      rw [countCalls_append, countCalls, filterMap_selectTargetPod hsel fun _ => rfl]
      rfl
    rw [hops]
    refine ⟨?_, fun _ => ⟨{ ctx with targetPod := some pod }, ?_, ?_, ?_⟩, ?_⟩
    · simp [hr, RoutingContext.hasRouted]
    · simp [hr]
    · simp [hr]
    · have hm : (p.afterBody r).model = ctx.model := by simp [hr, hmodel]
      rw [hm]
      exact hpaired.start _
    · intro ctx' hctx' hrouted _
      simp [hr, RoutingContext.hasRouted]

def MessageCounts (s : Server) (p : Proc) (maps : Maps) : Message → Prop
  | .requestBody body env => BodyCounts s p body env
  | .responseBody msg env => StaysComplete s p maps msg env
  | _ => True

lemma Counted.onMessage (h : Counted p l) {msg : Message} (hok : MessageCounts s p maps msg) :
    Counted (p.onMessage s maps msg).proc (l ++ countCalls (p.onMessage s maps msg).ops) := by
  have hidle : msg.isRequestBody = false → (∀ body env, msg ≠ .responseBody body env) →
      Counted (p.onMessage s maps msg).proc (l ++ countCalls (p.onMessage s maps msg).ops) := by
    intro hreq hresp
    have hi := idle_onMessage s p maps hreq hresp
    rw [countCalls_of_idle hi, append_nil]
    exact h.of_same hi.same hi.completed hi.requestCounted
  cases msg with
  | requestBody body env => exact h.onRequestBody hok
  | responseBody body env => exact h.onResponseBody hok
  | requestHeaders | responseHeaders | unknown => exact hidle rfl (by simp)

/-- What is known of the calls of a stream on the counts. -/
structure Counting (p : Proc) (l : List (Mark CountKey)) : Prop where
  seen : Paired l ∨ ∃ k, Open k l
  running : p.status = .running → Counted p l
  ended : p.status = .ended → Paired l

lemma Counted.seen (h : Counted p l) : Paired l ∨ ∃ k, Open k l := by
  cases hc : p.requestCounted with
  | false => exact .inl (h.off hc)
  | true =>
    obtain ⟨ctx, -, -, ho⟩ := h.on hc
    exact .inr ⟨_, ho⟩

lemma Counted.ends (h : Counted p l) (maps : Maps) :
    Counting { p with status := .ended } (l ++ countCalls (p.exit maps).2) :=
  ⟨.inl (h.exit maps), by simp, fun _ => h.exit maps⟩

lemma Counted.receive (h : Counted p l) (hrun : p.status = .running) {msg : Message}
    (hok : MessageCounts s p maps msg) (sendFails : Bool) :
    Counting (p.receive s maps msg sendFails).1
      (l ++ countCalls (p.receive s maps msg sendFails).2.2) := by
  have hturn := h.onMessage hok
  rcases receive_cases s p maps msg sendFails with hr | ⟨-, hr⟩ | hr
  · rw [hr, countCalls_append, ← append_assoc]
    exact hturn.ends _
  · rw [hr]
    refine ⟨hturn.seen, fun _ => hturn, fun hended => ?_⟩
    rw [status_onMessage, hrun] at hended
    simp at hended
  · rw [hr]
    exact ⟨hturn.seen, by simp, by simp⟩

end

/-! ### A stream among others -/

section

variable {ι : Type*} {s : Server} {σ : System ι} {i : ι}

/-- What has to hold before an event for the calls of stream `i` to be paired. -/
def CountOk (s : Server) (i : ι) (σ : System ι) : Event ι → Prop
  | .receive j msg _ => j = i → System.ready (σ.streams i) = true →
      MessageCounts s (σ.streams i).proc σ.maps msg
  | _ => True

instance (s : Server) (p : Proc) (body : String) (env : BodyEnv) :
    Decidable (BodyCounts s p body env) := by unfold BodyCounts; infer_instance

instance (s : Server) (p : Proc) (maps : Maps) (msg : ResponseBody) (env : ResponseEnv) :
    Decidable (StaysComplete s p maps msg env) := by unfold StaysComplete; infer_instance

instance (s : Server) (p : Proc) (maps : Maps) : ∀ msg, Decidable (MessageCounts s p maps msg)
  | .requestBody _ env => inferInstanceAs (Decidable (BodyCounts s p _ env))
  | .responseBody msg env => inferInstanceAs (Decidable (StaysComplete s p maps msg env))
  | .requestHeaders _ _ | .responseHeaders _ | .unknown => isTrue trivial

variable [DecidableEq ι]

instance (s : Server) (i : ι) (σ : System ι) : ∀ e, Decidable (CountOk s i σ e)
  | .receive _ _ _ => by unfold CountOk; infer_instance
  | .stop _ | .perform _ | .evict _ _ => isTrue trivial

/-- **One event** keeps the calls of a stream paired. -/
lemma counting_step (h : Counting (σ.streams i).proc (countCalls (σ.streams i).calls))
    {e : Event ι} (hok : CountOk s i σ e) :
    Counting ((σ.step s e).streams i).proc (countCalls ((σ.step s e).streams i).calls) := by
  rcases System.stream_step s σ e i with ⟨hp, hc⟩ | ⟨hready, ⟨msg, sendFails, rfl, hp, hc⟩ | ⟨rfl, hp, hc⟩⟩
  · rwa [hp, hc]
  · obtain ⟨hrun, -⟩ := Accounting.ready_iff.mp hready
    rw [hp, hc, countCalls_append]
    exact (h.running hrun).receive hrun (hok rfl hready) sendFails
  · obtain ⟨hrun, -⟩ := Accounting.ready_iff.mp hready
    rw [hp, hc, countCalls_append]
    exact (h.running hrun).ends σ.maps

/-- **The calls on the request counts are paired**: at every moment each request that a
stream has taken off was added before, at most one is still to be taken off, and when the
stream has ended there is none. -/
theorem requestCounts_run (s : Server) (base : Counters) (preble : Routing.Router)
    (es : List (Event ι)) (i : ι)
    (hok : Along (System.step s) (CountOk s i) (.start base preble) es) :
    let σ := (System.start base preble).run s es
    (Paired (countCalls (σ.streams i).performed) ∨
      ∃ k, Open k (countCalls (σ.streams i).performed)) ∧
    ((σ.streams i).Ended → Paired (countCalls (σ.streams i).performed)) := by
  intro σ
  have hstart : Counting ((System.start base preble : System ι).streams i).proc
      (countCalls ((System.start base preble : System ι).streams i).calls) := by
    refine ⟨Or.inl Paired.nil, fun _ => ⟨fun _ => Paired.nil, ?_, ?_⟩, fun _ => Paired.nil⟩
    · simp [System.start]
    · simp [System.start]
  have h : Counting (σ.streams i).proc (countCalls (σ.streams i).calls) :=
    hok.invariant hstart fun _ _ h hok => counting_step h hok
  refine ⟨?_, fun hended => ?_⟩
  · refine paired_or_open_of_isPrefix h.seen ?_
    exact (prefix_append _ _).filterMap _
  · have := h.ended hended.1
    rwa [Stream.calls, hended.2, append_nil] at this

/-- Without a routing strategy a request is added and never taken off; and where the usage
comes without a space behind the colon, a request is taken off twice. -/
theorem requestCounts_run_unpaired :
    let plain : List (Event Unit) := [Small.headers () "r" [], Small.request () Small.chat] ++
      Small.performs () 1 ++ [.stop ()]
    let tight : List (Event Unit) := [Small.headers () "r" (Small.strategy "random"),
      Small.request () Small.chatStreamed] ++ Small.performs () 6 ++
      [Small.response () (Small.chunkTight Small.usage) false] ++ Small.performs () 8 ++
      [Small.response () (Small.chunk Small.token) false] ++ Small.performs () 8 ++
      [Small.response () Small.done true] ++ Small.performs () 8 ++ [.stop ()] ++
      Small.performs () 8
    let σ := (System.start Small.counters (.new 0 2)).run Small.server plain
    let τ := (System.start Small.counters (.new 0 2)).run Small.server tight
    (σ.streams ()).Ended ∧ countCalls (σ.streams ()).performed = [.start (none, "r", "m")] ∧
      (τ.streams ()).Ended ∧ countCalls (τ.streams ()).performed =
        [.start (some ⟨"p", "10.0.0.1", false, true⟩, "r", "m"),
          .finish (some ⟨"p", "10.0.0.1", false, true⟩, "r", "m"),
          .finish (some ⟨"p", "10.0.0.1", false, true⟩, "r", "m")] := by
  unfold Stream.Ended
  decide +kernel

/-- A streamed request with its usage before the end of the stream. -/
theorem requestCounts_run_streamed :
    let es : List (Event Unit) := [Small.headers () "r" (Small.strategy "random"),
      Small.request () Small.chatStreamed] ++ Small.performs () 6 ++
      [Small.response () (Small.chunk Small.token) false] ++ Small.performs () 8 ++
      [Small.response () (Small.chunk Small.usage) false] ++ Small.performs () 8 ++
      [Small.response () Small.done true] ++ Small.performs () 8 ++ [.stop ()] ++
      Small.performs () 8
    (((System.start Small.counters (.new 0 2)).run Small.server es).streams ()).Ended ∧
      Paired (countCalls (((System.start Small.counters (.new 0 2)).run Small.server es).streams
        ()).performed) := by
  intro es
  have h : (((System.start Small.counters (.new 0 2)).run Small.server es).streams ()).Ended := by
    unfold Stream.Ended
    decide +kernel
  have hok : Along (System.step Small.server) (CountOk Small.server ())
      (.start Small.counters (.new 0 2)) es := by decide +kernel
  exact ⟨h, (requestCounts_run Small.server Small.counters (.new 0 2) es () hok).2 h⟩

end
end Lodestar.Gateway
