import Lodestar.Routing.Outstanding
import Lodestar.Gateway.Completed
import Lodestar.Gateway.Streams

/-!
# The release of requests in the Preble router

A request that the Preble router has attached to its tree is released there by the
completion hook, which `cleanupPerRequestState` runs.  The hook is run once by the
cleanup of an upstream error or by the deferred function, unless the stream is marked as
cleaned before: a response body that completes the request and gives up its timing record
at the same time sets that mark, and then nobody runs the hook.  A request that gets the
end of its stream without a usage before is never released this way, although it ends
normally.

`prebleRelease_run` says that this, an empty request ID and the eviction of the leaf of
the request are all that can go wrong.
-/

namespace Lodestar.Gateway

open Lib Lodestar.Indexer Lodestar.Routing List Function

/-! ### Calls on the router -/

def Op.isPreble : Op → Bool
  | .prebleRoute _ => true
  | .prebleOnRequestComplete _ => true
  | _ => false

def Op.About (id : String) : Op → Prop
  | .prebleRoute call => call.requestID = id
  | .prebleOnRequestComplete requestID => requestID = id
  | _ => True

def prebleCalls (ops : List Op) : List Op := ops.filter Op.isPreble

@[simp]
lemma prebleCalls_nil : prebleCalls [] = [] := rfl

lemma prebleCalls_append (ops ops' : List Op) :
    prebleCalls (ops ++ ops') = prebleCalls ops ++ prebleCalls ops' := filter_append ..

lemma prebleCalls_of_response {ops : List Op} (h : ∀ op ∈ ops, op.OfResponse) :
    prebleCalls ops = [] := by
  refine filter_eq_nil_iff.mpr fun op ho => ?_
  have := h op ho
  cases op <;> simp_all [Op.isPreble, Op.OfResponse]

def Proc.hook (p : Proc) : List Op :=
  match p.routerCtx with
  | none => []
  | some ctx => if ctx.requestID = "" then [] else [.prebleOnRequestComplete ctx.requestID]

lemma prebleCalls_cleanupPerRequestState (ctx : RoutingContext) (e : Entries) :
    prebleCalls (cleanupPerRequestState ctx e).2 =
      if ctx.requestID = "" then [] else [.prebleOnRequestComplete ctx.requestID] := by
  unfold cleanupPerRequestState
  split
  · rfl
  · split <;> rfl

lemma prebleCalls_cleanup (ctx : RoutingContext) (e : Entries) : prebleCalls (cleanup ctx e).2 =
      if ctx.requestID = "" then [] else [.prebleOnRequestComplete ctx.requestID] := by
  unfold cleanup
  rw [prebleCalls_append, prebleCalls_of_response fun op ho => (mem_cleanupInflightCounters ctx e op ho).2.2,
    prebleCalls_cleanupPerRequestState, nil_append]

lemma prebleCalls_exit (p : Proc) (maps : Maps) : prebleCalls (p.exit maps).2 =
    if p.routerCtx.any RoutingContext.hasRouted && p.inflightCleaned then [] else p.hook := by
  unfold Proc.exit Proc.hook Proc.cleanupAtExit
  cases p.routerCtx with
  | none => simp
  | some ctx =>
    have hcount : prebleCalls (if p.requestCounted = true then
        [Op.doneRequestCount ctx.targetPod ctx.requestID p.model p.traceTerm] else []) = [] := by
      split <;> rfl
    simp only [prebleCalls_append, hcount]
    by_cases hr : ctx.hasRouted = true
    · by_cases hc : p.inflightCleaned = true
      · simp [hr, hc]
      · simp [hr, hc, prebleCalls_cleanup]
    · simp [hr, prebleCalls_cleanupPerRequestState]

lemma prebleCalls_handle (c : ResponseCall) (hasCompleted : Bool) (e : Entries) :
    prebleCalls (c.handle hasCompleted e).ops = [] := by
  obtain ⟨ops, done, ho, hr, hstuck, hdone⟩ := c.handle_calls hasCompleted e
  rw [ho, prebleCalls_append, prebleCalls_of_response hr]
  cases hout : (c.handle hasCompleted e).outcome with
  | returned r =>
    obtain ⟨promptTokens, completionTokens, rfl⟩ := hdone r.1 r.2 hout
    split <;> rfl
  | blocked | panicked => rw [hstuck (by simp [hout])]; rfl

/-! ### One turn -/

section

variable {s : Server} {id : String} {p : Proc} {maps : Maps} {l : List Op}

def Quiet (l : List Op) : Prop := ∀ call : RouteCall, .prebleRoute call ∈ l → call.attached = none

/-- The request has been attached to the tree, and the hook has been run exactly if the
stream is marked as cleaned. -/
structure Attached (id : String) (p : Proc) (l : List Op) : Prop where
  calls : ∃ call : RouteCall, call.attached.isSome = true ∧ call.requestID = id ∧
    l = .prebleRoute call :: if p.inflightCleaned then [.prebleOnRequestComplete id] else []
  routed : ∃ ctx, p.routerCtx = some ctx ∧ ctx.requestID = id ∧ ctx.hasRouted = true

/-- A stream that is not marked as cleaned and has no timing record is complete. -/
def Settled (id : String) (p : Proc) (maps : Maps) : Prop :=
  p.inflightCleaned = false → (maps id).timing = none → p.completed = true

/-- A chunk does not complete the request and give up its timing record at the same time. -/
def ChunkOk (s : Server) (p : Proc) (maps : Maps) (msg : ResponseBody) (env : ResponseEnv) : Prop :=
  p.isRespError = false → p.completed = false → ∀ ctx ∈ p.ctx,
    (maps ctx.requestID).timing.isSome = true →
    (p.responseCall s ctx msg env).finishes (maps ctx.requestID) = false

lemma Quiet.append_later {ops : List Op} (h : Quiet l) (hl : ∀ op ∈ ops, op.Later) :
    Quiet (l ++ prebleCalls ops) := by
  intro call hc
  rcases mem_append.mp hc with hc | hc
  · exact h call hc
  · exact (hl _ (mem_filter.mp hc).1).elim

lemma Attached.hook_eq (h : Attached id p l) (hid : id ≠ "") :
    p.hook = [.prebleOnRequestComplete id] := by
  obtain ⟨ctx, hctx, rfl, -⟩ := h.routed
  simp [Proc.hook, hctx, hid]

lemma Attached.exit (h : Attached id p l) (hid : id ≠ "") (maps : Maps) :
    ∃ call : RouteCall, call.attached.isSome = true ∧ call.requestID = id ∧
      l ++ prebleCalls (p.exit maps).2 = [.prebleRoute call, .prebleOnRequestComplete id] := by
  obtain ⟨call, ha, hc, rfl⟩ := h.calls
  obtain ⟨ctx, hctx, -, hrouted⟩ := h.routed
  refine ⟨call, ha, hc, ?_⟩
  rw [prebleCalls_exit, h.hook_eq hid]
  cases p.inflightCleaned <;> simp [hctx, hrouted]

lemma Attached.of_same {q : Proc} {ops : List Op} (h : Attached id p l)
    (ho : prebleCalls ops = []) (hr : q.routerCtx = p.routerCtx)
    (hc : q.inflightCleaned = p.inflightCleaned) : Attached id q (l ++ prebleCalls ops) := by
  rw [ho, append_nil]
  obtain ⟨hcalls, hrouted⟩ := h
  exact ⟨by rwa [hc], by rwa [hr]⟩

lemma prebleCalls_of_idle {t : Turn} (h : Idle p maps t) : prebleCalls t.ops = [] := by
  refine filter_eq_nil_iff.mpr fun op ho => ?_
  obtain ⟨username, rfl⟩ := h.ops op ho
  simp [Op.isPreble]

lemma prebleCalls_onMessage (s : Server) (p : Proc) (maps : Maps) {msg : Message}
    (hm : msg.isRequestBody = false) :
    prebleCalls (p.onMessage s maps msg).ops = [] ∨
      prebleCalls (p.onMessage s maps msg).ops = p.hook := by
  rcases responseBody_or_idle s p maps hm with ⟨body, env, rfl⟩ | hidle
  · simp only [Proc.onMessage, Proc.onResponseBody]
    split
    · unfold Proc.onErrorBody Proc.hook
      cases p.routerCtx with
      | none => exact .inl rfl
      | some ctx =>
        dsimp only
        split
        · exact .inl rfl
        · split
          · exact .inl rfl
          · exact .inr (prebleCalls_cleanup ctx _)
    · left
      cases p.ctx with
      | none => rfl
      | some ctx =>
        dsimp only
        split <;> exact prebleCalls_handle _ _ _
  · exact .inl (prebleCalls_of_idle hidle)

lemma Attached.onErrorBody (h : Attached id p l) (hid : id ≠ "") (maps : Maps)
    (msg : ResponseBody) :
    Attached id (p.onErrorBody maps msg).proc (l ++ prebleCalls (p.onErrorBody maps msg).ops) ∧
      (Settled id p maps → Settled id (p.onErrorBody maps msg).proc (p.onErrorBody maps msg).maps) := by
  obtain ⟨ctx, hctx, hcid, hrouted⟩ := h.routed
  unfold Proc.onErrorBody
  simp only [hctx]
  rw [if_neg (by simp [hrouted])]
  split
  · exact ⟨h.of_same rfl rfl rfl, fun hs => hs⟩
  · rename_i hcl
    obtain ⟨call, ha, hc, rfl⟩ := h.calls
    refine ⟨⟨⟨call, ha, hc, ?_⟩, ctx, rfl, hcid, hrouted⟩, fun _ hcl' => by simp at hcl'⟩
    simp [prebleCalls_cleanup, hcid, hid, hcl]

lemma cleaned_afterResponse {ctx : RoutingContext} (hr : p.routerCtx = some ctx) (maps : Maps)
    (resp : ProcessingResponse) (completed : Bool) :
    (p.afterResponse maps resp completed).1.inflightCleaned = (p.inflightCleaned ||
      (!p.completed && completed && (maps ctx.requestID).timing.isNone)) ∧
    (p.afterResponse maps resp completed).1.completed = completed := by
  unfold Proc.afterResponse
  cases p.completed <;> cases completed <;> simp [hr]

section

variable (hcoh : Accounting.Coherent id p maps) (h : Attached id p l) (hid : id ≠ "") (hset : Settled id p maps)
include hcoh h hid hset

lemma Attached.onResponseBody {msg : ResponseBody} {env : ResponseEnv}
    (hok : ChunkOk s p maps msg env) :
    Attached id (p.onResponseBody s maps msg env).proc
      (l ++ prebleCalls (p.onResponseBody s maps msg env).ops) ∧
    ∀ resp, (p.onResponseBody s maps msg env).outcome = .returned resp →
      Settled id (p.onResponseBody s maps msg env).proc (p.onResponseBody s maps msg env).maps := by
  obtain ⟨ctx, hctx, hcid, hrouted⟩ := h.routed
  unfold Proc.onResponseBody
  split
  · have herr := h.onErrorBody hid maps msg
    exact ⟨herr.1, fun _ _ => herr.2 hset⟩
  · rename_i hresp
    have hpc := hcoh.ctx_eq ctx hctx
    have hok := hok (by simpa using hresp)
    simp only [hpc, hcid] at hok ⊢
    have hpreble := prebleCalls_handle (p.responseCall s ctx msg env) p.completed (maps id)
    cases hout : ((p.responseCall s ctx msg env).handle p.completed (maps id)).outcome with
    | blocked | panicked => exact ⟨h.of_same hpreble rfl rfl, by simp⟩
    | returned r =>
      obtain ⟨resp, completed⟩ := r
      have hbefore : p.inflightCleaned = false → (maps id).timing = none → p.completed = true := hset
      generalize hmaps : Function.update maps id
        ((p.responseCall s ctx msg env).handle p.completed (maps id)).entries = maps'
      have hafter : (maps' id).timing =
          ((p.responseCall s ctx msg env).handle p.completed (maps id)).entries.timing := by
        rw [← hmaps, update_self]
      obtain ⟨hcl, hcomp⟩ := cleaned_afterResponse hctx maps' resp completed
      have hrouter := (sameRequest_afterResponse p maps' resp completed).routerCtx
      rw [hcid] at hcl
      cases hp : p.inflightCleaned with
      | true =>
        rw [hp] at hcl
        exact ⟨h.of_same hpreble hrouter (hcl.trans hp.symm), fun _ _ hcl' => by simp [hcl] at hcl'⟩
      | false =>
        have hkeep : (!p.completed && completed && (maps' id).timing.isNone) = false := by
          by_contra hmark
          simp only [Bool.not_eq_false, Bool.and_eq_true, Bool.not_eq_true',
            Option.isNone_iff_eq_none] at hmark
          obtain ⟨⟨hpcomp, -⟩, hnone⟩ := hmark
          cases ht : (maps id).timing with
          | none => simp [hbefore hp ht] at hpcomp
          | some timing =>
            have hfin := ResponseCall.finishes_of_timing ht (hafter ▸ hnone)
            have := hok hpcomp ctx rfl (by rw [hcid, ht]; rfl)
            rw [hcid, hfin] at this
            simp at this
        rw [hp, hkeep] at hcl
        refine ⟨h.of_same hpreble hrouter (hcl.trans hp.symm), fun _ _ _ hnone => ?_⟩
        rw [hcomp]
        exact ResponseCall.completed_of_timing_none hout (hbefore hp) (hafter ▸ hnone)

/-- **A message that is not a request body** keeps the request attached. -/
lemma Attached.onMessage {msg : Message} (hm : msg.isRequestBody = false)
    (hok : ∀ body env, msg = .responseBody body env → ChunkOk s p maps body env) :
    Attached id (p.onMessage s maps msg).proc (l ++ prebleCalls (p.onMessage s maps msg).ops) ∧
    ∀ resp, (p.onMessage s maps msg).outcome = .returned resp →
      Settled id (p.onMessage s maps msg).proc (p.onMessage s maps msg).maps := by
  rcases responseBody_or_idle s p maps hm with ⟨body, env, rfl⟩ | hidle
  · exact Attached.onResponseBody hcoh h hid hset (hok body env rfl)
  · refine ⟨h.of_same (prebleCalls_of_idle hidle) hidle.same.routerCtx hidle.inflightCleaned,
      fun _ _ => ?_⟩
    intro hcl hnone
    rw [hidle.completed]
    exact hset (hidle.inflightCleaned ▸ hcl) (hidle.timing id ▸ hnone)

end

attribute [local simp] Proc.afterBody

/-- **A request body** attaches the request or makes no attaching call. -/
lemma onRequestBody_router (s : Server) (hu : p.Untouched) (hid : p.requestID = id) (maps : Maps)
    (body : String) (env : BodyEnv) :
    let t := p.onRequestBody s maps body env
    (Quiet (prebleCalls t.ops) ∨ Attached id t.proc (prebleCalls t.ops) ∧ Settled id t.proc t.maps) ∧
      (∀ resp, t.outcome = .returned resp → t.proc.ctx = none → prebleCalls t.ops = []) ∧
      ∀ op ∈ prebleCalls t.ops, op.About id := by
  intro t
  have hquiet : Quiet ([] : List Op) := fun call hc => absurd hc not_mem_nil
  -- the calls of a selection, which are about the request, and attach it only to a target
  have hcalls : ∀ {ctx pods ops selection}, selectTargetPod s env ctx pods = (ops, selection) →
      ctx.requestID = id → (∀ op ∈ prebleCalls ops, op.About id) ∧
        ((∀ pod, selection ≠ .target pod) → Quiet (prebleCalls ops)) := by
    intro ctx pods ops selection hsel hrid
    rcases selectTargetPod_preble hsel with rfl | ⟨call, rfl, hcid, hiff⟩
    · exact ⟨by simp, fun _ => hquiet⟩
    · refine ⟨fun op ho => ?_, fun hne call' hc => ?_⟩
      · obtain rfl := List.mem_singleton.mp (mem_filter.mp ho).1
        exact hcid.trans hrid
      · obtain rfl : call' = call := by simpa [prebleCalls, Op.isPreble] using hc
        refine Option.not_isSome_iff_eq_none.mp fun h => ?_
        obtain ⟨pod, hpod⟩ := hiff.mp h
        exact hne pod hpod
  have ht : t = p.onRequestBody s maps body env := rfl
  unfold Proc.onRequestBody at ht
  rw [hid] at ht
  have hcase := @handleRequestBody_cases s env (maps id) id body p.user p.routingAlgorithm
  generalize handleRequestBody s env id body p.user p.routingAlgorithm (maps id) = handled
    at hcase ht
  rw [ht]
  cases hcase with
  | rejected | notRouted | noMessage =>
    exact ⟨.inl hquiet, fun _ _ _ => rfl, by simp [prebleCalls, Op.isPreble]⟩
  | failed r ctx pods e' ops message hr hrid hp hc hsel =>
    refine ⟨.inl ((hcalls hsel hrid).2 (by simp)), fun _ _ hnone => ?_, (hcalls hsel hrid).1⟩
    simp [hr] at hnone
  | blocked _ _ _ _ hrid hsel | panicked _ _ _ _ hrid hsel =>
    exact ⟨.inl ((hcalls hsel hrid).2 (by simp)), by simp, (hcalls hsel hrid).1⟩
  | routed r ctx pods pod timing e' ops hrid hr hmodel hc htiming hfirst hsel =>
    have hops : prebleCalls (ops ++ [incrementNumInflightForPod pod.podIP,
        incrementNumInflightPrefillRequestsForPod pod.podIP,
        incrementNumInflightPrefillTokensForPod pod.podIP timing.prefillTokenCount,
        .addRequestCount (some pod) ctx.requestID ctx.model]) = prebleCalls ops := by
      rw [prebleCalls_append]
      exact append_nil _
    rw [hops]
    refine ⟨?_, fun _ _ hnone => ?_, (hcalls hsel hrid).1⟩
    · rcases selectTargetPod_preble hsel with rfl | ⟨call, rfl, hcid, hiff⟩
      · exact .inl hquiet
      · refine .inr ⟨⟨⟨call, hiff.mpr ⟨pod, rfl⟩, hcid.trans hrid, ?_⟩, ?_⟩, fun _ hnone => ?_⟩
        · simp [hr, hu.inflightCleaned, prebleCalls, Op.isPreble]
        · exact ⟨{ ctx with targetPod := some pod }, by simp [hr], hrid, rfl⟩
        · simp [htiming] at hnone
    · simp [hr] at hnone

/-- What is known of the calls of a stream on the router. -/
structure Tracked (id : String) (p : Proc) (maps : Maps) (l : List Op) : Prop where
  shape : Quiet l ∨ ∃ call : RouteCall, call.attached.isSome = true ∧ call.requestID = id ∧
    l <+: [.prebleRoute call, .prebleOnRequestComplete id]
  running : p.status = .running → Quiet l ∨ Attached id p l ∧ Settled id p maps
  fresh : p.status = .running → p.ctx = none → l = []
  ended : p.status = .ended → Quiet l ∨ ∃ call : RouteCall, call.attached.isSome = true ∧
    call.requestID = id ∧ l = [.prebleRoute call, .prebleOnRequestComplete id]

lemma Attached.shape (h : Attached id p l) : ∃ call : RouteCall, call.attached.isSome = true ∧
    call.requestID = id ∧ l <+: [.prebleRoute call, .prebleOnRequestComplete id] := by
  obtain ⟨call, ha, hc, rfl⟩ := h.calls
  refine ⟨call, ha, hc, ?_⟩
  split
  · exact prefix_refl _
  · exact cons_prefix_cons.mpr ⟨rfl, nil_prefix⟩

lemma tracked_exit (h : Quiet l ∨ Attached id p l) (hid : id ≠ "") (maps : Maps) :
    Tracked id { p with status := .ended } (p.exit maps).1 (l ++ prebleCalls (p.exit maps).2) := by
  have hend : Quiet (l ++ prebleCalls (p.exit maps).2) ∨ ∃ call : RouteCall,
      call.attached.isSome = true ∧ call.requestID = id ∧
      l ++ prebleCalls (p.exit maps).2 = [.prebleRoute call, .prebleOnRequestComplete id] :=
    h.imp (fun h => h.append_later (later_exit p maps)) fun h => h.exit hid maps
  refine ⟨?_, by simp, by simp, fun _ => hend⟩
  refine hend.imp_right ?_
  rintro ⟨call, ha, hc, heq⟩
  exact ⟨call, ha, hc, heq ▸ prefix_refl _⟩

lemma Tracked.receive (hcoh : Accounting.Coherent id p maps) (h : Tracked id p maps l)
    (hrun : p.status = .running) (hid : id ≠ "") {msg : Message}
    (hbody : msg.isRequestBody = true → p.Untouched ∧ p.requestID = id)
    (hok : ∀ body env, msg = .responseBody body env → ChunkOk s p maps body env) (sendFails : Bool) :
    Tracked id (p.receive s maps msg sendFails).1 (p.receive s maps msg sendFails).2.1
      (l ++ prebleCalls (p.receive s maps msg sendFails).2.2) := by
  -- the turn before the stream ends, goes on or is stuck
  have hturn : (Quiet (l ++ prebleCalls (p.onMessage s maps msg).ops) ∨
        Attached id (p.onMessage s maps msg).proc (l ++ prebleCalls (p.onMessage s maps msg).ops) ∧
        ∀ resp, (p.onMessage s maps msg).outcome = .returned resp →
          Settled id (p.onMessage s maps msg).proc (p.onMessage s maps msg).maps) ∧
      ∀ resp, (p.onMessage s maps msg).outcome = .returned resp →
        (p.onMessage s maps msg).proc.ctx = none →
          l ++ prebleCalls (p.onMessage s maps msg).ops = [] := by
    cases hm : msg.isRequestBody with
    | true =>
      obtain ⟨hu, hreq⟩ := hbody hm
      rw [h.fresh hrun hu.ctx]
      obtain ⟨body, env, rfl⟩ := Message.eq_requestBody hm
      obtain ⟨hrouter, hfresh⟩ := onRequestBody_router s hu hreq maps body env
      exact ⟨hrouter.imp_right fun h => ⟨h.1, fun _ _ => h.2⟩, hfresh.1⟩
    | false =>
      obtain ⟨hlater, hsame⟩ := later_onMessage s p maps hm
      refine ⟨?_, fun resp _ hnone => ?_⟩
      · rcases h.running hrun with hq | ⟨ha, hset⟩
        · exact .inl (hq.append_later hlater)
        · exact .inr (ha.onMessage hcoh hid hset hm hok)
      · rw [hsame.ctx] at hnone
        have hnoctx : p.routerCtx = none := by
          cases hr : p.routerCtx with
          | none => rfl
          | some c => simp [hcoh.ctx_eq c hr] at hnone
        rw [h.fresh hrun hnone, nil_append]
        rcases prebleCalls_onMessage s p maps hm with h0 | h0
        · exact h0
        · rw [h0, Proc.hook, hnoctx]
  obtain ⟨hcalls, hfresh⟩ := hturn
  rcases receive_cases s p maps msg sendFails with hr | ⟨⟨resp, hout⟩, hr⟩ | hr
  · rw [hr]
    rw [prebleCalls_append, ← append_assoc]
    exact tracked_exit (hcalls.imp_right And.left) hid _
  · rw [hr]
    refine ⟨hcalls.imp_right fun h => h.1.shape, fun _ => ?_, fun _ => hfresh resp hout, ?_⟩
    · exact hcalls.imp_right fun h => ⟨h.1, h.2 resp hout⟩
    · intro hended
      rw [status_onMessage, hrun] at hended
      simp at hended
  · rw [hr]
    exact ⟨hcalls.imp_right fun h => h.1.shape, by simp, by simp, by simp⟩

end

/-! ### All streams -/

variable {id : String} {p : Proc}

lemma about_hook (h : ∀ c, p.routerCtx = some c → c.requestID = id) :
    ∀ op ∈ p.hook, op.About id := by
  unfold Proc.hook
  cases hr : p.routerCtx with
  | none => simp
  | some ctx =>
    dsimp only
    split
    · simp
    · simpa [Op.About] using h ctx hr

lemma about_exit (h : ∀ c, p.routerCtx = some c → c.requestID = id) (maps : Maps) :
    ∀ op ∈ prebleCalls (p.exit maps).2, op.About id := by
  rw [prebleCalls_exit]
  split
  · simp
  · exact about_hook h

lemma about_onMessage (s : Server) (h : ∀ c, p.routerCtx = some c → c.requestID = id)
    (maps : Maps) {msg : Message}
    (hbody : msg.isRequestBody = true → p.Untouched ∧ p.requestID = id) :
    ∀ op ∈ prebleCalls (p.onMessage s maps msg).ops, op.About id := by
  cases hm : msg.isRequestBody with
  | false =>
    rcases prebleCalls_onMessage s p maps hm with h0 | h0
    · simp [h0]
    · rw [h0]
      exact about_hook h
  | true =>
    obtain ⟨body, env, rfl⟩ := Message.eq_requestBody hm
    exact (onRequestBody_router s (hbody hm).1 (hbody hm).2 maps body env).2.2

lemma Tracked.of_timing {maps maps' : Maps} {l : List Op} (h : Tracked id p maps l)
    (ht : (maps' id).timing = (maps id).timing) : Tracked id p maps' l :=
  ⟨h.shape, fun hrun => (h.running hrun).imp_right fun h =>
    ⟨h.1, fun hcl hnone => h.2 hcl (ht ▸ hnone)⟩, h.fresh, h.ended⟩

section

variable {ι : Type*} {s : Server} {ids : ι → String} {base : Counters} {σ : System ι} {i : ι}

/-- What has to hold before an event for the request of stream `i` to be released: no
chunk of it completes it and gives up its timing record at the same time, and no eviction
takes its leaf. -/
def ReleaseOk (s : Server) (i : ι) (id : String) (σ : System ι) : Event ι → Prop
  | .receive j (.responseBody msg env) _ => j = i → System.ready (σ.streams i) = true →
      ChunkOk s (σ.streams i).proc σ.maps msg env
  | .evict now order => ∀ st ∈ σ.preble.outstanding.lookup id,
      st.leaf ∉ σ.preble.cache.nodesToEvict now order
  | _ => True

/-- **The calls on the router and the tree**, as far as they matter for stream `i`. -/
structure Watched [Fintype ι] (ids : ι → String) (base : Counters) (i : ι) (σ : System ι) :
    Prop where
  inv : Accounting.noAccounting.Inv ids base σ
  about : ∀ j, ∀ op ∈ prebleCalls (σ.streams j).calls, op.About (ids j)
  tracked : Tracked (ids i) (σ.streams i).proc σ.maps (prebleCalls (σ.streams i).calls)
  wf : ∃ path, LPRadixCache.WF σ.preble.cache path

instance (s : Server) (p : Proc) (maps : Maps) (msg : ResponseBody) (env : ResponseEnv) :
    Decidable (ChunkOk s p maps msg env) := by unfold ChunkOk; infer_instance

instance [DecidableEq ι] (s : Server) (i : ι) (id : String) (σ : System ι) :
    ∀ e, Decidable (ReleaseOk s i id σ e)
  | .receive _ (.responseBody _ _) _ => by unfold ReleaseOk; infer_instance
  | .receive _ (.requestBody _ _) _ | .receive _ (.requestHeaders _ _) _
  | .receive _ (.responseHeaders _) _ | .receive _ .unknown _ | .stop _ | .perform _ =>
    isTrue trivial
  | .evict _ _ => by unfold ReleaseOk; infer_instance

variable [Fintype ι] [DecidableEq ι]
attribute [local simp] System.advance

lemma Watched.advance (hinj : Function.Injective ids) (h : Watched ids base i σ) {j : ι}
    (hp : (σ.streams j).pending = []) {p : Proc} {maps : Maps} {ops : List Op}
    (ha : Accounting.ActsOk Accounting.noAccounting (ids j) (σ.streams j).proc σ.maps p maps ops)
    (habout : ∀ op ∈ prebleCalls ops, op.About (ids j))
    (htracked : j = i → Tracked (ids i) p maps
      (prebleCalls (σ.streams i).calls ++ prebleCalls ops)) :
    Watched ids base i (σ.advance j p maps ops) := by
  have hcalls : ∀ k, prebleCalls ((σ.advance j p maps ops).streams k).calls =
      if k = j then prebleCalls (σ.streams j).calls ++ prebleCalls ops
        else prebleCalls (σ.streams k).calls := by
    intro k
    split
    · rename_i hk
      subst hk
      simp [Stream.calls, hp, prebleCalls_append]
    · rename_i hk
      simp [hk]
  refine ⟨h.inv.advance hinj hp ha, fun k => ?_, ?_, h.wf⟩
  · rw [hcalls]
    split
    · rename_i hk
      subst hk
      intro op ho
      exact (mem_append.mp ho).elim (h.about k op) (habout op)
    · exact h.about k
  · rw [hcalls]
    by_cases hij : i = j
    · subst hij
      simpa using htracked rfl
    · have ht := (ha.onlyAt (ids i) fun heq => hij (hinj heq)).1
      simpa [hij] using h.tracked.of_timing ht

lemma wf_prebleAfter {r : Router} (h : ∃ path, LPRadixCache.WF r.cache path) (op : Op) :
    ∃ path, LPRadixCache.WF (System.prebleAfter r op).cache path := by
  obtain ⟨path, hw⟩ := h
  cases op with
  | prebleRoute call =>
    obtain ⟨path', hw', -⟩ := Router.wf_route hw call
    exact ⟨path', hw'⟩
  | prebleOnRequestComplete requestID => exact ⟨path, (r.sameShape_complete requestID).wf hw⟩
  | _ => exact ⟨path, hw⟩

lemma Watched.step (hinj : Function.Injective ids) (hid : ids i ≠ "")
    (h : Watched ids base i σ) {e : Event ι} (hn : System.Named ids σ e) (hf : σ.FirstBody e)
    (hok : ReleaseOk s i (ids i) σ e) : Watched ids base i (σ.step s e) := by
  have hev : Accounting.noAccounting.EventOk s ids σ e :=
    Accounting.eventOk_of_firstBody (fun _ => trivial) hn hf
  have hinv := h.inv.step hinj (fun _ => le_rfl) hev
  cases e with
  | receive j msg sendFails =>
    unfold System.step
    dsimp only
    split
    · rename_i hready
      obtain ⟨hrun, hp⟩ := Accounting.ready_iff.mp hready
      have hcoh := h.inv.coherent j hrun
      have hacts := Accounting.actsOk_receive s hcoh hrun (hev hready) sendFails
      have hbody : msg.isRequestBody = true →
          (σ.streams j).proc.Untouched ∧ (σ.streams j).proc.requestID = ids j := by
        intro hm
        obtain ⟨body, env, rfl⟩ := Message.eq_requestBody hm
        exact ⟨hf rfl, hn hready⟩
      refine h.advance hinj hp hacts ?_ ?_
      · have hturn := about_onMessage s (h.inv.requestID_eq j) σ.maps hbody
        rcases receive_cases s (σ.streams j).proc σ.maps msg sendFails with hr | ⟨-, hr⟩ | hr
        · have hctx := hacts.requestID_eq
          rw [hr] at hctx ⊢
          intro op ho
          rw [prebleCalls_append] at ho
          exact (mem_append.mp ho).elim (hturn op)
            (about_exit hctx _ op)
        · rw [hr]
          exact hturn
        · rw [hr]
          exact hturn
      · rintro rfl
        refine Tracked.receive hcoh h.tracked hrun hid hbody ?_ sendFails
        rintro body env rfl
        exact hok rfl hready
    · exact h
  | stop j =>
    unfold System.step
    dsimp only
    split
    · rename_i hready
      obtain ⟨hrun, hp⟩ := Accounting.ready_iff.mp hready
      have hcoh := h.inv.coherent j hrun
      have hacts := Accounting.actsOk_exit hcoh.exitable (fun _ _ => ⟨rfl, rfl⟩)
        (.nil (Accounting.noAccounting.contrib_nonneg (σ.streams j).proc σ.maps))
      refine h.advance hinj hp hacts ?_ ?_
      · exact about_exit (h.inv.requestID_eq j) σ.maps
      · rintro rfl
        exact tracked_exit ((h.tracked.running hrun).imp_right And.left) hid σ.maps
    · exact h
  | perform j =>
    refine ⟨hinv, fun k => ?_, ?_, ?_⟩
    · rw [show σ.step s (.perform j) = σ.perform j from rfl, (calls_perform σ j k).2]
      exact h.about k
    · rw [show σ.step s (.perform j) = σ.perform j from rfl, (calls_perform σ j i).1,
        (calls_perform σ j i).2]
      have hmaps : (σ.perform j).maps = σ.maps := by
        unfold System.perform
        split <;> rfl
      rw [hmaps]
      exact h.tracked
    · show ∃ path, LPRadixCache.WF (σ.perform j).preble.cache path
      unfold System.perform
      split
      · exact h.wf
      · exact wf_prebleAfter h.wf _
  | evict now order =>
    obtain ⟨path, hw⟩ := h.wf
    exact ⟨hinv, h.about, h.tracked, path, LPRadixCache.evict_wf hw now order⟩

/-! ### The life of a record -/

omit [Fintype ι] [DecidableEq ι] in
lemma prebleAfter_of_not {op : Op} (h : op.isPreble = false) (r : Router) :
    System.prebleAfter r op = r := by
  cases op <;> first | rfl | simp [Op.isPreble] at h

/-- The calls of stream `i` on the router that have been made. -/
def made (i : ι) (σ : System ι) : List Op := prebleCalls (σ.streams i).performed

def record (id : String) (σ : System ι) : Option Outstanding := σ.preble.outstanding.lookup id

/-- Whatever chain is above the leaf of the record stays above it. -/
def KeepsChain (id : String) (σ σ' : System ι) : Prop :=
  ∀ st chain, record id σ = some st → Router.Covers σ.preble st.leaf chain →
    Router.Covers σ'.preble st.leaf chain

omit [Fintype ι] [DecidableEq ι] in
lemma record_of_about {op : Op} {id id' : String} (hne : id' ≠ id) (h : op.About id') (r : Router) :
    (System.prebleAfter r op).outstanding.lookup id = r.outstanding.lookup id := by
  cases op with
  | prebleRoute call =>
    have hcall : call.requestID = id' := h
    show (r.route call).2.outstanding.lookup id = _
    rw [Router.lookup_route, if_neg (hcall ▸ hne)]
  | prebleOnRequestComplete requestID =>
    have hreq : requestID = id' := h
    show (r.prebleOnRequestComplete requestID).outstanding.lookup id = _
    rw [Router.lookup_complete, if_neg (hreq ▸ hne)]
  | _ => rfl

omit [Fintype ι] [DecidableEq ι] in
lemma covers_prebleAfter {r : Router} {leaf : NodeId} {chain : List NodeId}
    (h : Router.Covers r leaf chain) (op : Op) :
    Router.Covers (System.prebleAfter r op) leaf chain := by
  cases op with
  | prebleRoute call => exact h.route call
  | prebleOnRequestComplete requestID => exact h.complete requestID
  | _ => exact h

attribute [local simp] System.perform System.step

/-- **An event** leaves the record of the request alone, unless it is a call of its own
stream on the router. -/
lemma Watched.record_step (hinj : Function.Injective ids) (h : Watched ids base i σ)
    {e : Event ι} (hok : ReleaseOk s i (ids i) σ e) :
    record (ids i) (σ.step s e) = record (ids i) σ ∧ made i (σ.step s e) = made i σ ∧
      KeepsChain (ids i) σ (σ.step s e) ∨
    ∃ op ops, e = .perform i ∧ (σ.streams i).pending = op :: ops ∧ op.isPreble = true := by
  have hsame : ∀ {σ' : System ι}, σ'.preble = σ.preble → made i σ' = made i σ →
      record (ids i) σ' = record (ids i) σ ∧ made i σ' = made i σ ∧ KeepsChain (ids i) σ σ' := by
    intro σ' hr hm
    refine ⟨by rw [record, hr, record], hm, fun st chain _ hc => ?_⟩
    rw [hr]
    exact hc
  have hadvance : ∀ j p maps ops, made i (σ.advance j p maps ops) = made i σ := by
    intro j p maps ops
    by_cases hij : i = j
    · subst hij
      simp [made]
    · simp [made, hij]
  cases e with
  | receive | stop =>
    left
    unfold System.step
    dsimp only
    split
    · exact hsame rfl (hadvance ..)
    · exact hsame rfl rfl
  | perform j =>
    show _ ∧ _ ∨ _
    cases hp : (σ.streams j).pending with
    | nil =>
      left
      rw [show σ.step s (.perform j) = σ by simp [hp]]
      exact hsame rfl rfl
    | cons op ops =>
      have hpreble : (σ.step s (.perform j)).preble = System.prebleAfter σ.preble op := by
        simp [hp]
      have hmade : made i (σ.step s (.perform j)) =
          if i = j then made i σ ++ prebleCalls [op] else made i σ := by
        by_cases hij : i = j
        · subst hij
          simp [made, hp, prebleCalls_append]
        · simp [made, hp, hij]
      have hchain : KeepsChain (ids i) σ (σ.step s (.perform j)) := by
        intro st chain _ hc
        rw [hpreble]
        exact covers_prebleAfter hc op
      cases hkind : op.isPreble with
      | false =>
        left
        refine ⟨by rw [record, hpreble, prebleAfter_of_not hkind, record], ?_, hchain⟩
        rw [hmade, show prebleCalls [op] = [] by simp [prebleCalls, hkind], append_nil, ite_self]
      | true =>
        by_cases hij : i = j
        · subst hij
          exact .inr ⟨op, ops, rfl, hp, hkind⟩
        · left
          have habout : op.About (ids j) := by
            refine h.about j op (mem_filter.mpr ⟨?_, hkind⟩)
            simp [Stream.calls, hp]
          refine ⟨?_, by rw [hmade, if_neg hij], hchain⟩
          rw [record, hpreble, record_of_about (fun heq => hij (hinj heq).symm) habout, record]
  | evict now order =>
    left
    refine ⟨rfl, rfl, fun st chain hst hc => ?_⟩
    exact hc.evict (hok st hst)

/-- The record is `o` in every state of the run. -/
def Stays (s : Server) (id : String) (o : Option Outstanding) (σ : System ι) (es : List (Event ι)) :
    Prop := ∀ es', es' <+: es → record id (σ.run s es') = o

variable {id : String} {o : Option Outstanding}
omit [Fintype ι] in
lemma Stays.nil (h : record id σ = o) : Stays s id o σ [] := by
  intro es' hp
  rw [prefix_nil.mp hp]
  exact h

omit [Fintype ι] in
lemma Stays.cons {e : Event ι} {es : List (Event ι)} (h : record id σ = o)
    (hs : Stays s id o (σ.step s e) es) : Stays s id o σ (e :: es) := by
  intro es' hp
  rcases prefix_cons_iff.mp hp with rfl | ⟨es'', rfl, hp'⟩
  · exact h
  · exact hs es'' hp'

def WatchOk (s : Server) (ids : ι → String) (i : ι) (σ : System ι) (e : Event ι) : Prop :=
  System.Named ids σ e ∧ σ.FirstBody e ∧ ReleaseOk s i (ids i) σ e

omit [Fintype ι] in
lemma perform_preble {op : Op} {ops : List Op} (hp : (σ.streams i).pending = op :: ops)
    (hk : op.isPreble = true) :
    (σ.step s (.perform i)).preble = System.prebleAfter σ.preble op ∧
      made i (σ.step s (.perform i)) = made i σ ++ [op] ∧
      prebleCalls (σ.streams i).calls = made i σ ++ op :: prebleCalls ops := by
  refine ⟨by simp [hp], ?_, ?_⟩
  · simp [made, hp, prebleCalls, hk]
  · simp [made, Stream.calls, hp, prebleCalls, hk]

lemma Watched.released (hinj : Function.Injective ids) (hid : ids i ≠ "") {call : RouteCall} :
    ∀ {es : List (Event ι)} {σ : System ι}, Watched ids base i σ →
      Along (System.step s) (WatchOk s ids i) σ es → record (ids i) σ = none →
      call.attached.isSome = true → made i σ = [.prebleRoute call, .prebleOnRequestComplete (ids i)] →
      Stays s (ids i) none σ es := by
  intro es
  induction es with
  | nil => exact fun _ _ hnone _ _ => .nil hnone
  | cons e es ih =>
    intro σ h hok hnone ha hmade
    obtain ⟨⟨hn, hf, hr⟩, hrest⟩ := hok
    refine .cons hnone ?_
    rcases h.record_step hinj hr with ⟨hrec, hmade', -⟩ | ⟨op, ops, rfl, hp, hk⟩
    · exact ih (h.step hinj hid hn hf hr) hrest (hrec.trans hnone) ha (hmade'.trans hmade)
    · -- there is no third call
      obtain ⟨-, -, hcalls⟩ := perform_preble (s := s) hp hk
      rw [hmade] at hcalls
      have hshape := h.tracked.shape
      rw [hcalls] at hshape
      rcases hshape with hq | ⟨call', -, -, hpre⟩
      · have := hq call (by simp)
        simp [this] at ha
      · have := hpre.length_le
        simp at this

/-- **The middle of the life**: while the request is outstanding, its record and its chain
stay, until a call of its own stream releases it. -/
lemma Watched.release (hinj : Function.Injective ids) (hid : ids i ≠ "") {call : RouteCall}
    {st : Outstanding} {chain : List NodeId} :
    ∀ {es : List (Event ι)} {σ : System ι}, Watched ids base i σ →
      Along (System.step s) (WatchOk s ids i) σ es → record (ids i) σ = some st →
      call.attached.isSome = true → made i σ = [.prebleRoute call] →
      Router.Covers σ.preble st.leaf chain → ((σ.run s es).streams i).Ended →
      ∃ es₁ es₂, es = es₁ ++ .perform i :: es₂ ∧ Stays s (ids i) (some st) σ es₁ ∧
        Router.Covers (σ.run s es₁).preble st.leaf chain ∧
        (σ.run s (es₁ ++ [.perform i])).preble =
          (σ.run s es₁).preble.prebleOnRequestComplete (ids i) ∧
        Stays s (ids i) none (σ.run s (es₁ ++ [.perform i])) es₂ := by
  intro es
  induction es with
  | nil =>
    intro σ h _ _ ha hmade _ hended
    have hended : (σ.streams i).Ended := hended
    have hcalls : prebleCalls (σ.streams i).calls = [.prebleRoute call] := by
      rw [Stream.calls, hended.2, append_nil]
      exact hmade
    rcases h.tracked.ended hended.1 with hq | ⟨call', -, -, heq⟩
    · have := hq call (by simp [hcalls])
      simp [this] at ha
    · rw [hcalls] at heq
      simp at heq
  | cons e es ih =>
    intro σ h hok hsome ha hmade hcov hended
    obtain ⟨⟨hn, hf, hr⟩, hrest⟩ := hok
    have hnext := h.step hinj hid hn hf hr
    rcases h.record_step hinj hr with ⟨hrec, hmade', hchain⟩ | ⟨op, ops, rfl, hp, hk⟩
    · obtain ⟨es₁, es₂, rfl, hstays, hrest'⟩ := ih hnext hrest (hrec.trans hsome) ha
        (hmade'.trans hmade) (hchain st chain hsome hcov) hended
      exact ⟨e :: es₁, es₂, rfl, .cons hsome hstays, hrest'⟩
    · -- the second call is the hook
      obtain ⟨hpreble, hmade', hcalls⟩ := perform_preble (s := s) hp hk
      have hop : op = .prebleOnRequestComplete (ids i) := by
        have hshape := h.tracked.shape
        rw [hcalls, hmade] at hshape
        rcases hshape with hq | ⟨call', -, -, hpre⟩
        · have := hq call (by simp)
          simp [this] at ha
        · obtain ⟨-, hpre'⟩ := cons_prefix_cons.mp hpre
          exact (cons_prefix_cons.mp hpre').1
      subst hop
      have hnone : record (ids i) (σ.step s (.perform i)) = none := by
        rw [record, hpreble]
        exact (Router.lookup_complete _ _ _).trans (if_pos rfl)
      refine ⟨[], es, rfl, .nil hsome, hcov, hpreble, ?_⟩
      refine hnext.released hinj hid hrest hnone ha ?_
      rw [hmade', hmade]
      rfl

/-- The whole life of the record of a request: absent, set by a call of its own stream,
kept with its chain, and removed by a call of its own stream that takes the pod off every
node above the leaf. -/
def Released (s : Server) (i : ι) (id : String) (σ : System ι) (es : List (Event ι)) : Prop :=
  ∃ es₁ es₂ es₃ st, es = es₁ ++ .perform i :: (es₂ ++ .perform i :: es₃) ∧
    let routed := σ.run s (es₁ ++ [.perform i])
    let before := routed.run s es₂
    let after := before.step s (.perform i)
    Stays s id none σ es₁ ∧ Stays s id (some st) routed es₂ ∧ Stays s id none after es₃ ∧
    (∀ n ∈ routed.preble.cache.ancestors st.leaf, n ∈ before.preble.cache.ancestors st.leaf) ∧
    ∀ n, after.preble.cache.heap n = if n ∈ before.preble.cache.ancestors st.leaf then
      (before.preble.cache.heap n).decrementRefCounterForPod st.podIP
      else before.preble.cache.heap n

/-- **The start of the life**: before the request is attached there is no record. -/
lemma Watched.life (hinj : Function.Injective ids) (hid : ids i ≠ "") :
    ∀ {es : List (Event ι)} {σ : System ι}, Watched ids base i σ →
      Along (System.step s) (WatchOk s ids i) σ es → record (ids i) σ = none → Quiet (made i σ) →
      ((σ.run s es).streams i).Ended → ¬ Quiet (made i (σ.run s es)) →
      Released s i (ids i) σ es := by
  intro es
  induction es with
  | nil => exact fun _ _ _ hq _ hnq => absurd hq hnq
  | cons e es ih =>
    intro σ h hok hnone hquiet hended hnq
    obtain ⟨⟨hn, hf, hr⟩, hrest⟩ := hok
    have hnext := h.step hinj hid hn hf hr
    -- the request is attached later
    have hlater : record (ids i) (σ.step s e) = none → Quiet (made i (σ.step s e)) →
        Released s i (ids i) σ (e :: es) := by
      intro hnone' hquiet'
      obtain ⟨es₁, es₂, es₃, st, rfl, hs₁, hrest'⟩ := ih hnext hrest hnone' hquiet' hended hnq
      exact ⟨e :: es₁, es₂, es₃, st, rfl, .cons hnone hs₁, hrest'⟩
    rcases h.record_step hinj hr with ⟨hrec, hmade, -⟩ | ⟨op, ops, rfl, hp, hk⟩
    · exact hlater (hrec.trans hnone) (hmade ▸ hquiet)
    · obtain ⟨hpreble, hmade, hcalls⟩ := perform_preble (s := s) hp hk
      have habout : op.About (ids i) := h.about i op (by rw [hcalls]; simp)
      cases op with
      | prebleOnRequestComplete requestID =>
        obtain rfl : requestID = ids i := habout
        refine hlater ?_ ?_
        · rw [record, hpreble]
          exact (Router.lookup_complete _ _ _).trans (if_pos rfl)
        · rw [hmade]
          intro call hc
          exact hquiet call (by simpa using hc)
      | prebleRoute call =>
        have hcid : call.requestID = ids i := habout
        have hlookup := Router.lookup_route σ.preble call (ids i)
        rw [if_pos hcid, show σ.preble.outstanding.lookup (ids i) = none from hnone] at hlookup
        cases ha : call.attached with
        | none =>
          rw [ha] at hlookup
          refine hlater ?_ ?_
          · rw [record, hpreble]
            exact hlookup
          · rw [hmade]
            intro call' hc
            rcases mem_append.mp hc with hc | hc
            · exact hquiet call' hc
            · obtain rfl : call' = call := by simpa using hc
              exact ha
        | some podIP =>
          rw [ha] at hlookup
          have hatt : call.attached.isSome = true := by rw [ha]; rfl
          -- nothing has been called before
          have hmade' : made i (σ.step s (.perform i)) = [.prebleRoute call] := by
            rw [hmade]
            have hshape := h.tracked.shape
            rw [hcalls] at hshape
            rcases hshape with hq | ⟨call', ha', -, hpre⟩
            · have := hq call (by simp)
              simp [this] at ha
            · cases hm : made i σ with
              | nil => rfl
              | cons op' l =>
                rw [hm] at hpre
                obtain ⟨rfl, -⟩ := cons_prefix_cons.mp hpre
                have := hquiet call' (by simp [hm])
                simp [this] at ha'
          obtain ⟨path, hw⟩ := h.wf
          have hcov := Router.covers_route hw hatt
          rw [show (σ.preble.route call).2 = (σ.step s (.perform i)).preble from hpreble.symm]
            at hcov hlookup
          have hsome : record (ids i) (σ.step s (.perform i)) =
              some ⟨(σ.preble.inserted call).node, podIP⟩ := hlookup
          obtain ⟨es₂, es₃, rfl, hs₂, hcov', hrel, hs₃⟩ :=
            hnext.release hinj hid hrest hsome hatt hmade' hcov hended
          have hafter : ((σ.step s (.perform i)).run s es₂).step s (.perform i) =
              (σ.step s (.perform i)).run s (es₂ ++ [.perform i]) := by
            simp [System.run]
          refine ⟨[], es₂, es₃, ⟨(σ.preble.inserted call).node, podIP⟩, rfl, .nil hnone, hs₂, ?_,
            hcov'.above, fun n => ?_⟩
          · show Stays s (ids i) none (((σ.step s (.perform i)).run s es₂).step s (.perform i)) es₃
            rw [hafter]
            exact hs₃
          · show ((((σ.step s (.perform i)).run s es₂).step s (.perform i)).preble).cache.heap n = _
            rw [hafter, hrel]
            exact Router.heap_prebleOnRequestComplete (hs₂ es₂ (prefix_refl _)) hcov' n
      | _ => simp [Op.isPreble] at hk

omit [DecidableEq ι] in
lemma Watched.start (ids : ι → String) (base : Counters) (t : Time) (numPods : ℕ) (i : ι) :
    Watched ids base i (System.start base (.new t numPods)) := by
  refine ⟨Accounting.Inv.start ids base _, fun j op ho => ?_, ?_, _, LPRadixCache.WF.new t⟩
  · simp [System.start, Stream.calls] at ho
  · have hnil : prebleCalls ((System.start base (.new t numPods) : System ι).streams i).calls = [] :=
      rfl
    rw [hnil]
    have hquiet : Quiet ([] : List Op) := fun call hc => absurd hc not_mem_nil
    exact ⟨.inl hquiet, fun _ => .inl hquiet, fun _ _ => rfl, fun _ => .inl hquiet⟩

/-- **Every request that the Preble router has attached is released by the end of its
stream**, exactly once and on the
whole chain above its leaf, if all events meet the condition. -/
theorem prebleRelease_run (s : Server) (ids : ι → String) (hids : Function.Injective ids)
    (base : Counters) (t : Time) (numPods : ℕ) (es : List (Event ι))
    (hnamed : Along (System.step s) (System.Named ids) (.start base (.new t numPods)) es)
    (hone : ∀ i, es.countP (Event.isBodyOf i) ≤ 1) (i : ι) (hid : ids i ≠ "")
    (hok : Along (System.step s) (ReleaseOk s i (ids i)) (.start base (.new t numPods)) es) :
    let σ := (System.start base (.new t numPods)).run s es
    (σ.streams i).Ended →
    ∀ call : RouteCall, .prebleRoute call ∈ (σ.streams i).performed → call.attached.isSome = true →
      Released s i (ids i) (.start base (.new t numPods)) es ∧
      σ.preble.outstanding.lookup (ids i) = none := by
  intro σ hended call hcall ha
  have hfirst := along_firstBody (s := s) hone fun i => Or.inl (untouched_start base (.new t numPods) i)
  have hnq : ¬ Quiet (made i σ) := by
    intro hq
    have := hq call (mem_filter.mpr ⟨hcall, rfl⟩)
    simp [this] at ha
  have hlife : Released s i (ids i) (.start base (.new t numPods)) es := by
    refine (Watched.start ids base t numPods i).life hids hid (hnamed.and (hfirst.and hok)) rfl ?_
      hended hnq
    exact fun call hc => absurd hc not_mem_nil
  refine ⟨hlife, ?_⟩
  obtain ⟨es₁, es₂, es₃, st, heq, -, -, hs₃, -⟩ := hlife
  have hσ : σ = ((((System.start base (.new t numPods)).run s (es₁ ++ [.perform i])).run s es₂).step s
      (.perform i)).run s es₃ := by
    simp [σ, heq, System.run]
  rw [hσ]
  exact hs₃ es₃ (prefix_refl _)

/-- A streamed request that ends normally, but without a usage: it is never released. -/
theorem prebleRelease_run_kept :
    let es : List (Event Unit) := [Small.headers () "r" (Small.strategy "preble"),
      Small.request () Small.chatStreamed] ++ Small.performs () 6 ++
      [Small.response () (Small.chunk Small.token) false] ++ Small.performs () 6 ++
      [Small.response () Small.done true] ++ Small.performs () 8 ++ [.stop ()] ++
      Small.performs () 4
    let σ := (System.start Small.counters (.new 0 2)).run Small.server es
    (σ.streams ()).Ended ∧ (σ.preble.outstanding.lookup "r").map Outstanding.podIP = some "10.0.0.1" ∧
      (σ.preble.cache.heap 0).getRefCounterForPod "10.0.0.1" = 1 := by
  unfold Stream.Ended
  decide +kernel

/-- A streamed request with its usage before the end of the stream. -/
theorem prebleRelease_run_usage :
    let es : List (Event Unit) := [Small.headers () "r" (Small.strategy "preble"),
      Small.request () Small.chatStreamed] ++ Small.performs () 6 ++
      [Small.response () (Small.chunk Small.token) false] ++ Small.performs () 6 ++
      [Small.response () (Small.chunk Small.usage) false] ++ Small.performs () 6 ++
      [Small.response () Small.done true] ++ Small.performs () 8 ++ [.stop ()] ++
      Small.performs () 4
    let σ := (System.start Small.counters (.new 0 2)).run Small.server es
    (σ.streams ()).Ended ∧ σ.preble.outstanding.lookup "r" = none ∧
      (σ.preble.cache.heap 0).getRefCounterForPod "10.0.0.1" = 0 := by
  intro es σ
  have hσ : σ = (System.start Small.counters (.new 0 2)).run Small.server es := rfl
  rw [hσ]
  have h : (((System.start Small.counters (.new 0 2)).run Small.server es).streams ()).Ended := by
    unfold Stream.Ended
    decide +kernel
  have hcall : ((((System.start Small.counters (.new 0 2)).run Small.server es).streams
      ()).performed.any fun op => match op with
      | .prebleRoute call => call.attached.isSome
      | _ => false) = true := by decide +kernel
  have hok : Along (System.step Small.server) (ReleaseOk Small.server () "r")
      (.start Small.counters (.new 0 2)) es := by decide +kernel
  have hrel := prebleRelease_run Small.server (fun _ => "r") (fun _ _ _ => rfl) Small.counters 0 2
    es (by decide +kernel) (by decide +kernel) () (by decide) hok h
  obtain ⟨op, hop, ha⟩ := any_eq_true.mp hcall
  cases op with
  | prebleRoute call => exact ⟨h, (hrel call hop ha).2, by decide +kernel⟩
  | _ => simp at ha

end
end Lodestar.Gateway
