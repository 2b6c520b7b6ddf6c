import Lodestar.Gateway.Accounting
import Lodestar.Gateway.Calls

/-!
# The in-flight counters over all runs

What a stream holds on the counters follows from its context and its timing record
(`contrib`).  A turn of the loop and the deferred function move the one along with the
other, as long as the variables of the stream are coherent with its entries
(`Coherent`), which they stay.  Other streams do not interfere, because their requests
have other IDs.  So in every run the watched counters are the sum of what the streams
hold (`Inv.step`, `Inv.run`).
-/

namespace Lodestar.Gateway

open Lib Lodestar.Indexer List Function
open Function (update update_self update_of_ne forall_update_iff)

namespace Accounting

/-! ### One stream -/

section

variable (A : Accounting)

def contrib (p : Proc) (maps : Maps) : Account → ℤ :=
  match p.routerCtx with
  | none => nothing
  | some ctx => A.heldBy ctx (maps ctx.requestID)

/-- The variables of a stream fit the entries of its request `id`. -/
structure Coherent (id : String) (p : Proc) (maps : Maps) : Prop where
  ctx_eq : ∀ c, p.routerCtx = some c → p.ctx = some c
  unrouted : p.routerCtx = none → ∀ c, p.ctx = some c → c.targetPod = none
  requestID_eq : ∀ c, p.ctx = some c → c.requestID = id
  linked : ∀ c, p.ctx = some c → Linked c (maps id)
  fresh : p.ctx = none → (maps id).timing = none
  podIP_ne : ∀ c pod, p.ctx = some c → c.targetPod = some pod → pod.podIP ≠ ""
  cleaned : p.inflightCleaned = true → ∀ c pod, p.routerCtx = some c → c.targetPod = some pod →
    (maps id).timing = none

def Exitable (id : String) (p : Proc) (maps : Maps) : Prop :=
  ∀ c, p.routerCtx = some c → c.requestID = id ∧ ∀ pod, c.targetPod = some pod →
    pod.podIP ≠ "" ∧ Linked c (maps id) ∧ (p.inflightCleaned = true → (maps id).timing = none)

/-- The timing records and contexts of other requests stay as they are. -/
def OnlyAt (id : String) (maps maps' : Maps) : Prop :=
  ∀ id', id' ≠ id → (maps' id').timing = (maps id').timing ∧
    (maps' id').routingContext = (maps id').routingContext

/-- A turn of the loop moves the counters along with what the stream holds. -/
structure TurnOk (id : String) (p : Proc) (maps : Maps) (t : Turn) : Prop where
  settles : Settles A.amount (A.contrib p maps) t.ops (A.contrib t.proc t.maps)
  coherent : ∀ resp, t.outcome = .returned resp → Coherent id t.proc t.maps
  exitable : Exitable id t.proc t.maps
  onlyAt : OnlyAt id maps t.maps
  status : t.proc.status = p.status

variable {A} {id : String} {p : Proc} {maps maps' : Maps}

lemma contrib_nonneg (p : Proc) (maps : Maps) (k : Account) : 0 ≤ A.contrib p maps k := by
  unfold contrib
  cases p.routerCtx with
  | none => exact le_rfl
  | some ctx => exact heldBy_nonneg ctx _ k

variable {ctx : RoutingContext}

lemma contrib_of_some (h : p.routerCtx = some ctx) :
    A.contrib p maps = A.heldBy ctx (maps ctx.requestID) := by
  simp [contrib, h]

lemma contrib_of_none (h : p.routerCtx = none) : A.contrib p maps = nothing := by
  simp [contrib, h]

lemma contrib_of_unrouted (h : ∀ c, p.routerCtx = some c → c.targetPod = none) :
    A.contrib p maps = nothing := by
  cases hc : p.routerCtx with
  | none => exact contrib_of_none hc
  | some c => rw [contrib_of_some hc, heldBy_of_targetPod_none _ (h c hc)]

lemma Coherent.exitable (h : Coherent id p maps) : Exitable id p maps := by
  intro c hc
  have hctx := h.ctx_eq c hc
  exact ⟨h.requestID_eq c hctx, fun pod hp =>
    ⟨h.podIP_ne c pod hctx hp, h.linked c hctx, fun hcl => h.cleaned hcl c pod hc hp⟩⟩

lemma OnlyAt.update (id : String) (maps : Maps) (e : Entries) :
    OnlyAt id maps (update maps id e) := by
  intro id' hne
  rw [update_of_ne hne]
  exact ⟨rfl, rfl⟩

lemma Linked.congr {e e' : Entries} (h : Linked ctx e) (ht : e'.timing = e.timing)
    (hc : e'.routingContext = e.routingContext) : Linked ctx e' := by
  unfold Linked
  rw [ht, hc]
  exact h

lemma Coherent.of_same {p' : Proc} (h : Coherent id p maps)
    (ht : (maps' id).timing = (maps id).timing)
    (hc : (maps' id).routingContext = (maps id).routingContext) (hctx : p'.ctx = p.ctx)
    (hrouter : p'.routerCtx = p.routerCtx) (hcl : p'.inflightCleaned = p.inflightCleaned) :
    Coherent id p' maps' := by
  obtain ⟨h₁, h₂, h₃, h₄, h₅, h₆, h₇⟩ := h
  refine ⟨?_, ?_, ?_, ?_, ?_, ?_, ?_⟩
  · rwa [hctx, hrouter]
  · rwa [hctx, hrouter]
  · rwa [hctx]
  · intro c hc'
    exact (h₄ c (hctx ▸ hc')).congr ht hc
  · intro hc'
    exact ht.trans (h₅ (hctx ▸ hc'))
  · rwa [hctx]
  · intro hc' c pod hrc hp
    exact ht.trans (h₇ (hcl ▸ hc') c pod (hrouter ▸ hrc) hp)

variable {t : Turn}

lemma TurnOk.of_same (h : Coherent id p maps)
    (hrec : ∀ id', (t.maps id').timing = (maps id').timing ∧
      (t.maps id').routingContext = (maps id').routingContext) (hctx : t.proc.ctx = p.ctx)
    (hrouter : t.proc.routerCtx = p.routerCtx) (hcl : t.proc.inflightCleaned = p.inflightCleaned)
    (hst : t.proc.status = p.status) (hn : ∀ op ∈ t.ops, op.Neutral) : A.TurnOk id p maps t := by
  have hcontrib : A.contrib t.proc t.maps = A.contrib p maps := by
    unfold contrib
    rw [hrouter]
    cases p.routerCtx with
    | none => rfl
    | some c => exact heldBy_congr (hrec _).1
  have hcoh : Coherent id t.proc t.maps := h.of_same (hrec id).1 (hrec id).2 hctx hrouter hcl
  refine ⟨?_, fun _ _ => hcoh, hcoh.exitable, fun id' _ => hrec id', hst⟩
  rw [hcontrib]
  exact .of_neutral (contrib_nonneg p maps) fun op ho => amount_of_neutral (hn op ho)

lemma turnOk_of_idle (s : Server) (h : Coherent id p maps) {msg : Message}
    (hreq : msg.isRequestBody = false) (hresp : ∀ body env, msg ≠ .responseBody body env) :
    A.TurnOk id p maps (p.onMessage s maps msg) := by
  have hi := idle_onMessage s p maps hreq hresp
  refine .of_same h (fun id' => ⟨hi.timing id', routingContext_of_idle s p maps hreq hresp id'⟩)
    hi.same.ctx hi.same.routerCtx hi.inflightCleaned hi.same.status fun op hop => ?_
  obtain ⟨username, rfl⟩ := hi.ops op hop
  trivial

lemma Coherent.contrib_eq (h : Coherent id p maps) (hc : p.ctx = some ctx) :
    A.contrib p maps = A.heldBy ctx (maps id) := by
  cases hr : p.routerCtx with
  | none => rw [contrib_of_none hr, heldBy_of_targetPod_none _ (h.unrouted hr ctx hc)]
  | some c =>
    obtain rfl : c = ctx := Option.some.inj ((h.ctx_eq c hr).symm.trans hc)
    rw [contrib_of_some hr, h.requestID_eq c hc]

lemma TurnOk.of_moves {e' : Entries} (h : Coherent id p maps) (hc : p.ctx = some ctx)
    (hm : A.Moves ctx (maps id) t.ops e') (hmaps : t.maps = update maps id e')
    (hctx : t.proc.ctx = p.ctx) (hrouter : t.proc.routerCtx = p.routerCtx)
    (hst : t.proc.status = p.status)
    (hcl : t.proc.inflightCleaned = true → p.inflightCleaned = false →
      p.routerCtx.isSome → e'.timing = none) :
    A.TurnOk id p maps t := by
  obtain ⟨hs, hl, hn⟩ := hm (h.linked ctx hc)
  have he : t.maps id = e' := by rw [hmaps, update_self]
  have hcoh : Coherent id t.proc t.maps := by
    refine ⟨?_, ?_, ?_, ?_, ?_, ?_, ?_⟩
    · rw [hctx, hrouter]
      exact h.ctx_eq
    · rw [hctx, hrouter]
      exact h.unrouted
    · rw [hctx]
      exact h.requestID_eq
    · intro c hc'
      rw [he]
      obtain rfl := Option.some.inj ((hctx.symm.trans hc').symm.trans hc)
      exact hl
    · intro hnone
      rw [hctx, hc] at hnone
      simp at hnone
    · rw [hctx]
      exact h.podIP_ne
    · intro hcl' c pod hrc hp
      rw [he]
      rw [hrouter] at hrc
      cases hpc : p.inflightCleaned with
      | true => exact hn (h.cleaned hpc c pod hrc hp)
      | false => exact hcl hcl' hpc (by simp [hrc])
  refine ⟨?_, fun _ _ => hcoh, hcoh.exitable, hmaps ▸ OnlyAt.update id maps e', hst⟩
  rw [h.contrib_eq hc, hcoh.contrib_eq (hctx.trans hc), he]
  exact hs

attribute [local simp] RoutingContext.hasRouted

lemma turnOk_onErrorBody (h : Coherent id p maps) (msg : ResponseBody) :
    A.TurnOk id p maps (p.onErrorBody maps msg) := by
  unfold Proc.onErrorBody
  cases hr : p.routerCtx with
  | none => exact .of_same h (fun _ => ⟨rfl, rfl⟩) rfl rfl rfl rfl (by simp)
  | some ctx =>
    have hctx := h.ctx_eq ctx hr
    have hid := h.requestID_eq ctx hctx
    dsimp only
    split
    · exact .of_same h (fun _ => ⟨rfl, rfl⟩) rfl rfl rfl rfl (by simp)
    · rename_i hrouted
      split
      · exact .of_same h (fun _ => ⟨rfl, rfl⟩) rfl rfl rfl rfl (by simp)
      · obtain ⟨pod, hp⟩ : ∃ pod, ctx.targetPod = some pod :=
          Option.ne_none_iff_exists'.mp (by simpa using hrouted)
        have htiming := timing_cleanup hp (h.podIP_ne ctx pod hctx hp) (maps id)
        rw [hid]
        refine .of_moves h hctx (fun hl => ?_) rfl rfl hr.symm rfl fun _ _ _ => htiming
        refine ⟨settles_cleanup (fun pod => h.podIP_ne ctx pod hctx) hl, fun hsome => ?_,
          fun _ => htiming⟩
        simp [htiming] at hsome

lemma afterResponse_spec (p : Proc) (maps : Maps) (resp : ProcessingResponse) (completed : Bool) :
    (p.afterResponse maps resp completed).1.ctx = p.ctx ∧
    (p.afterResponse maps resp completed).1.routerCtx = p.routerCtx ∧
    (p.afterResponse maps resp completed).1.status = p.status ∧
    ((p.afterResponse maps resp completed).1.inflightCleaned = true → p.inflightCleaned = false →
      ∃ c, p.routerCtx = some c ∧ (maps c.requestID).timing = none) := by
  unfold Proc.afterResponse
  split
  · cases hr : p.routerCtx with
    | none => exact ⟨rfl, rfl, rfl, fun h h' => by simp [h'] at h⟩
    | some c =>
      refine ⟨rfl, rfl, rfl, fun h h' => ⟨c, rfl, ?_⟩⟩
      simpa [h'] using h
  · exact ⟨rfl, rfl, rfl, fun h h' => by simp [h'] at h⟩

lemma turnOk_onResponseBody (s : Server) (h : Coherent id p maps) (msg : ResponseBody)
    (env : ResponseEnv) (hend : p.isRespError = false → ∀ ctx, p.ctx = some ctx →
      A.EndsRipe (p.responseCall s ctx msg env) (maps ctx.requestID)) :
    A.TurnOk id p maps (p.onResponseBody s maps msg env) := by
  unfold Proc.onResponseBody
  split
  · exact turnOk_onErrorBody h msg
  · rename_i herr
    cases hctx : p.ctx with
    | none => exact .of_same h (fun _ => ⟨rfl, rfl⟩) rfl rfl rfl rfl (by simp)
    | some ctx =>
      have hid := h.requestID_eq ctx hctx
      have hend := hend (by simpa using herr) ctx hctx
      rw [hid] at hend
      have hm := moves_handle p.completed hend
      dsimp only
      rw [hid]
      split
      · obtain ⟨hactx, harouter, hast, hacl⟩ := afterResponse_spec p (update maps id
          ((p.responseCall s ctx msg env).handle p.completed (maps id)).entries) _ _
        refine .of_moves h hctx hm rfl hactx harouter hast fun hc hc' _ => ?_
        obtain ⟨c, hrc, htiming⟩ := hacl hc hc'
        obtain rfl := Option.some.inj ((h.ctx_eq c hrc).symm.trans hctx)
        rwa [hid, update_self] at htiming
      · exact .of_moves h hctx hm rfl rfl rfl rfl fun hc hc' => by simp [hc'] at hc
      · exact .of_moves h hctx hm rfl rfl rfl rfl fun hc hc' => by simp [hc'] at hc

/-- A request body is handled under the request's own ID, on a stream that has no
routed request and has not been cleaned. -/
def BodyOk (id : String) (p : Proc) : Prop :=
  p.requestID = id ∧ (∀ c, p.routerCtx = some c → c.targetPod = none) ∧ p.inflightCleaned = false

variable {s : Server} {env : BodyEnv} {pods : List Pod} {ops : List Op}

lemma neutral_selectTargetPod {selection : Selection}
    (h : selectTargetPod s env ctx pods = (ops, selection)) : ∀ op ∈ ops, op.Neutral := by
  intro op ho
  obtain ⟨call, rfl, -⟩ := selectTargetPod_ops h op ho
  trivial

lemma podIP_ne_of_selected {pod : Pod} (h : selectTargetPod s env ctx pods = (ops, .target pod)) :
    pod.podIP ≠ "" := by
  have := selectTargetPod_target h
  simp only [filterRoutablePods, mem_filter, decide_eq_true_eq] at this
  exact this.2.1

lemma TurnOk.of_context {e' : Entries} (hcontrib : A.contrib p maps = nothing)
    (hmaps : t.maps = update maps id e') (hctx : t.proc.ctx = some ctx)
    (hrouter : t.proc.routerCtx = some ctx) (hid : ctx.requestID = id) (hl : Linked ctx e')
    (hip : ∀ pod, ctx.targetPod = some pod → pod.podIP ≠ "") (hcl : t.proc.inflightCleaned = false)
    (hst : t.proc.status = p.status) (hs : Settles A.amount nothing t.ops (A.heldBy ctx e')) :
    A.TurnOk id p maps t := by
  have he : t.maps id = e' := by rw [hmaps, update_self]
  have hcoh : Coherent id t.proc t.maps := by
    refine ⟨?_, ?_, ?_, ?_, ?_, ?_, ?_⟩
    · intro c hc
      rw [hctx, ← hrouter, hc]
    · intro hnone
      simp [hrouter] at hnone
    · intro c hc
      obtain rfl := Option.some.inj (hctx.symm.trans hc)
      exact hid
    · intro c hc
      obtain rfl := Option.some.inj (hctx.symm.trans hc)
      exact he ▸ hl
    · intro hnone
      simp [hctx] at hnone
    · intro c pod hc hp
      obtain rfl := Option.some.inj (hctx.symm.trans hc)
      exact hip pod hp
    · intro hc
      simp [hcl] at hc
  refine ⟨?_, fun _ _ => hcoh, hcoh.exitable, hmaps ▸ OnlyAt.update id maps e', hst⟩
  rw [hcontrib, hcoh.contrib_eq hctx, he]
  exact hs

lemma TurnOk.of_no_context (h : Coherent id p maps) (hcontrib : A.contrib p maps = nothing)
    (hunrouted : ∀ c, p.ctx = some c → c.targetPod = none) (hmaps : t.maps = maps)
    (hctx : t.proc.ctx = p.ctx) (hrouter : t.proc.routerCtx = none) (hst : t.proc.status = p.status)
    (hn : ∀ op ∈ t.ops, op.Neutral) : A.TurnOk id p maps t := by
  have hcoh : Coherent id t.proc t.maps := by
    refine ⟨?_, ?_, ?_, ?_, ?_, ?_, ?_⟩
    · intro c hc
      simp [hrouter] at hc
    · rw [hctx]
      exact fun _ => hunrouted
    · rw [hctx]
      exact h.requestID_eq
    · rw [hctx, hmaps]
      exact h.linked
    · rw [hctx, hmaps]
      exact h.fresh
    · rw [hctx]
      exact h.podIP_ne
    · intro _ c pod hc
      simp [hrouter] at hc
  refine ⟨?_, fun _ _ => hcoh, hcoh.exitable, hmaps ▸ fun _ _ => ⟨rfl, rfl⟩, hst⟩
  rw [hcontrib, contrib_of_none hrouter]
  exact .of_neutral (fun _ => le_rfl) fun op ho => amount_of_neutral (hn op ho)

lemma TurnOk.of_stuck {e' : Entries} (h : Coherent id p maps)
    (hrouter : ∀ c, p.routerCtx = some c → c.targetPod = none) (hmaps : t.maps = update maps id e')
    (hproc : t.proc = p) (hout : ∀ resp, t.outcome ≠ .returned resp)
    (hn : ∀ op ∈ t.ops, op.Neutral) :
    A.TurnOk id p maps t := by
  refine ⟨?_, fun resp hr => absurd hr (hout resp), ?_, hmaps ▸ OnlyAt.update id maps e',
    hproc ▸ rfl⟩
  · rw [hproc, contrib_of_unrouted hrouter, contrib_of_unrouted hrouter]
    exact .of_neutral (fun _ => le_rfl) fun op ho => amount_of_neutral (hn op ho)
  · rw [hproc]
    intro c hc
    refine ⟨h.requestID_eq c (h.ctx_eq c hc), fun pod hp => ?_⟩
    simp [hrouter c hc] at hp

attribute [local simp] Proc.afterBody

lemma turnOk_onRequestBody (s : Server) (h : Coherent id p maps) (hb : BodyOk id p) (body : String)
    (env : BodyEnv) : A.TurnOk id p maps (p.onRequestBody s maps body env) := by
  obtain ⟨hid, hrouter, hcl⟩ := hb
  -- so far the stream holds nothing, and its context, if any, has no target
  have hcontrib : A.contrib p maps = nothing := contrib_of_unrouted hrouter
  have hunrouted : ∀ c, p.ctx = some c → c.targetPod = none := by
    intro c hc
    cases hr : p.routerCtx with
    | none => exact h.unrouted hr c hc
    | some c' =>
      obtain rfl := Option.some.inj ((h.ctx_eq c' hr).symm.trans hc)
      exact hrouter c' hr
  unfold Proc.onRequestBody
  rw [hid]
  have hcase := @handleRequestBody_cases s env (maps id) id body p.user p.routingAlgorithm
  generalize handleRequestBody s env id body p.user p.routingAlgorithm (maps id) = handled at hcase
  cases hcase with
  | rejected r hr =>
    refine .of_no_context h hcontrib hunrouted (update_eq_self id maps) ?_ ?_ ?_
      (by simp) <;> simp [hr]
  | notRouted r model hr halg =>
    refine .of_no_context h hcontrib hunrouted (update_eq_self id maps) ?_ ?_ ?_
      (by simp [Op.Neutral]) <;> simp [hr]
  | noMessage r ctx hr hrid hp =>
    have hl : Linked ctx (maps id) := by
      intro ht
      cases hc : p.ctx with
      | none => simp [h.fresh hc] at ht
      | some c =>
        obtain ⟨c', hc', hpod⟩ := h.linked c hc ht
        exact ⟨c', hc', by rw [hpod, hunrouted c hc, hp]⟩
    refine .of_context hcontrib rfl (by simp [hr])
      (by simp [hr]) hrid hl (by simp [hp]) (by simp [hr, hcl])
      (by simp [hr]) ?_
    rw [heldBy_of_targetPod_none _ hp]
    exact .nil fun _ => le_rfl
  | failed r ctx pods e' ops message hr hrid hp hc hsel =>
    refine .of_context hcontrib rfl (by simp [hr])
      (by simp [hr]) hrid (fun _ => ⟨ctx, hc, rfl⟩) (by simp [hp])
      (by simp [hr, hcl]) (by simp [hr]) ?_
    rw [heldBy_of_targetPod_none _ hp]
    exact .of_neutral (fun _ => le_rfl) fun op ho =>
      amount_of_neutral (neutral_selectTargetPod hsel op ho)
  | blocked _ _ _ _ _ hsel | panicked _ _ _ _ _ hsel =>
    exact .of_stuck h hrouter rfl rfl (by simp) (neutral_selectTargetPod hsel)
  | routed r ctx pods pod timing e' ops hrid hr hmodel hc ht hfirst hsel =>
    have hrid' : ({ ctx with targetPod := some pod } : RoutingContext).requestID = id := hrid
    refine .of_context hcontrib rfl (by simp [hr])
      (by simp [hr]) hrid' (fun _ => ⟨_, hc, rfl⟩) ?_
      (by simp [hr, hcl]) (by simp [hr]) ?_
    · intro pod' hp
      obtain rfl := Option.some.inj hp
      exact podIP_ne_of_selected hsel
    · rw [heldBy_of_some rfl ht]
      refine (Settles.of_neutral (fun _ => le_rfl) fun op ho =>
        amount_of_neutral (neutral_selectTargetPod hsel op ho)).trans ?_
      have hcount : Settles A.amount (A.holding pod.podIP timing)
          [.addRequestCount (some pod) ctx.requestID ctx.model] (A.holding pod.podIP timing) := by
        refine Settles.of_neutral (holding_nonneg _ _) fun op ho => ?_
        obtain rfl := List.mem_singleton.mp ho
        exact amount_of_neutral trivial
      exact (A.arrive pod.podIP timing hfirst).trans hcount

/-- What has to hold of a message for the books to be kept. -/
def MessageOk (A : Accounting) (s : Server) (id : String) (p : Proc) (maps : Maps) : Message → Prop
  | .requestBody _ _ => BodyOk id p
  | .responseBody msg env => p.isRespError = false → ∀ ctx, p.ctx = some ctx →
      A.EndsRipe (p.responseCall s ctx msg env) (maps ctx.requestID)
  | _ => True

/-- **One turn** of the loop moves the counters along with what the stream holds. -/
lemma turnOk_onMessage (s : Server) (h : Coherent id p maps) {msg : Message}
    (hm : MessageOk A s id p maps msg) : A.TurnOk id p maps (p.onMessage s maps msg) := by
  cases msg with
  | requestBody body env => exact turnOk_onRequestBody s h hm body env
  | responseBody msg env => exact turnOk_onResponseBody s h msg env hm
  | requestHeaders | responseHeaders | unknown => exact turnOk_of_idle s h rfl (by simp)

/-- A stream before and after it acts, with the calls it queues. -/
structure ActsOk (A : Accounting) (id : String) (p : Proc) (maps : Maps) (p' : Proc) (maps' : Maps)
    (ops : List Op) : Prop where
  settles : Settles A.amount (A.contrib p maps) ops (A.contrib p' maps')
  coherent : p'.status = .running → Coherent id p' maps'
  ended : p'.status = .ended → A.contrib p' maps' = nothing
  requestID_eq : ∀ c, p'.routerCtx = some c → c.requestID = id
  onlyAt : OnlyAt id maps maps'

lemma settles_cleanupAtExit (h : Exitable id p maps) (hr : p.routerCtx = some ctx) :
    Settles A.amount (A.heldBy ctx (maps id)) (p.cleanupAtExit ctx (maps id)).2 nothing ∧
      A.heldBy ctx (p.cleanupAtExit ctx (maps id)).1 = nothing := by
  have hrouted := (h ctx hr).2
  unfold Proc.cleanupAtExit
  cases hp : ctx.targetPod with
  | none =>
    rw [if_neg (by simp [hp])]
    rw [heldBy_of_targetPod_none _ hp, heldBy_of_targetPod_none _ hp]
    exact ⟨.of_neutral (fun _ => le_rfl) fun op ho =>
      amount_of_neutral (neutral_cleanupPerRequestState _ op ho), rfl⟩
  | some pod =>
    obtain ⟨hip, hl, hcl⟩ := hrouted pod hp
    rw [if_pos (by simp [hp])]
    split
    · rename_i hcleaned
      rw [heldBy_of_timing_none _ (hcl hcleaned)]
      exact ⟨.nil fun _ => le_rfl, rfl⟩
    · have hnone := heldBy_of_timing_none (A := A) ctx (timing_cleanup hp hip (maps id))
      refine ⟨hnone ▸ settles_cleanup (fun pod' hp' => ?_) hl, hnone⟩
      exact (hrouted pod' hp').1

/-- **The deferred function** gives back what the stream holds. -/
lemma settles_exit (h : Exitable id p maps) :
    Settles A.amount (A.contrib p maps) (p.exit maps).2 nothing ∧
      A.contrib p (p.exit maps).1 = nothing ∧ OnlyAt id maps (p.exit maps).1 := by
  cases hr : p.routerCtx with
  | none =>
    have hexit : p.exit maps = (maps, []) := by simp [Proc.exit, hr]
    rw [hexit, contrib_of_none hr]
    exact ⟨.nil fun _ => le_rfl, rfl, fun _ _ => ⟨rfl, rfl⟩⟩
  | some ctx =>
    have hid := (h ctx hr).1
    obtain ⟨hs, hnone⟩ := settles_cleanupAtExit h hr
    simp only [Proc.exit, hr]
    rw [contrib_of_some hr, contrib_of_some hr, hid, update_self]
    -- the request count is on other state
    refine ⟨hs.trans (.of_neutral (fun _ => le_rfl) fun op ho => ?_), hnone,
      OnlyAt.update id maps _⟩
    split at ho
    · obtain rfl := List.mem_singleton.mp ho
      exact amount_of_neutral trivial
    · simp at ho

lemma actsOk_exit {p' : Proc} (h : Exitable id p' maps') (hon : OnlyAt id maps maps')
    (hs : Settles A.amount (A.contrib p maps) ops (A.contrib p' maps')) :
    ActsOk A id p maps { p' with status := .ended } (p'.exit maps').1 (ops ++ (p'.exit maps').2) := by
  obtain ⟨hse, hnone, hon'⟩ := settles_exit h
  have hcontrib : A.contrib { p' with status := .ended } (p'.exit maps').1 = nothing := hnone
  refine ⟨?_, by simp, fun _ => hcontrib, fun c hc => (h c hc).1, fun id' hne => ?_⟩
  · rw [hcontrib]
    exact hs.trans hse
  · obtain ⟨ht, hc⟩ := hon id' hne
    obtain ⟨ht', hc'⟩ := hon' id' hne
    exact ⟨ht'.trans ht, hc'.trans hc⟩

lemma actsOk_receive (s : Server) (h : Coherent id p maps) (hrun : p.status = .running)
    {msg : Message} (hm : MessageOk A s id p maps msg) (sendFails : Bool) :
    ActsOk A id p maps (p.receive s maps msg sendFails).1 (p.receive s maps msg sendFails).2.1
      (p.receive s maps msg sendFails).2.2 := by
  have ht := turnOk_onMessage s h hm
  have hstatus : (p.onMessage s maps msg).proc.status = .running := ht.status.trans hrun
  have hnamed : ∀ c, (p.onMessage s maps msg).proc.routerCtx = some c → c.requestID = id :=
    fun c hc => (ht.exitable c hc).1
  have hexit := actsOk_exit ht.exitable ht.onlyAt ht.settles
  unfold Proc.receive
  dsimp only
  cases hout : (p.onMessage s maps msg).outcome with
  | returned resp =>
    cases sendFails with
    | true => exact hexit
    | false =>
      exact ⟨ht.settles, fun _ => ht.coherent resp hout, fun h => by simp [hstatus] at h, hnamed,
        ht.onlyAt⟩
  | blocked =>
    exact ⟨ht.settles, by simp, by simp, hnamed, ht.onlyAt⟩
  | panicked => exact hexit

end

lemma value_countersAfter (c : Counters) (op : Op) (k : Account)
    (h : 0 ≤ c.value k.1 k.2 + op.amount k) :
    (System.countersAfter c op).value k.1 k.2 = c.value k.1 k.2 + op.amount k := by
  obtain ⟨counter', podIP'⟩ := k
  have hset : ∀ counter podIP v, (c.set counter podIP v).value counter' podIP' =
      if (counter', podIP') = (counter, podIP) then v else c.value counter' podIP' := by
    intro counter podIP v
    unfold Counters.value Counters.set
    by_cases hc : counter' = counter
    · subst hc
      by_cases hp : podIP' = podIP
      · subst hp
        simp
      · simp [hp]
    · simp [hc]
  cases op with
  | increment counter podIP n =>
    simp only [System.countersAfter, Counters.increment, hset, Op.amount]
    split
    · rename_i heq
      obtain ⟨rfl, rfl⟩ := Prod.mk.inj heq
      rfl
    · rw [add_zero]
  | decrement counter podIP n =>
    simp only [System.countersAfter, Counters.decrement, Op.amount] at h ⊢
    by_cases heq : (counter', podIP') = (counter, podIP)
    · obtain ⟨rfl, rfl⟩ := Prod.mk.inj heq
      rw [if_pos rfl] at h ⊢
      cases hv : c counter' podIP' with
      | none =>
        have h0 : c.value counter' podIP' = 0 := by simp [Counters.value, hv]
        rw [h0] at h ⊢
        omega
      | some v =>
        have h0 : c.value counter' podIP' = v := by simp [Counters.value, hv]
        rw [h0] at h ⊢
        dsimp only
        rw [if_neg (by omega), hset, if_pos rfl]
        ring
    · rw [if_neg heq, add_zero]
      split
      · rfl
      · split
        · rfl
        · rw [hset, if_neg heq]
  | _ => simp [System.countersAfter, Op.amount]

/-! ### All streams -/

section

variable {ι : Type*} (A : Accounting)

def watchedValue (c : Counters) (k : Account) : ℤ :=
  if A.watched k.1 then c.value k.1 k.2 else 0

def booked (t : Stream) : Account → ℤ := sumOf A.amount t.performed

/-- **The books of the gateway**: each stream is on the way to what its variables say
it holds, and the counters are the sum of what the streams hold. -/
structure Inv [Fintype ι] (ids : ι → String) (base : Counters) (σ : System ι) : Prop where
  settles : ∀ i, Settles A.amount (A.booked (σ.streams i)) (σ.streams i).pending
    (A.contrib (σ.streams i).proc σ.maps)
  coherent : ∀ i, (σ.streams i).proc.status = .running → Coherent (ids i) (σ.streams i).proc σ.maps
  ended : ∀ i, (σ.streams i).proc.status = .ended → A.contrib (σ.streams i).proc σ.maps = nothing
  requestID_eq : ∀ i c, (σ.streams i).proc.routerCtx = some c → c.requestID = ids i
  ledger : Ledger (A.watchedValue base) (A.watchedValue σ.counters) fun i => A.booked (σ.streams i)

/-- What has to hold of an event for the books to be kept. -/
def EventOk (s : Server) (ids : ι → String) (σ : System ι) : Event ι → Prop
  | .receive i msg _ => System.ready (σ.streams i) = true →
      MessageOk A s (ids i) (σ.streams i).proc σ.maps msg
  | _ => True

variable {A} [Fintype ι] [DecidableEq ι] {s : Server} {ids : ι → String} {base : Counters}
  {σ : System ι}

lemma ready_iff {t : Stream} :
    System.ready t = true ↔ t.proc.status = .running ∧ t.pending = [] := by
  simp [System.ready]

lemma Inv.advance (hinj : Function.Injective ids) (h : A.Inv ids base σ) {i : ι}
    (hp : (σ.streams i).pending = []) {p' : Proc} {maps' : Maps} {ops : List Op}
    (ha : ActsOk A (ids i) (σ.streams i).proc σ.maps p' maps' ops) :
    A.Inv ids base (σ.advance i p' maps' ops) := by
  -- the other streams do not notice
  have hother : ∀ j, j ≠ i → ∀ c, (σ.streams j).proc.routerCtx = some c →
      (maps' c.requestID).timing = (σ.maps c.requestID).timing := by
    intro j hne c hc
    rw [h.requestID_eq j c hc]
    exact (ha.onlyAt _ fun heq => hne (hinj heq)).1
  have hcontrib : ∀ j, j ≠ i → A.contrib (σ.streams j).proc maps' = A.contrib (σ.streams j).proc σ.maps := by
    intro j hne
    cases hc : (σ.streams j).proc.routerCtx with
    | none => rw [contrib_of_none hc, contrib_of_none hc]
    | some c => rw [contrib_of_some hc, contrib_of_some hc, heldBy_congr (hother j hne c hc)]
  have hsettled := h.settles i
  rw [hp] at hsettled
  refine ⟨(forall_update_iff _ fun _ (t : Stream) => Settles A.amount (A.booked t) t.pending
      (A.contrib t.proc maps')).mpr ⟨?_, fun j hji => (hcontrib j hji).symm ▸ h.settles j⟩,
    (forall_update_iff _ fun j (t : Stream) => t.proc.status = .running →
      Coherent (ids j) t.proc maps').mpr ⟨ha.coherent, fun j hji hrun => ?_⟩,
    (forall_update_iff _ fun _ (t : Stream) => t.proc.status = .ended →
      A.contrib t.proc maps' = nothing).mpr
      ⟨ha.ended, fun j hji hend => (hcontrib j hji).trans (h.ended j hend)⟩,
    forall_update (P := fun j (t : Stream) => ∀ c, t.proc.routerCtx = some c → c.requestID = ids j)
      h.requestID_eq ha.requestID_eq, ?_⟩
  · exact hsettled.eq_of_nil ▸ ha.settles
  · obtain ⟨ht, hc⟩ := ha.onlyAt (ids j) fun heq => hji (hinj heq)
    exact (h.coherent j hrun).of_same ht hc rfl rfl rfl
  · have hbooked : (fun j => A.booked ((σ.advance i p' maps' ops).streams j)) =
        fun j => A.booked (σ.streams j) := funext (field_update A.booked rfl)
    rw [hbooked]
    exact h.ledger

omit [DecidableEq ι] in
lemma Inv.booked_nonneg (h : A.Inv ids base σ) (i : ι) (k : Account) :
    0 ≤ A.booked (σ.streams i) k :=
  (h.settles i).solvent.nonneg k

lemma Inv.perform (hbase : ∀ k, 0 ≤ A.watchedValue base k) (h : A.Inv ids base σ) (i : ι) :
    A.Inv ids base (σ.perform i) := by
  unfold System.perform
  cases hp : (σ.streams i).pending with
  | nil => exact h
  | cons op ops =>
    have hsettles := h.settles i
    rw [hp] at hsettles
    obtain ⟨-, hsettles⟩ := Settles.cons_iff.mp hsettles
    let t : Stream := { σ.streams i with
      pending := ops, performed := (σ.streams i).performed ++ [op] }
    have hbooked : A.booked t = fun k => A.booked (σ.streams i) k + A.amount op k := by
      funext k
      simp [booked, t]
    -- the call changes the counters by its amount
    have hvalue : ∀ k, A.watchedValue (System.countersAfter σ.counters op) k =
        A.watchedValue σ.counters k + A.amount op k := by
      intro k
      have hle := h.ledger.held_le h.booked_nonneg i k
      have h0 := hsettles.solvent.nonneg k
      have hb := hbase k
      unfold watchedValue Books.amount at *
      split
      · rename_i hw
        simp only [if_pos hw] at *
        exact value_countersAfter _ _ _ (by omega)
      · rfl
    have hledger := h.ledger.book i hvalue
    have hupd : (update (fun j => A.booked (σ.streams j)) i fun k =>
        A.booked (σ.streams i) k + A.amount op k) = fun j => A.booked (update σ.streams i t j) := by
      rw [← hbooked]
      exact (comp_update A.booked σ.streams i t).symm
    have hproc : ∀ {P : ι → Proc → Prop}, (∀ j, P j (σ.streams j).proc) →
        ∀ j, P j (update σ.streams i t j).proc := fun {P} hP =>
      forall_update (P := fun j (t : Stream) => P j t.proc) hP (hP i)
    exact ⟨forall_update (P := fun _ (t : Stream) => Settles A.amount (A.booked t) t.pending
        (A.contrib t.proc σ.maps)) h.settles (hbooked ▸ hsettles),
      hproc (P := fun j p => p.status = .running → Coherent (ids j) p σ.maps) h.coherent,
      hproc (P := fun _ p => p.status = .ended → A.contrib p σ.maps = nothing) h.ended,
      hproc (P := fun j p => ∀ c, p.routerCtx = some c → c.requestID = ids j) h.requestID_eq,
      hupd ▸ hledger⟩

lemma Inv.step (hinj : Function.Injective ids) (hbase : ∀ k, 0 ≤ A.watchedValue base k)
    (h : A.Inv ids base σ) {e : Event ι} (he : A.EventOk s ids σ e) :
    A.Inv ids base (σ.step s e) := by
  cases e with
  | receive i msg sendFails =>
    unfold System.step
    dsimp only
    split
    · rename_i hready
      obtain ⟨hrun, hp⟩ := ready_iff.mp hready
      exact h.advance hinj hp (actsOk_receive s (h.coherent i hrun) hrun (he hready) sendFails)
    · exact h
  | stop i =>
    unfold System.step
    dsimp only
    split
    · rename_i hready
      obtain ⟨hrun, hp⟩ := ready_iff.mp hready
      have hacts := actsOk_exit (h.coherent i hrun).exitable (fun _ _ => ⟨rfl, rfl⟩)
        (.nil (A.contrib_nonneg (σ.streams i).proc σ.maps))
      exact h.advance hinj hp hacts
    · exact h
  | perform i => exact h.perform hbase i
  | evict now order => exact ⟨h.settles, h.coherent, h.ended, h.requestID_eq, h.ledger⟩

attribute [local simp] System.start
omit [DecidableEq ι] in
lemma Inv.start (ids : ι → String) (base : Counters) (preble : Routing.Router) :
    A.Inv ids base (System.start base preble) := by
  refine ⟨fun i => .nil fun _ => le_rfl, fun i _ => ?_, fun i h => rfl, fun i c h => ?_,
    fun k => ?_⟩
  · exact ⟨by simp, by simp, by simp, by simp, fun _ => rfl, by simp, by simp⟩
  · simp at h
  · simp [booked]

omit [Fintype ι] [DecidableEq ι] in
lemma eventOk_of_firstBody (hripe : ∀ timing, A.Ripe timing) {e : Event ι}
    (hn : System.Named ids σ e) (h : σ.FirstBody e) : A.EventOk s ids σ e := by
  cases e with
  | receive i msg sendFails =>
    intro hready
    cases msg with
    | requestBody body env =>
      have hu := h rfl
      exact ⟨hn hready, fun c hc => by simp [hu.routerCtx] at hc, hu.inflightCleaned⟩
    | responseBody msg env => exact fun _ _ _ _ _ timing _ => .inl (hripe timing)
    | _ => trivial
  | _ => trivial

lemma Inv.run (hinj : Function.Injective ids) (hbase : ∀ k, 0 ≤ A.watchedValue base k)
    (h : A.Inv ids base σ) {es : List (Event ι)} (hes : Along (System.step s) (A.EventOk s ids) σ es) :
    A.Inv ids base (σ.run s es) :=
  hes.invariant h fun _ _ hI he => hI.step hinj hbase he

end

/-! ### No counters -/

/-- The books that watch no counter: what is left of the invariant is that the variables of
the streams fit their entries. -/
def noBooks : Books where
  watched := fun _ => false
  share := fun _ _ => 0

lemma noBooks_settles (podIP : String) (timing : RequestTiming) (ops : List Op) :
    Settles noBooks.amount (noBooks.holding podIP timing) ops nothing := by
  exact .of_neutral (fun _ => le_rfl) fun op _ k => by simp [Books.amount, noBooks]

def noAccounting : Accounting where
  toBooks := noBooks
  Ripe := fun _ => True
  share_nonneg := fun _ _ => le_rfl
  arrive := fun podIP timing _ => noBooks_settles podIP timing _
  token := fun _ podIP _ timing => noBooks_settles podIP timing _
  token_ripe := fun _ _ _ _ => trivial
  release := fun _ podIP timing => noBooks_settles podIP timing _
  releaseAgain := fun podIP timing => noBooks_settles podIP timing _
  finish := fun podIP timing _ => noBooks_settles podIP timing _
  buffered := fun _ _ _ => ⟨rfl, trivial⟩

end Accounting
end Lodestar.Gateway
