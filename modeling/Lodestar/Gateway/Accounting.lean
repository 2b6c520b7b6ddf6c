import Lodestar.Lib.Ledger
import Lodestar.Gateway.Process
import Lodestar.Gateway.ResponseParts

/-!
# What a routed request holds on the in-flight counters

A request that is routed and has its timing record holds a share of some counters of
its target pod, and nothing once the record is gone: the record is the token for the
release.  An `Accounting` names the counters that are watched and the share, by the
phase that the record shows, and says which calls of the handlers move the one along
with the other.  From that follows for every handler, and then for every run of any
number of streams, that the shared counters are the sum of what the requests hold.
-/

namespace Lodestar.Gateway

open Lib Lodestar.Indexer List

abbrev Account := Counter × String

def Op.amount : Op → Account → ℤ
  | .increment counter podIP n, k => if k = (counter, podIP) then n else 0
  | .decrement counter podIP n, k => if k = (counter, podIP) then -n else 0
  | _, _ => 0

/-- The call is on other state than the in-flight counters. -/
def Op.Neutral : Op → Prop
  | .increment _ _ _ => False
  | .decrement _ _ _ => False
  | _ => True

/-- The watched counters, and the share of a request by its timing record. -/
structure Books where
  watched : Counter → Bool
  share : RequestTiming → Counter → ℤ

namespace Books

variable (B : Books)

def amount (op : Op) (k : Account) : ℤ := if B.watched k.1 then op.amount k else 0

/-- What a request with target `podIP` holds. -/
def holding (podIP : String) (timing : RequestTiming) (k : Account) : ℤ :=
  if B.watched k.1 ∧ k.2 = podIP then B.share timing k.1 else 0

end Books

def nothing : Account → ℤ := fun _ => 0

/-- Books that the calls of the handlers keep.  `Ripe` are the timing records with
which the end of a stream may be handled. -/
structure Accounting extends Books where
  Ripe : RequestTiming → Prop
  share_nonneg : ∀ timing counter, 0 ≤ share timing counter
  arrive : ∀ podIP (timing : RequestTiming), timing.firstTokenTime = none →
    Settles toBooks.amount nothing [incrementNumInflightForPod podIP,
      incrementNumInflightPrefillRequestsForPod podIP,
      incrementNumInflightPrefillTokensForPod podIP timing.prefillTokenCount]
      (toBooks.holding podIP timing)
  token : ∀ requestID podIP now timing,
    Settles toBooks.amount (toBooks.holding podIP timing) (onToken requestID podIP now timing).2
      (toBooks.holding podIP (onToken requestID podIP now timing).1)
  token_ripe : ∀ requestID podIP now timing, Ripe (onToken requestID podIP now timing).1
  release : ∀ requestID podIP timing,
    Settles toBooks.amount (toBooks.holding podIP timing) (releaseOps requestID podIP timing) nothing
  releaseAgain : ∀ podIP timing, Settles toBooks.amount (toBooks.holding podIP timing)
      (ResponseCall.releaseAgainOps podIP timing) nothing
  finish : ∀ podIP timing, Ripe timing → Settles toBooks.amount (toBooks.holding podIP timing)
      [decrementNumInflightRequestsForPod podIP,
        decrementNumInflightDecodeTokensForPod podIP timing.decodeTokenCount,
        decrementNumInflightDecodeRequestsForPod podIP] nothing
  buffered : ∀ (timing : RequestTiming) now, Ripe timing →
    share { timing with firstTokenTime := timing.firstTokenTime.or (some now) } = share timing ∧
      Ripe { timing with firstTokenTime := timing.firstTokenTime.or (some now) }

namespace Accounting

variable (A : Accounting)

/-- What a request holds, by its context and its entries. -/
def heldBy (ctx : RoutingContext) (e : Entries) : Account → ℤ :=
  match ctx.targetPod, e.timing with
  | some pod, some timing => A.holding pod.podIP timing
  | _, _ => nothing

variable {A}

lemma holding_nonneg (podIP : String) (timing : RequestTiming) (k : Account) :
    0 ≤ A.holding podIP timing k := by
  unfold Books.holding
  split
  · exact A.share_nonneg timing k.1
  · exact le_rfl

lemma heldBy_of_some {ctx : RoutingContext} {e : Entries} {pod : Pod} {timing : RequestTiming}
    (hp : ctx.targetPod = some pod) (ht : e.timing = some timing) :
    A.heldBy ctx e = A.holding pod.podIP timing := by
  simp [heldBy, hp, ht]

lemma heldBy_of_timing_none (ctx : RoutingContext) {e : Entries} (h : e.timing = none) :
    A.heldBy ctx e = nothing := by
  unfold heldBy
  rw [h]
  cases ctx.targetPod <;> rfl

lemma heldBy_of_targetPod_none {ctx : RoutingContext} (e : Entries) (h : ctx.targetPod = none) :
    A.heldBy ctx e = nothing := by
  simp [heldBy, h]

lemma heldBy_nonneg (ctx : RoutingContext) (e : Entries) (k : Account) : 0 ≤ A.heldBy ctx e k := by
  cases ht : e.timing with
  | none => rw [heldBy_of_timing_none ctx ht]; exact le_rfl
  | some timing =>
    cases hp : ctx.targetPod with
    | none => rw [heldBy_of_targetPod_none e hp]; exact le_rfl
    | some pod => rw [heldBy_of_some hp ht]; exact holding_nonneg _ _ k

lemma heldBy_congr {ctx : RoutingContext} {e e' : Entries} (h : e'.timing = e.timing) :
    A.heldBy ctx e' = A.heldBy ctx e := by
  unfold heldBy
  rw [h]

lemma amount_of_neutral {op : Op} (h : op.Neutral) (k : Account) : A.amount op k = 0 := by
  unfold Books.amount
  cases op <;> first | exact h.elim | simp [Op.amount]

/-! ### One handler -/

/-- The timing record comes with the context that holds its target. -/
def Linked (ctx : RoutingContext) (e : Entries) : Prop :=
  e.timing.isSome → ∃ c, e.routingContext = some c ∧ c.targetPod = ctx.targetPod

variable (A) in
/-- The calls lead from what the request holds to what it holds afterwards, and a
record that is gone stays away. -/
def Moves (ctx : RoutingContext) (e : Entries) (ops : List Op) (e' : Entries) : Prop :=
  Linked ctx e → Settles A.amount (A.heldBy ctx e) ops (A.heldBy ctx e') ∧ Linked ctx e' ∧
    (e.timing = none → e'.timing = none)

namespace Moves

variable {ctx : RoutingContext} {e e' e'' : Entries} {ops ops' : List Op}

lemma trans (h : A.Moves ctx e ops e') (h' : A.Moves ctx e' ops' e'') :
    A.Moves ctx e (ops ++ ops') e'' := by
  intro hl
  obtain ⟨hs, hl', hn⟩ := h hl
  obtain ⟨hs', hl'', hn'⟩ := h' hl'
  exact ⟨hs.trans hs', hl'', fun ht => hn' (hn ht)⟩

lemma of_neutral (ht : e'.timing = e.timing) (hc : e'.routingContext = e.routingContext)
    (hn : ∀ op ∈ ops, op.Neutral) : A.Moves ctx e ops e' := by
  intro hl
  rw [heldBy_congr ht]
  refine ⟨.of_neutral (heldBy_nonneg ctx e) fun op ho => amount_of_neutral (hn op ho), ?_,
    fun h => ht.trans h⟩
  unfold Linked
  rw [ht, hc]
  exact hl

lemma of_share_eq {timing timing' : RequestTiming} (ht : e.timing = some timing)
    (ht' : e'.timing = some timing') (hc : e'.routingContext = e.routingContext)
    (hs : ctx.hasRouted = true → A.share timing' = A.share timing) : A.Moves ctx e [] e' := by
  intro hl
  have hheld : A.heldBy ctx e' = A.heldBy ctx e := by
    funext k
    cases hp : ctx.targetPod with
    | none => rw [heldBy_of_targetPod_none _ hp, heldBy_of_targetPod_none _ hp]
    | some pod =>
      rw [heldBy_of_some hp ht, heldBy_of_some hp ht', Books.holding, Books.holding,
        hs (by simp [RoutingContext.hasRouted, hp])]
  rw [hheld]
  refine ⟨.nil (heldBy_nonneg ctx e), fun _ => ?_, fun h => ?_⟩
  · rw [hc]
    exact hl (by simp [ht])
  · simp [ht] at h

lemma of_released {pod : Pod} {timing : RequestTiming} (hp : ctx.targetPod = some pod)
    (ht : e.timing = some timing) (ht' : e'.timing = none)
    (hs : Settles A.amount (A.holding pod.podIP timing) ops nothing) : A.Moves ctx e ops e' := by
  intro _
  rw [heldBy_of_some hp ht, heldBy_of_timing_none ctx ht']
  refine ⟨hs, fun h => ?_, fun _ => ht'⟩
  simp [ht'] at h

lemma of_changed {pod : Pod} {timing timing' : RequestTiming} (hp : ctx.targetPod = some pod)
    (ht : e.timing = some timing) (ht' : e'.timing = some timing')
    (hc : e'.routingContext = e.routingContext)
    (hs : Settles A.amount (A.holding pod.podIP timing) ops (A.holding pod.podIP timing')) :
    A.Moves ctx e ops e' := by
  intro hl
  rw [heldBy_of_some hp ht, heldBy_of_some hp ht']
  refine ⟨hs, fun _ => ?_, fun h => ?_⟩
  · rw [hc]
    exact hl (by simp [ht])
  · simp [ht] at h

end Moves

section

variable (requestID podIP : String) (now : Time)

lemma settles_onEvents (evts : List ChatCompletionChunk) (timing : RequestTiming) :
    Settles A.amount (A.holding podIP timing) (onEvents requestID podIP now evts timing).2
      (A.holding podIP (onEvents requestID podIP now evts timing).1) := by
  induction evts generalizing timing with
  | nil => exact .nil (holding_nonneg podIP timing)
  | cons evt evts ih =>
    rw [onEvents]
    split
    · exact (A.token requestID podIP now timing).trans (ih _)
    · exact ih timing

lemma ripe_onEvents {evts : List ChatCompletionChunk} {timing : RequestTiming}
    (h : A.Ripe timing ∨ evts.any ChatCompletionChunk.hasContent) :
    A.Ripe (onEvents requestID podIP now evts timing).1 := by
  induction evts generalizing timing with
  | nil => simpa [onEvents] using h
  | cons evt evts ih =>
    rw [onEvents]
    by_cases hc : evt.hasContent = true
    · rw [if_pos hc]
      exact ih (.inl (A.token_ripe requestID podIP now timing))
    · simpa [hc] using ih (by simpa [hc] using h)

end

/-! ### The parts of `HandleResponseBody` -/

section

variable (A) (c : ResponseCall)

/-- What has to hold of a chunk of a routed request for the books to be kept: at the end
of a stream the record is ripe, or the chunk is a streamed one that has content or cannot
be decoded. -/
def EndsRipe (e : Entries) : Prop :=
  c.ctx.hasRouted = true → c.msg.endOfStream = true → ∀ timing ∈ e.timing, A.Ripe timing ∨
    c.stream = true ∧ ((c.server.events c.msg.body).1.any ChatCompletionChunk.hasContent ∨
      (c.server.events c.msg.body).2.isSome)

/-- From one frame to the other the calls move what the request holds. -/
def Follows (f g : Frame) : Prop := ∃ ops, g.ops = f.ops ++ ops ∧ A.Moves c.ctx f.entries ops g.entries

variable {A c} {f g g' : Frame}

lemma Follows.trans (h : A.Follows c f g) (h' : A.Follows c g g') : A.Follows c f g' := by
  obtain ⟨ops, ho, hm⟩ := h
  obtain ⟨ops', ho', hm'⟩ := h'
  exact ⟨ops ++ ops', by rw [ho', ho, append_assoc], hm.trans hm'⟩

lemma Follows.of_neutral {ops : List Op} (ho : g.ops = f.ops ++ ops)
    (hn : ∀ op ∈ ops, op.Neutral) (ht : g.entries.timing = f.entries.timing)
    (hc : g.entries.routingContext = f.entries.routingContext) : A.Follows c f g :=
  ⟨ops, ho, .of_neutral ht hc hn⟩

lemma Follows.of_same (ho : g.ops = f.ops) (ht : g.entries.timing = f.entries.timing)
    (hc : g.entries.routingContext = f.entries.routingContext) : A.Follows c f g :=
  Follows.of_neutral (by rw [ho, append_nil]) (by simp) ht hc

lemma Follows.refl (f : Frame) : A.Follows c f f := Follows.of_same rfl rfl rfl

lemma Follows.andThen {F : Flow} {k : Frame → Flow} (h : A.Follows c f F.frame)
    (hk : ∀ g, F = .next g → A.Follows c g (k g).frame) : A.Follows c f (F.andThen k).frame := by
  cases F with
  | next g => exact h.trans (hk g rfl)
  | reply | blocked => exact h

lemma Follows.of_billed (h : f.Billed g) : A.Follows c f g := by
  obtain ⟨he, ops, ho, hbilled⟩ := h
  refine .of_neutral ho (fun op hop => ?_) (by rw [he]) (by rw [he])
  obtain ⟨user, n, rfl⟩ := hbilled op hop
  trivial

lemma follows_decodeAgain (f : Frame) : A.Follows c f (c.decodeAgain f).frame := by
  rcases (ResponseCall.decodeAgain_spec f).2 with
    ⟨ho, ht, hc⟩ | ⟨timing, ht, ht', -, -, ⟨hp, ho⟩ | ⟨pod, hp, ho⟩⟩
  · exact .of_same ho ht hc
  · refine ⟨[], by rw [ho, append_nil], fun _ => ?_⟩
    rw [heldBy_of_targetPod_none _ hp, heldBy_of_targetPod_none _ hp]
    exact ⟨.nil fun _ => le_rfl, fun h => by simp [ht'] at h, fun _ => ht'⟩
  · exact ⟨_, ho, Moves.of_released hp ht ht' (A.releaseAgain pod.podIP timing)⟩

/-- **A streamed chunk** moves the counters along with the timing record. -/
lemma follows_decodeStreamed {timing : RequestTiming} (ht : f.entries.timing = some timing) :
    A.Follows c f (c.decodeStreamed f).frame := by
  have hpod {ctx : RoutingContext} {target : Option Pod} (hl : Linked c.ctx f.entries)
      (hctx : f.entries.routingContext = some ctx) (hp : ctx.targetPod = target) :
      c.ctx.targetPod = target := by
    obtain ⟨rc, hrc, hpod⟩ := hl (by simp [ht])
    obtain rfl := Option.some.inj (hctx.symm.trans hrc)
    exact hpod.symm.trans hp
  have hF := c.streamed ht
  generalize c.decodeStreamed f = F at hF ⊢
  cases hF with
  | unlinked _ h | blocked _ _ h =>
    exact ⟨[], h.ops, .of_neutral (h.timing.trans ht.symm) h.routingContext (by simp)⟩
  | counted hctx hp _ h =>
    exact ⟨_, h.ops, fun hl => Moves.of_changed (hpod hl hctx hp) ht h.timing h.routingContext
      (settles_onEvents ..) hl⟩
  | broken hctx hp _ _ h =>
    exact ⟨_, h.ops, fun hl => Moves.of_released (hpod hl hctx hp) ht h.timing
      ((settles_onEvents ..).trans (A.release ..)) hl⟩

lemma frame_decodeBuffered (timing : RequestTiming) (f : Frame) :
    (c.decodeBuffered timing f).frame.entries.timing = some (if c.msg.endOfStream then
      { timing with firstTokenTime := timing.firstTokenTime.or (some c.env.now) } else timing) ∧
    (c.decodeBuffered timing f).frame.entries.routingContext = f.entries.routingContext ∧
    (c.decodeBuffered timing f).frame.ops = f.ops := by
  unfold ResponseCall.decodeBuffered
  dsimp only
  split
  · exact ⟨rfl, rfl, rfl⟩
  · split
    · exact ⟨rfl, rfl, rfl⟩
    · split
      · exact ⟨rfl, rfl, rfl⟩
      · exact ⟨rfl, rfl, rfl⟩

lemma follows_decode (h : A.EndsRipe c f.entries) : A.Follows c f (c.decode f).frame := by
  unfold ResponseCall.decode
  cases ht : f.entries.timing with
  | none => exact .refl f
  | some timing =>
    dsimp only
    split
    · exact follows_decodeStreamed ht
    · rename_i hs
      obtain ⟨ht', hc, ho⟩ := frame_decodeBuffered timing f
      refine ⟨[], by simpa using ho, Moves.of_share_eq ht ht' hc fun hrouted => ?_⟩
      split
      · rename_i hend
        have hripe := (h hrouted hend timing ht).resolve_right fun h => hs h.1
        exact (A.buffered timing c.env.now hripe).1
      · rfl

lemma ripe_decode {timing' : RequestTiming} (h : A.EndsRipe c f.entries)
    (hl : Linked c.ctx f.entries) (hrouted : c.ctx.hasRouted = true)
    (hend : c.msg.endOfStream = true) (hn : c.decode f = .next g)
    (ht' : g.entries.timing = some timing') : A.Ripe timing' := by
  unfold ResponseCall.decode at hn
  cases ht : f.entries.timing with
  | none =>
    simp only [ht, Flow.next.injEq] at hn
    rw [← hn, ht] at ht'
    simp at ht'
  | some timing =>
    simp only [ht] at hn
    have hripe := h hrouted hend timing ht
    split at hn
    · have hstreamed := c.streamed ht
      rw [hn] at hstreamed
      cases hstreamed with
      | unlinked hctx =>
        obtain ⟨rc, hrc, -⟩ := hl (by simp [ht])
        simp [hctx] at hrc
      | counted _ _ herr h =>
        obtain rfl := Option.some.inj (h.timing.symm.trans ht')
        exact ripe_onEvents _ _ _ (hripe.imp id fun h => h.2.resolve_right (by simp [herr]))
    · rename_i hs
      obtain ⟨htiming, -, -⟩ := frame_decodeBuffered timing f
      rw [hn, if_pos hend] at htiming
      obtain rfl := Option.some.inj (ht'.symm.trans htiming)
      exact (A.buffered timing c.env.now (hripe.resolve_right fun h => hs h.1)).2

lemma follows_finish (f : Frame) (h : c.ctx.hasRouted = true → c.msg.endOfStream = true →
    ∀ timing, f.entries.timing = some timing → A.Ripe timing) :
    A.Follows c f (c.finish f).frame := by
  unfold ResponseCall.finish
  cases ht : f.entries.timing with
  | none => exact .refl f
  | some timing =>
    dsimp only
    split
    · exact .refl f
    · rename_i hend
      cases hp : c.ctx.targetPod with
      | none =>
        simp only [RoutingContext.targetAddressWithoutPort, hp]
        exact .refl f
      | some pod =>
        simp only [RoutingContext.targetAddressWithoutPort, hp]
        refine ⟨_, append_assoc _ _ _, fun hl => ?_⟩
        have hripe := h (by simp [RoutingContext.hasRouted, hp]) (by simpa using hend) timing ht
        refine Moves.of_released hp ht rfl ?_ hl
        unfold calculateTimingMetrics
        rw [append_assoc]
        refine (A.finish pod.podIP timing hripe).trans (.of_neutral (fun _ => le_rfl) ?_)
        intro op ho
        refine amount_of_neutral ?_
        split at ho <;> simp only [nil_append, cons_append, mem_cons,
          not_mem_nil, or_false] at ho <;> rcases ho with rfl | rfl | rfl <;> trivial

lemma follows_body (h : A.EndsRipe c f.entries) (hl : Linked c.ctx f.entries) :
    A.Follows c f (c.body f).frame := by
  have hdecode : A.Follows c f ((c.decode f).andThen c.finish).frame :=
    (follows_decode h).andThen fun g hg => follows_finish g fun hrouted hend timing ht =>
      ripe_decode h hl hrouted hend hg ht
  exact ((hdecode.andThen fun g _ => .of_billed (ResponseCall.report_spec g).2.billed).andThen fun g _ =>
    follows_decodeAgain g).andThen fun g _ =>
      .of_billed (ResponseCall.close_spec g fun _ => True).2.billed

lemma handle_eq (c : ResponseCall) (hasCompleted : Bool) (e : Entries) :
    let F := c.body { entries := e, complete := hasCompleted }
    ∃ done, (∀ op ∈ done, op.Neutral) ∧ (c.handle hasCompleted e).entries = F.frame.entries ∧
      (c.handle hasCompleted e).ops = F.frame.ops ++ done := by
  simp only [ResponseCall.handle]
  generalize c.body { entries := e, complete := hasCompleted } = F
  cases F with
  | reply f resp =>
    refine ⟨_, ?_, rfl, rfl⟩
    intro op ho
    split at ho
    · obtain rfl := List.mem_singleton.mp ho
      trivial
    · simp at ho
  | next | blocked => exact ⟨[], by simp, rfl, (append_nil _).symm⟩

/-- **A response body** moves the counters along with the timing record. -/
lemma moves_handle (hasCompleted : Bool) {e : Entries} (h : A.EndsRipe c e) :
    A.Moves c.ctx e (c.handle hasCompleted e).ops (c.handle hasCompleted e).entries := by
  intro hl
  obtain ⟨done, hn, he, ho⟩ := handle_eq c hasCompleted e
  obtain ⟨ops, ho', hm⟩ := follows_body (f := { entries := e, complete := hasCompleted }) h hl
  rw [ho, ho', he]
  exact (hm.trans (.of_neutral rfl rfl hn)) hl

end

/-! ### Cleaning up -/

variable {ctx : RoutingContext}

lemma moves_cleanupInflightCounters (hip : ∀ pod, ctx.targetPod = some pod → pod.podIP ≠ "")
    (e : Entries) :
    A.Moves ctx e (cleanupInflightCounters ctx e).2 (cleanupInflightCounters ctx e).1 := by
  unfold cleanupInflightCounters
  cases hp : ctx.targetPod with
  | none =>
    simp only [RoutingContext.targetAddressWithoutPort, hp]
    exact .of_neutral rfl rfl (by simp)
  | some pod =>
    cases ht : e.timing with
    | none =>
      simp only [RoutingContext.targetAddressWithoutPort, hp]
      exact .of_neutral rfl rfl (by simp)
    | some timing =>
      simp only [RoutingContext.targetAddressWithoutPort, hp, Option.map_some, if_neg (hip pod hp)]
      exact .of_released hp ht rfl (A.release ctx.requestID pod.podIP timing)

lemma timing_cleanupInflightCounters {pod : Pod} (hp : ctx.targetPod = some pod)
    (hip : pod.podIP ≠ "") (e : Entries) : (cleanupInflightCounters ctx e).1.timing = none := by
  unfold cleanupInflightCounters
  cases ht : e.timing with
  | none =>
    simp only [RoutingContext.targetAddressWithoutPort, hp]
    exact ht
  | some timing =>
    simp [RoutingContext.targetAddressWithoutPort, hp, if_neg hip]

lemma neutral_cleanupPerRequestState (e : Entries) :
    ∀ op ∈ (cleanupPerRequestState ctx e).2, op.Neutral := by
  unfold cleanupPerRequestState
  split
  · simp
  · split <;> simp [Op.Neutral]

lemma timing_cleanupPerRequestState (e : Entries) :
    (cleanupPerRequestState ctx e).1.timing = e.timing := by
  unfold cleanupPerRequestState
  split <;> rfl

lemma settles_cleanup (hip : ∀ pod, ctx.targetPod = some pod → pod.podIP ≠ "") {e : Entries}
    (hl : Linked ctx e) :
    Settles A.amount (A.heldBy ctx e) (cleanup ctx e).2 (A.heldBy ctx (cleanup ctx e).1) := by
  refine (moves_cleanupInflightCounters hip e hl).1.trans ?_
  rw [show A.heldBy ctx (cleanup ctx e).1 = A.heldBy ctx (cleanupInflightCounters ctx e).1 from
    heldBy_congr (timing_cleanupPerRequestState _)]
  exact .of_neutral (heldBy_nonneg _ _) fun op ho =>
    amount_of_neutral (neutral_cleanupPerRequestState _ op ho)

lemma timing_cleanup {pod : Pod} (hp : ctx.targetPod = some pod) (hip : pod.podIP ≠ "")
    (e : Entries) : (cleanup ctx e).1.timing = none :=
  (timing_cleanupPerRequestState _).trans (timing_cleanupInflightCounters hp hip e)

end Accounting
end Lodestar.Gateway
