import Lodestar.Gateway.Completed
import Lodestar.Gateway.Exchange

/-!
# The tokens that a response is charged with

`HandleResponseBody` charges a user in two places.  The first charges the usage that the
first decoding of the message yields, and a usage that a streamed response has once
reported stays in `streamingUsageCache` and is yielded by every later message.  The second
place charges the completion that the second decoding yields, which for a response that
is not streamed reads the last message once more.
-/

namespace Lodestar.Gateway

/-! ### Charges -/

/-- What a call adds to the tokens-per-minute counter of a user. -/
def Op.tokensFor (user : User) : Op → ℤ
  | .incrTPM u n => if u = user then n else 0
  | _ => 0

/-- What a list of calls adds to the tokens-per-minute counter of a user. -/
def charged (user : User) (ops : List Op) : ℤ := (ops.map (Op.tokensFor user)).sum

section

variable (user : User)

@[simp] lemma charged_nil : charged user [] = 0 := rfl

@[simp] lemma charged_cons (op : Op) (ops : List Op) :
    charged user (op :: ops) = op.tokensFor user + charged user ops := by
  simp [charged]

@[simp] lemma charged_append (ops ops' : List Op) :
    charged user (ops ++ ops') = charged user ops + charged user ops' := by
  simp [charged]

lemma charged_eq_zero {ops : List Op} (h : ∀ op ∈ ops, op.tokensFor user = 0) :
    charged user ops = 0 := by
  induction ops with
  | nil => rfl
  | cons op ops ih =>
    rw [charged_cons, h op List.mem_cons_self, ih fun op ho => h op (List.mem_cons_of_mem _ ho)]
    rfl

@[simp] lemma charged_releaseOps (requestID podIP : String) (timing : RequestTiming) :
    charged user (releaseOps requestID podIP timing) = 0 := by
  unfold releaseOps
  cases timing.firstTokenTime <;> rfl

@[simp] lemma charged_onEvents (requestID podIP : String) (now : Indexer.Time)
    (evts : List ChatCompletionChunk) (timing : RequestTiming) :
    charged user (onEvents requestID podIP now evts timing).2 = 0 := by
  refine charged_eq_zero user (forall_onEvents (fun timing => ?_) evts timing)
  unfold onToken
  cases timing.firstTokenTime <;> simp [Op.tokensFor, decrementNumInflightPrefillRequestsForPod,
    decrementNumInflightPrefillTokensForPod, incrementNumInflightDecodeRequestsForPod,
    incrementNumInflightDecodeTokensForPod]

@[simp] lemma charged_calculateTimingMetrics (env : ResponseEnv) (timing : RequestTiming)
    (ctx : RoutingContext) (podIP : String) (stream : Bool) (usage : CompletionUsage) :
    charged user (calculateTimingMetrics env timing ctx podIP stream usage).2.2 = 0 := by
  unfold calculateTimingMetrics
  dsimp only
  split <;> rfl

@[simp] lemma charged_exit (p : Proc) (maps : Maps) : charged user (p.exit maps).2 = 0 := by
  refine charged_eq_zero user fun op ho => ?_
  rcases mem_exit p maps op ho with hop | ⟨-, -, -, hop, -⟩ <;> cases op <;>
    first | rfl | exact hop.elim

end

/-! ### The parts of a response body -/

def ResponseEnv.Answers (env : ResponseEnv) : Prop :=
  (∃ tpm, env.incrTPM = .ok tpm) ∧ ∃ tpm, env.incrTPMAgain = .ok tpm

namespace ResponseCall

/-- The user has a name, the request has a target, and the rate limiter answers. -/
structure Answered (c : ResponseCall) : Prop where
  named : c.user.name ≠ ""
  routed : ∃ pod, c.ctx.targetPod = some pod
  answers : c.env.Answers

variable {c : ResponseCall} {f : Frame}

section

variable (h : c.Answered)
include h

lemma Answered.finish (f : Frame) : ∃ g, c.finish f = .next g ∧
    g.usage = f.usage ∧ g.res = f.res ∧ charged c.user g.ops = charged c.user f.ops ∧
    g.entries.packageBuffer = f.entries.packageBuffer ∧
    (c.msg.endOfStream = false → g.entries = f.entries) := by
  obtain ⟨pod, hpod⟩ := h.routed
  unfold ResponseCall.finish
  cases f.entries.timing with
  | none => exact ⟨f, rfl, rfl, rfl, rfl, rfl, fun _ => rfl⟩
  | some timing =>
    cases hend : c.msg.endOfStream with
    | false => exact ⟨f, rfl, rfl, rfl, rfl, rfl, fun _ => rfl⟩
    | true =>
      have haddr := RoutingContext.targetAddressWithoutPort_eq hpod
      simp only [haddr]
      refine ⟨_, rfl, rfl, rfl, ?_, rfl, by simp⟩
      simp [Op.tokensFor]

lemma Answered.charged_bill (charges : List ℤ) :
    charged c.user (c.bill charges) = charges.sum := by
  rw [bill, if_neg h.named]
  induction charges with
  | nil => rfl
  | cons n charges ih => simp [Op.tokensFor, ih]

lemma Answered.report (f : Frame) : ∃ g, c.report f = .next g ∧
    g.res = f.res ∧ g.entries = f.entries ∧
    charged c.user g.ops = charged c.user f.ops + max 0 f.usage.totalTokens := by
  obtain ⟨pod, hpod⟩ := h.routed
  obtain ⟨tpm, htpm⟩ := h.answers.1
  obtain ⟨hleads, hcharges⟩ := report_spec (c := c) f
  obtain ⟨g, hg, -⟩ | ⟨g, resp, -, ⟨-, -, err, herr⟩, -⟩ := hleads.goes (by simp [hpod])
  · rw [hg] at hcharges
    refine ⟨g, hg, hcharges.res, hcharges.entries, ?_⟩
    rw [show g.ops = _ from hcharges.ops, charged_append, h.charged_bill]
    split <;> simp <;> omega
  · simp [htpm] at herr

lemma Answered.close (f : Frame) : ∃ g resp, c.close f = .reply g resp ∧
    g.entries = f.entries ∧ charged c.user g.ops = charged c.user f.ops +
      if f.usage.totalTokens = 0 then 0 else f.res.usage.totalTokens := by
  obtain ⟨pod, hpod⟩ := h.routed
  obtain ⟨hleads, hcharges⟩ := close_spec (c := c) f fun _ => False
  obtain ⟨-, -, hfalse⟩ | ⟨g, resp, hg, -⟩ := hleads.goes (by simp [hpod])
  · exact hfalse.elim
  · rw [hg] at hcharges
    refine ⟨g, resp, hg, hcharges.entries, ?_⟩
    rw [show g.ops = _ from hcharges.ops, charged_append, h.charged_bill]
    split <;> simp

/-- No completion is decoded, so the last part of a streamed chunk charges nothing. -/
lemma Answered.closes_streamed (hs : c.stream = true)
    (hev : (c.server.events c.msg.body).2 = none) (hres : f.res.usage.totalTokens = 0) :
    ∃ g resp, (c.decodeAgain f).andThen c.close = .reply g resp ∧ g.entries = f.entries ∧
      charged c.user g.ops = charged c.user f.ops := by
  simp only [decodeAgain, hs, decodeStreamedAgain, hev]
  obtain ⟨g, resp, hg, he, hc⟩ :=
    h.close { f with usage := usageOfEvents f.usage (c.server.events c.msg.body).1 }
  exact ⟨g, resp, hg, he, by simpa [hres] using hc⟩

end

/-! ### One message -/

/-- A message is replied to at a cost of `n` and leaves entries with `Q`. -/
def Costs (c : ResponseCall) (e : Entries) (n : ℤ) (Q : Entries → Prop) : Prop :=
  ∀ hasCompleted, ∃ e' ops resp completed,
    c.handle hasCompleted e = ⟨e', ops, .returned (resp, completed)⟩ ∧ charged c.user ops = n ∧ Q e'

/-- A streamed response is being read, and has reported the usage `u` last. -/
def Reading (ctx : RoutingContext) (u : CompletionUsage) (e : Entries) : Prop :=
  e.timing.isSome = true ∧ e.routingContext = some ctx ∧ e.streamingUsage.getD {} = u

/-- A response that is not streamed is being read, and has come as far as `text`. -/
def Buffering (text : String) (e : Entries) : Prop :=
  e.timing.isSome = true ∧ e.requestBuffer.getD "" = text ∧ e.packageBuffer.getD "" = ""

/-- The tokens of a body that is a completion of a model. -/
def tokensOf (s : Server) (body : String) : ℤ :=
  match s.completion body with
  | .error _ => 0
  | .ok res => if res.model = "" then 0 else res.usage.totalTokens

/-- What a whole response with the given last message costs. -/
def wholeCost (s : Server) (whole last : String) : ℤ :=
  match s.completion whole with
  | .error _ => 0
  | .ok res => if res.model = "" then 0 else max 0 res.usage.totalTokens + tokensOf s last

variable {e : Entries} {u : CompletionUsage} {text : String}

lemma Costs.of_body {n : ℤ} {Q : Entries → Prop}
    (h : ∀ hasCompleted, ∃ g resp, c.body { entries := e, complete := hasCompleted } = .reply g resp ∧
      charged c.user g.ops = n ∧ Q g.entries) : c.Costs e n Q := by
  intro hasCompleted
  obtain ⟨g, resp, hbody, hn, hQ⟩ := h hasCompleted
  unfold handle
  rw [hbody]
  refine ⟨_, _, resp, _, rfl, ?_, hQ⟩
  rw [charged_append, hn]
  split <;> simp [Op.tokensFor]

section

variable (h : c.Answered) (hs : c.stream = true)
include h hs

lemma Answered.decode_streamed {f : Frame}
    (hr : Reading c.ctx u f.entries) (hev : (c.server.events c.msg.body).2 = none) :
    ∃ g, c.decode f = .next g ∧ g.usage = (usageOfChunk c.server c.msg.body).getD u ∧
      g.res = f.res ∧ charged c.user g.ops = charged c.user f.ops ∧
      Reading c.ctx ((usageOfChunk c.server c.msg.body).getD u) g.entries := by
  obtain ⟨ht, hctx, hu⟩ := hr
  obtain ⟨timing, ht⟩ := Option.isSome_iff_exists.mp ht
  obtain ⟨pod, hpod⟩ := h.routed
  have haddr := RoutingContext.targetAddressWithoutPort_eq hpod
  simp only [decode, ht, hs, decodeStreamed, handleStreamingResponse, hctx, haddr, hev]
  cases usageOfChunk c.server c.msg.body with
  | some usage => exact ⟨_, rfl, rfl, rfl, by simp, rfl, rfl, rfl⟩
  | none => exact ⟨_, rfl, hu, rfl, by simp, rfl, rfl, hu⟩

lemma Answered.decode_broken {f : Frame}
    (hr : Reading c.ctx u f.entries) {err : String}
    (hev : (c.server.events c.msg.body).2 = some err) :
    ∃ g resp, c.decode f = .reply g resp ∧ charged c.user g.ops = charged c.user f.ops ∧
      g.entries.timing = none := by
  obtain ⟨ht, hctx, -⟩ := hr
  obtain ⟨timing, ht⟩ := Option.isSome_iff_exists.mp ht
  obtain ⟨pod, hpod⟩ := h.routed
  have haddr := RoutingContext.targetAddressWithoutPort_eq hpod
  simp only [decode, ht, hs, decodeStreamed, handleStreamingResponse, hctx, haddr, hev]
  exact ⟨_, _, rfl, by simp, rfl⟩

lemma Answered.costs_streamed
    (hr : Reading c.ctx u e) (hev : (c.server.events c.msg.body).2 = none) :
    c.Costs e (max 0 ((usageOfChunk c.server c.msg.body).getD u).totalTokens) fun e' =>
      c.msg.endOfStream = false → Reading c.ctx ((usageOfChunk c.server c.msg.body).getD u) e' := by
  refine .of_body fun hasCompleted => ?_
  obtain ⟨f₁, h₁, hu₁, hres₁, hc₁, hr₁⟩ :=
    h.decode_streamed hs (f := { entries := e, complete := hasCompleted }) hr hev
  obtain ⟨f₂, h₂, hu₂, hres₂, hc₂, -, he₂⟩ := h.finish f₁
  obtain ⟨f₃, h₃, hres₃, he₃, hc₃⟩ := h.report f₂
  obtain ⟨g, resp, h₄, he₄, hc₄⟩ := h.closes_streamed hs hev (by rw [hres₃, hres₂, hres₁])
  refine ⟨g, resp, ?_, ?_, fun hend => ?_⟩
  · simp only [body, h₁, h₂, h₃, Flow.andThen]
    exact h₄
  · simp only [hc₄, hc₃, hc₂, hc₁, hu₂, hu₁, charged_nil, zero_add]
  · rw [he₄, he₃, he₂ hend]
    exact hr₁

lemma Answered.costs_broken (hr : Reading c.ctx u e)
    {err : String} (hev : (c.server.events c.msg.body).2 = some err) :
    c.Costs e 0 (·.timing = none) := by
  refine .of_body fun hasCompleted => ?_
  obtain ⟨g, resp, h₁, hc₁, ht₁⟩ :=
    h.decode_broken hs (f := { entries := e, complete := hasCompleted }) hr hev
  exact ⟨g, resp, by simp [body, h₁, Flow.andThen], hc₁, ht₁⟩

lemma Answered.costs_unread (ht : e.timing = none) : c.Costs e 0 (·.timing = none) := by
  refine .of_body fun hasCompleted => ?_
  let f : Frame := { entries := e, complete := hasCompleted }
  have h₁ : c.decode f = .next f := by simp [decode, f, ht]
  have h₂ : c.finish f = .next f := by simp [ResponseCall.finish, f, ht]
  have h₃ : c.report f = .next f := by
    unfold ResponseCall.report
    rw [if_pos (show f.usage.totalTokens ≤ 0 from le_rfl)]
  cases hev : (c.server.events c.msg.body).2 with
  | some err =>
    have h₄ : ∃ g resp, c.decodeAgain f = .reply g resp ∧ charged c.user g.ops = 0 ∧
        g.entries.timing = none := by
      simp only [decodeAgain, hs, decodeStreamedAgain, hev, f, ht]
      exact ⟨_, _, rfl, rfl, ht⟩
    obtain ⟨g, resp, h₄, hc, ht⟩ := h₄
    exact ⟨g, resp, by simp [body, f, h₁, h₂, h₃, h₄, Flow.andThen], hc, ht⟩
  | none =>
    obtain ⟨g, resp, h₄, he₄, hc₄⟩ := h.closes_streamed hs hev (f := f) rfl
    refine ⟨g, resp, ?_, hc₄, he₄ ▸ ht⟩
    simp only [body, f] at h₁ h₂ h₃ h₄ ⊢
    simp only [h₁, h₂, Flow.andThen]
    exact h₄

end

lemma costs_part (hs : c.stream = false) (hend : c.msg.endOfStream = false)
    (hb : Buffering text e) : c.Costs e 0 (Buffering (text ++ c.msg.body)) := by
  obtain ⟨ht, hbuf, hpack⟩ := hb
  obtain ⟨timing, ht⟩ := Option.isSome_iff_exists.mp ht
  refine .of_body fun hasCompleted => ?_
  simp only [body, decode, ht, hs, decodeBuffered, hend, hbuf]
  exact ⟨_, _, rfl, rfl, rfl, rfl, hpack⟩

section

variable (h : c.Answered) (hs : c.stream = false) (hend : c.msg.endOfStream = true)
include h hs hend

lemma Answered.closes_whole {f : Frame} (hpack : f.entries.packageBuffer.getD "" = "") :
    ∃ g resp, (c.decodeAgain f).andThen c.close = .reply g resp ∧
      charged c.user g.ops = charged c.user f.ops + tokensOf c.server c.msg.body := by
  simp only [decodeAgain, hs, decodeBufferedAgain, hend, hpack, String.empty_append, tokensOf]
  cases c.server.completion c.msg.body with
  | error err => exact ⟨_, _, rfl, (add_zero _).symm⟩
  | ok res =>
    by_cases hmodel : res.model = ""
    · simp only [hmodel]
      exact ⟨_, _, rfl, (add_zero _).symm⟩
    · simp only [hmodel, if_false]
      obtain ⟨g, resp, hclose, -, hc⟩ := h.close { f with
        entries := { f.entries with packageBuffer := none }, res := res, usage := res.usage }
      refine ⟨g, resp, hclose, hc.trans ?_⟩
      dsimp only
      split <;> omega

lemma Answered.costs_whole (hb : Buffering text e) :
    c.Costs e (wholeCost c.server (text ++ c.msg.body) c.msg.body) fun _ => True := by
  obtain ⟨ht, hbuf, hpack⟩ := hb
  obtain ⟨timing, ht⟩ := Option.isSome_iff_exists.mp ht
  refine .of_body fun hasCompleted => ?_
  let f : Frame := { entries := e, complete := hasCompleted }
  unfold wholeCost
  cases hwhole : c.server.completion (text ++ c.msg.body) with
  | error err =>
    have h₁ : ∃ g resp, c.decode f = .reply g resp ∧ charged c.user g.ops = 0 := by
      simp only [decode, ht, hs, decodeBuffered, hend, hbuf, hwhole, f]
      exact ⟨_, _, rfl, rfl⟩
    obtain ⟨g, resp, h₁, hc⟩ := h₁
    exact ⟨g, resp, by simp [body, f, h₁, Flow.andThen], hc, trivial⟩
  | ok res =>
    by_cases hmodel : res.model = ""
    · have h₁ : ∃ g resp, c.decode f = .reply g resp ∧ charged c.user g.ops = 0 := by
        simp only [decode, ht, hs, decodeBuffered, hend, hbuf, hwhole, hmodel, f]
        exact ⟨_, _, rfl, rfl⟩
      obtain ⟨g, resp, h₁, hc⟩ := h₁
      exact ⟨g, resp, by simp [body, f, h₁, Flow.andThen], by simpa [hmodel] using hc, trivial⟩
    · have h₁ : ∃ g, c.decode f = .next g ∧ g.usage = res.usage ∧ charged c.user g.ops = 0 ∧
          g.entries.packageBuffer = e.packageBuffer := by
        simp only [decode, ht, hs, decodeBuffered, hend, hbuf, hwhole, hmodel, f]
        exact ⟨_, rfl, rfl, rfl, rfl⟩
      obtain ⟨f₁, h₁, hu₁, hc₁, hp₁⟩ := h₁
      obtain ⟨f₂, h₂, hu₂, -, hc₂, hp₂, -⟩ := h.finish f₁
      obtain ⟨f₃, h₃, -, he₃, hc₃⟩ := h.report f₂
      obtain ⟨g, resp, h₄, hc₄⟩ := h.closes_whole hs hend (by rw [he₃, hp₂, hp₁, hpack])
      refine ⟨g, resp, ?_, ?_, trivial⟩
      · simp only [body, f, h₁, h₂, h₃, Flow.andThen]
        exact h₄
      · rw [hc₄, hc₃, hc₂, hc₁, hu₂, hu₁]
        simp only [hmodel, if_false]
        omega

end
end ResponseCall

/-! ### The body of a response -/

namespace Proc

/-- The stream of a user with a name waits for the body of a response. -/
structure Awaits (ctx : RoutingContext) (p : Proc) : Prop extends p.Waits ctx where
  named : p.user.name ≠ ""

variable {s : Server} {p : Proc} {maps : Maps} {ctx : RoutingContext}

lemma Awaits.answered (h : p.Awaits ctx) (msg : ResponseBody) {env : ResponseEnv}
    (henv : env.Answers) : (p.responseCall s ctx msg env).Answered :=
  ⟨h.named, h.routed, henv⟩

lemma Awaits.calls_cons (h : p.Awaits ctx) {msg : ResponseBody} {env : ResponseEnv} {n : ℤ}
    {Q : Entries → Prop} (hc : (p.responseCall s ctx msg env).Costs (maps ctx.requestID) n Q)
    (msgs : List Message) : ∃ q maps', q.Awaits ctx ∧ p.SameCharge q ∧ Q (maps' ctx.requestID) ∧
      charged p.user (p.calls s maps (.responseBody msg env :: msgs)) =
        n + charged q.user (q.calls s maps' msgs) := by
  obtain ⟨e', ops, resp, completed, hhandle, hops, hQ⟩ := hc p.completed
  obtain ⟨q, hmsg, hq, hsame, -⟩ := h.toWaits.onMessage hhandle
  refine ⟨q, Function.update maps ctx.requestID e', ⟨hq, by rw [hsame.1]; exact h.named⟩,
    hsame, by rwa [Function.update_self], ?_⟩
  have hcalls := (Reaches.cons hmsg hq.status (.nil q _)).calls msgs
  rw [List.append_nil] at hcalls
  rw [show p.calls s maps (.responseBody msg env :: msgs) = _ from hcalls, charged_append, hsame.1]
  exact congrArg (· + _) hops

lemma charged_calls_nil (user : User) : charged user (p.calls s maps []) = 0 :=
  charged_exit user p maps

lemma charged_unread (h : p.Awaits ctx) (hs : p.stream = true)
    (ht : (maps ctx.requestID).timing = none) {msgs : List Message}
    (hm : ∀ msg ∈ msgs, ∃ body env, msg = .responseBody body env ∧ env.Answers) :
    charged p.user (p.calls s maps msgs) = 0 := by
  induction msgs generalizing p maps with
  | nil => exact charged_calls_nil p.user
  | cons msg msgs ih =>
    obtain ⟨body, env, rfl, henv⟩ := hm msg List.mem_cons_self
    obtain ⟨q, maps', hq, hsame, ht', hcalls⟩ :=
      h.calls_cons ((h.answered body henv).costs_unread hs ht) msgs
    have hrest := ih hq (hsame.2.trans hs) ht' fun m hm' => hm m (List.mem_cons_of_mem _ hm')
    rw [hcalls, hrest]
    rfl

/-- The usages that the messages of a streamed response yield, up to the first that does
not decode, if `u` is the one reported last. -/
def inEffect (s : Server) : CompletionUsage → List String → List CompletionUsage
  | _, [] => []
  | u, body :: bodies =>
    match (s.events body).2 with
    | some _ => []
    | none =>
      let u := (usageOfChunk s body).getD u
      u :: inEffect s u bodies

def totals (usages : List CompletionUsage) : ℤ := (usages.map fun u => max 0 u.totalTokens).sum

variable {chunks : List (String × ResponseEnv)} {last : String × ResponseEnv}

lemma responseMessages_cons (chunk : String × ResponseEnv) :
    responseMessages (chunk :: chunks) last =
      .responseBody ⟨chunk.1, false⟩ chunk.2 :: responseMessages chunks last := rfl

lemma mem_responseMessages (hchunks : ∀ chunk ∈ chunks, chunk.2.Answers) (hlast : last.2.Answers) :
    ∀ msg ∈ responseMessages chunks last, ∃ body env, msg = .responseBody body env ∧ env.Answers := by
  intro msg hmsg
  rcases List.mem_append.mp hmsg with hmsg | hmsg
  · obtain ⟨chunk, hchunk, rfl⟩ := List.mem_map.mp hmsg
    exact ⟨_, _, rfl, hchunks chunk hchunk⟩
  · obtain rfl := List.mem_singleton.mp hmsg
    exact ⟨_, _, rfl, hlast⟩

section

variable (h : p.Awaits ctx) (hs : p.stream = true) {u : CompletionUsage}
  (hr : ResponseCall.Reading ctx u (maps ctx.requestID))
include h hs hr

lemma Awaits.charged_broken {body : ResponseBody} {env : ResponseEnv}
    (henv : env.Answers) {err : String} (hev : (s.events body.body).2 = some err)
    {msgs : List Message} (hm : ∀ msg ∈ msgs, ∃ body env, msg = .responseBody body env ∧ env.Answers) :
    charged p.user (p.calls s maps (.responseBody body env :: msgs)) = 0 := by
  obtain ⟨q, maps', hq, hsame, ht, hcalls⟩ :=
    h.calls_cons ((h.answered body henv).costs_broken hs hr hev) msgs
  rw [hcalls, charged_unread hq (hsame.2.trans hs) ht hm]
  rfl

/-- **A streamed response** is charged with the usage in effect at each of its messages. -/
lemma charged_streamed (hchunks : ∀ chunk ∈ chunks, chunk.2.Answers) (hlast : last.2.Answers) :
    charged p.user (p.calls s maps (responseMessages chunks last)) =
      totals (inEffect s u (bodies chunks last)) := by
  induction chunks generalizing p maps u with
  | nil =>
    simp only [responseMessages, bodies, List.map_nil, List.nil_append, inEffect]
    cases hev : (s.events last.1).2 with
    | some err => exact h.charged_broken hs hr hlast hev (by simp)
    | none =>
      obtain ⟨q, maps', -, -, -, hcalls⟩ :=
        h.calls_cons ((h.answered ⟨last.1, true⟩ hlast).costs_streamed hs hr hev) []
      rw [hcalls, charged_calls_nil]
      rfl
  | cons chunk chunks ih =>
    have hchunks' : ∀ c ∈ chunks, c.2.Answers := fun c hc => hchunks c (List.mem_cons_of_mem _ hc)
    have henv := hchunks chunk List.mem_cons_self
    have hbodies : bodies (chunk :: chunks) last = chunk.1 :: bodies chunks last := rfl
    rw [responseMessages_cons, hbodies, inEffect]
    cases hev : (s.events chunk.1).2 with
    | some err => exact h.charged_broken hs hr henv hev (mem_responseMessages hchunks' hlast)
    | none =>
      obtain ⟨q, maps', hq, hsame, hr', hcalls⟩ := h.calls_cons
        ((h.answered ⟨chunk.1, false⟩ henv).costs_streamed hs hr hev) (responseMessages chunks last)
      rw [hcalls, ih hq (hsame.2.trans hs) (hr' rfl) hchunks']
      rfl

end

/-- **A response that is not streamed** is charged with the whole, and with what its last
message is on its own. -/
lemma charged_buffered (h : p.Awaits ctx) (hs : p.stream = false) {text : String}
    (hb : ResponseCall.Buffering text (maps ctx.requestID))
    (hchunks : ∀ chunk ∈ chunks, chunk.2.Answers) (hlast : last.2.Answers) :
    charged p.user (p.calls s maps (responseMessages chunks last)) =
      ResponseCall.wholeCost s (text ++ String.join (bodies chunks last)) last.1 := by
  induction chunks generalizing p maps text with
  | nil =>
    obtain ⟨q, maps', -, -, -, hcalls⟩ :=
      h.calls_cons ((h.answered ⟨last.1, true⟩ hlast).costs_whole hs rfl hb) []
    exact hcalls.trans (by rw [charged_calls_nil, add_zero]; rfl)
  | cons chunk chunks ih =>
    have hjoin : String.join (bodies (chunk :: chunks) last) =
        chunk.1 ++ String.join (bodies chunks last) := String.join_cons
    obtain ⟨q, maps', hq, hsame, hb', hcalls⟩ := h.calls_cons
      (ResponseCall.costs_part (c := p.responseCall s ctx ⟨chunk.1, false⟩ chunk.2) hs rfl hb)
      (responseMessages chunks last)
    rw [responseMessages_cons, hcalls, zero_add, hjoin, ← String.append_assoc]
    exact ih hq (hsame.2.trans hs) hb' fun c hc => hchunks c (List.mem_cons_of_mem _ hc)

lemma Arrived.reading {e : Entries} (h : Arrived ctx e) : ResponseCall.Reading ctx {} e :=
  ⟨h.timing, h.routingContext, by rw [h.fresh.1]; rfl⟩

lemma Arrived.buffering {e : Entries} (h : Arrived ctx e) : ResponseCall.Buffering "" e :=
  ⟨h.timing, by rw [h.fresh.2.1]; rfl, by rw [h.fresh.2.2]; rfl⟩

end Proc

/-! ### What a response reports -/

open Proc ResponseCall List Function

/-- The total that a whole response reports; in a streamed one it is that of the last event with a
usage. -/
def reported (s : Server) (stream : Bool) (bodies : List String) : ℤ :=
  if stream then
    ((((s.events (String.join bodies)).1.map fun evt => evt.usage.totalTokens).filter
      (· ≠ 0)).getLast?).getD 0
  else
    match s.completion (String.join bodies) with
    | .error _ => 0
    | .ok res => res.usage.totalTokens

section

variable (s : Server) (body : String)

def Decodes : Prop := (s.events body).2 = none

/-- A message that decodes and has no line with tokens. -/
def Silent : Prop := Decodes s body ∧ ∀ u ∈ usageOfChunk s body, u.totalTokens ≤ 0

/-- A message that decodes, and whose last line with a usage has the total. -/
def Tells (total : ℤ) : Prop := Decodes s body ∧ ∃ u ∈ usageOfChunk s body, u.totalTokens = total

/-- One message tells the total, those before are silent, and none that comes later is read. -/
def ToldOnce (total : ℤ) (bodies : List String) : Prop :=
  ∃ before body after, bodies = before ++ body :: after ∧ (∀ b ∈ before, Silent s b) ∧
    Tells s body total ∧ ∀ next ∈ after.head?, ¬ Decodes s next

end

section

variable {s : Server} {u : CompletionUsage} {total : ℤ} {bodies : List String}

lemma inEffect_cons {body : String} (h : Decodes s body) :
    inEffect s u (body :: bodies) = (usageOfChunk s body).getD u ::
      inEffect s ((usageOfChunk s body).getD u) bodies := by
  rw [Decodes] at h
  rw [inEffect, h]

lemma totals_cons (usages : List CompletionUsage) :
    totals (u :: usages) = max 0 u.totalTokens + totals usages := by
  simp [totals]

lemma inEffect_eq_nil_iff :
    inEffect s u bodies = [] ↔ ∀ next ∈ bodies.head?, ¬ Decodes s next := by
  cases bodies with
  | nil => simp [inEffect]
  | cons body bodies =>
    by_cases h : Decodes s body
    · simp [inEffect_cons h, h]
    · refine iff_of_true ?_ (by simpa using h)
      obtain ⟨err, herr⟩ := Option.ne_none_iff_exists'.mp h
      rw [inEffect, herr]

lemma forall_getD {p : CompletionUsage → Prop} {o : Option CompletionUsage} (hu : p u)
    (h : ∀ v ∈ o, p v) : p (o.getD u) := by
  cases o with
  | none => exact hu
  | some v => exact h v rfl

/-- **A stream that tells its total once** is charged with it. -/
lemma totals_of_toldOnce (hu : u.totalTokens ≤ 0) (hpos : 0 < total) (h : ToldOnce s total bodies) :
    totals (inEffect s u bodies) = total := by
  obtain ⟨before, body, after, rfl, hbefore, ⟨hdecodes, u', hu', rfl⟩, hafter⟩ := h
  induction before generalizing u with
  | nil =>
    rw [nil_append, inEffect_cons hdecodes, Option.mem_def.mp hu', Option.getD_some,
      inEffect_eq_nil_iff.mpr hafter, totals_cons]
    simp [totals, hpos.le]
  | cons b before ih =>
    obtain ⟨hb, hsilent⟩ := hbefore b mem_cons_self
    have hnext := forall_getD (p := fun u => u.totalTokens ≤ 0) hu hsilent
    rw [cons_append, inEffect_cons hb, totals_cons, max_eq_left hnext, zero_add]
    exact ih hnext fun b hb => hbefore b (mem_cons_of_mem _ hb)

/-- A stream whose messages tell no other total than the one it is charged with tells it once. -/
lemma toldOnce_of_totals (hu : u.totalTokens ≤ 0) (hpos : 0 < total)
    (hone : ∀ body ∈ bodies, ∀ u ∈ usageOfChunk s body, u.totalTokens = total)
    (h : totals (inEffect s u bodies) = total) : ToldOnce s total bodies := by
  induction bodies generalizing u with
  | nil => exact absurd h hpos.ne
  | cons body bodies ih =>
    have hdecodes : Decodes s body := by
      by_contra hnot
      rw [inEffect_eq_nil_iff.mpr (by simpa using hnot)] at h
      exact hpos.ne h
    have hrest := fun b hb => hone b (mem_cons_of_mem body hb)
    rw [inEffect_cons hdecodes, totals_cons] at h
    cases hbody : usageOfChunk s body with
    | none =>
      rw [hbody, Option.getD_none, max_eq_left hu, zero_add] at h
      obtain ⟨before, b, after, rfl, hbefore, htells⟩ := ih hu hrest h
      refine ⟨body :: before, b, after, rfl, forall_mem_cons.mpr ⟨⟨hdecodes, ?_⟩, hbefore⟩, htells⟩
      simp [hbody]
    | some v =>
      have hv := hone body mem_cons_self v hbody
      refine ⟨[], body, bodies, rfl, by simp, ⟨hdecodes, v, hbody, hv⟩, fun next hnext hdec => ?_⟩
      -- the usage would be in effect at the next message too
      cases bodies with
      | nil => cases hnext
      | cons b bodies =>
        obtain rfl : b = next := by simpa using hnext
        have hb := forall_getD (p := fun u => u.totalTokens = total) hv (hrest b mem_cons_self)
        have hnonneg : 0 ≤ totals (inEffect s ((usageOfChunk s b).getD v) bodies) :=
          sum_nonneg (by simp)
        rw [hbody, Option.getD_some, inEffect_cons hdec, totals_cons, hb, hv] at h
        omega

end

/-! ### A whole exchange -/

namespace Exchange

variable (s : Server) (maps : Maps) (x : Exchange)

/-- What the whole exchange adds to the tokens-per-minute counter of its user. -/
def charge : ℤ :=
  charged (x.proc s maps).user (Proc.calls s {} maps (.requestHeaders x.headers x.headersEnv ::
    .requestBody x.body x.bodyEnv :: .responseHeaders x.respHeaders ::
    responseMessages x.chunks x.last))

def total : ℤ := reported s (x.proc s maps).stream (bodies x.chunks x.last)

/-- A named user, and a rate limiter that answers. -/
structure Completes : Prop extends x.Served s maps where
  named : (x.proc s maps).user.name ≠ ""
  chunks : ∀ chunk ∈ x.chunks, chunk.2.Answers
  last : x.last.2.Answers

/-- A streamed response tells its total once.  Any other one: the whole is a completion of a model
with tokens, and its last message on its own is not. -/
def ChargedOnce : Prop :=
  if (x.proc s maps).stream then ToldOnce s (x.total s maps) (bodies x.chunks x.last)
  else tokensOf s (String.join (bodies x.chunks x.last)) ≠ 0 ∧ tokensOf s x.last.1 = 0

/-- The messages of a streamed response tell no other total than the one that is reported. -/
def OneTotal : Prop :=
  (x.proc s maps).stream = true → ∀ body ∈ bodies x.chunks x.last,
    ∀ u ∈ usageOfChunk s body, u.totalTokens = x.total s maps

variable {s maps x}

lemma charge_eq (h : x.Completes s maps) : x.charge s maps =
    if (x.proc s maps).stream then totals (inEffect s {} (bodies x.chunks x.last))
    else wholeCost s (String.join (bodies x.chunks x.last)) x.last.1 := by
  obtain ⟨ctx, q, maps', ops, hreach, hwaits, -, harr, -, ⟨huser, hstream⟩, hops⟩ :=
    h.toServed.reaches
  have hq : q.Awaits ctx := ⟨hwaits, by rw [huser]; exact h.named⟩
  have hfree : charged q.user ops = 0 := charged_eq_zero q.user fun op ho => by
    have hop := hops op ho
    cases op <;> first | rfl | exact hop.elim
  have hcharge : x.charge s maps =
      charged q.user (q.calls s maps' (responseMessages x.chunks x.last)) := by
    have hcalls := hreach.calls (responseMessages x.chunks x.last)
    rw [charge, ← huser]
    exact (congrArg (charged q.user) hcalls).trans (by rw [charged_append, hfree, zero_add])
  rw [hcharge]
  cases hs : (x.proc s maps).stream with
  | true => exact charged_streamed hq (hstream.trans hs) harr.reading h.chunks h.last
  | false =>
    have hb := charged_buffered (s := s) hq (hstream.trans hs) harr.buffering h.chunks h.last
    rwa [String.empty_append] at hb

/-- **An exchange is charged with what its response reports** if it is charged once, and only then,
unless its messages tell different totals. -/
theorem charged_eq_reported_iff (h : x.Completes s maps) (hpos : 0 < x.total s maps) :
    (x.ChargedOnce s maps → x.charge s maps = x.total s maps) ∧
    (x.OneTotal s maps → x.charge s maps = x.total s maps → x.ChargedOnce s maps) := by
  rw [charge_eq h]
  unfold ChargedOnce OneTotal
  cases hs : (x.proc s maps).stream with
  | true =>
    exact ⟨totals_of_toldOnce le_rfl hpos, fun hone => toldOnce_of_totals le_rfl hpos (hone rfl)⟩
  | false =>
    have hiff : wholeCost s (String.join (bodies x.chunks x.last)) x.last.1 = x.total s maps ↔
        tokensOf s (String.join (bodies x.chunks x.last)) ≠ 0 ∧ tokensOf s x.last.1 = 0 := by
      simp only [total, reported, hs, Bool.false_eq_true, if_false] at hpos ⊢
      unfold wholeCost
      rw [tokensOf.eq_def s (String.join _)]
      cases hres : s.completion (String.join (bodies x.chunks x.last)) with
      | error err => simp [hres] at hpos
      | ok res =>
        simp only [hres] at hpos ⊢
        split <;> omega
    exact ⟨hiff.mpr, fun _ => hiff.mp⟩

lemma small_completes {body : String} {chunks : List String} {last : String}
    (h : ((small body chunks last).proc Small.server fun _ => {}).routerCtx.any
      RoutingContext.hasRouted = true)
    (hname : ((small body chunks last).proc Small.server fun _ => {}).user.name ≠ "") :
    (small body chunks last).Completes Small.server fun _ => {} where
  toServed := small_served h
  named := hname
  chunks := by
    intro chunk hchunk
    obtain ⟨text, -, rfl⟩ := List.mem_map.mp hchunk
    exact ⟨⟨0, rfl⟩, ⟨0, rfl⟩⟩
  last := ⟨⟨0, rfl⟩, ⟨0, rfl⟩⟩

open Gateway.Small in
/-- A completion with an empty last message, and a stream whose last message has the usage,
are charged with what they report. -/
theorem charged_eq_reported_small : (0 < (small chat [completion] "").total server (fun _ => {}) ∧
      (small chat [completion] "").charge server (fun _ => {}) =
        (small chat [completion] "").total server (fun _ => {})) ∧
    (0 < (small chatStreamed [chunk token] (chunk usage)).total server (fun _ => {}) ∧
      (small chatStreamed [chunk token] (chunk usage)).charge server (fun _ => {}) =
        (small chatStreamed [chunk token] (chunk usage)).total server (fun _ => {})) := by
  have hwhole : 0 < (small chat [completion] "").total server (fun _ => {}) := by decide +kernel
  have hstreamed : 0 < (small chatStreamed [chunk token] (chunk usage)).total server (fun _ => {}) := by
    decide +kernel
  refine ⟨⟨hwhole, (charged_eq_reported_iff (small_completes ?_ ?_) hwhole).1 ?_⟩,
    hstreamed, (charged_eq_reported_iff (small_completes ?_ ?_) hstreamed).1 ?_⟩
  · decide +kernel
  · decide +kernel
  · exact (if_neg (by decide +kernel)).mpr (by decide +kernel)
  · decide +kernel
  · decide +kernel
  · refine (if_pos (by decide +kernel)).mpr
      ⟨[chunk token], chunk usage, [], rfl, ?_, ⟨rfl, ⟨2, 1, 3⟩, ?_, ?_⟩, by simp⟩
    · intro b hb
      obtain rfl := List.mem_singleton.mp hb
      exact ⟨rfl, by decide +kernel⟩
    · decide +kernel
    · decide +kernel

open Gateway.Small in
/-- A completion in one message, and a stream that is closed after its usage, are charged
twice. -/
theorem charged_twice : ((small chat [] completion).Completes server (fun _ => {}) ∧
      (small chat [] completion).total server (fun _ => {}) = 3 ∧
      (small chat [] completion).charge server (fun _ => {}) = 6) ∧
    ((small chatStreamed [chunk token, chunk usage] done).Completes server (fun _ => {}) ∧
      (small chatStreamed [chunk token, chunk usage] done).total server (fun _ => {}) = 3 ∧
      (small chatStreamed [chunk token, chunk usage] done).charge server (fun _ => {}) = 6) := by
  refine ⟨⟨small_completes ?_ ?_, ?_, ?_⟩, small_completes ?_ ?_, ?_, ?_⟩ <;> decide +kernel

end Exchange
end Lodestar.Gateway
