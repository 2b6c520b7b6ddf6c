import Lodestar.Gateway.Response

/-!
# The parts of `HandleResponseBody`

One statement for each part says how it goes on, replies or waits, and what it
does to the entries of the request and to the calls.
-/

namespace Lodestar.Gateway

/-- A flow that goes on does so with `N`, one that replies does so with `R`, and one waits only
if `B`. -/
def Flow.Leads (F : Flow) (N R : Frame → Prop) (B : Prop) : Prop :=
  match F with
  | .next g => N g
  | .reply g _ => R g
  | .blocked _ => B

variable {F : Flow} {N N' R R' : Frame → Prop} {B B' : Prop}

lemma Flow.Leads.andThen {k : Frame → Flow} (h : F.Leads N R B)
    (hk : ∀ g, N g → (k g).Leads N' R B) : (F.andThen k).Leads N' R B := by
  cases F with
  | next g => exact hk g h
  | reply | blocked => exact h

lemma Flow.Leads.imp (h : F.Leads N R B) (hN : ∀ g, N g → N' g) (hR : ∀ g, R g → R' g)
    (hB : B → B') : F.Leads N' R' B' := by
  cases F with
  | next g => exact hN g h
  | reply g => exact hR g h
  | blocked => exact hB h

lemma Flow.Leads.goes (h : F.Leads N R B) (hB : ¬ B) :
    (∃ g, F = .next g ∧ N g) ∨ ∃ g resp, F = .reply g resp ∧ R g := by
  cases F with
  | next g => exact .inl ⟨g, rfl, h⟩
  | reply g resp => exact .inr ⟨g, resp, rfl, h⟩
  | blocked => exact absurd h hB

/-- From one frame to the other the user is charged, and the entries stay. -/
def Frame.Billed (f g : Frame) : Prop :=
  g.entries = f.entries ∧ ∃ ops, g.ops = f.ops ++ ops ∧ ∀ op ∈ ops, ∃ user n, op = .incrTPM user n

/-- From one frame to the other the calls are made, the timing record becomes `timing`, and the
routing context stays. -/
structure Frame.Passes (f : Frame) (timing : Option RequestTiming) (ops : List Op) (g : Frame) :
    Prop where
  timing : g.entries.timing = timing
  routingContext : g.entries.routingContext = f.entries.routingContext
  ops : g.ops = f.ops ++ ops

def CompletionUsage.tokens (u : CompletionUsage) : ℤ × ℤ := (u.promptTokens, u.completionTokens)

def Frame.tokens (f : Frame) : ℤ × ℤ := (f.promptTokens, f.completionTokens)

namespace ResponseCall

variable {c : ResponseCall}

/-- The usage that the first decoding of a streamed chunk yields. -/
def firstUsage (c : ResponseCall) (e : Entries) : CompletionUsage :=
  match e.routingContext with
  | none => e.streamingUsage.getD {}
  | some _ => (usageOfChunk c.server c.msg.body).getD (e.streamingUsage.getD {})

/-- The tokens of the chunk are counted for the pod. -/
def counts (c : ResponseCall) (pod : Pod) (timing : RequestTiming) : RequestTiming × List Op :=
  onEvents c.ctx.requestID pod.podIP c.env.now (c.server.events c.msg.body).1 timing

/-- What the first decoding of a streamed chunk leads to. -/
inductive Streamed (c : ResponseCall) (f : Frame) (timing : RequestTiming) : Flow → Prop
  | unlinked {g} (hctx : f.entries.routingContext = none) (h : f.Passes (some timing) [] g)
      (hu : g.usage = c.firstUsage f.entries) : Streamed c f timing (.next g)
  | blocked {g ctx} (hctx : f.entries.routingContext = some ctx) (hp : ctx.targetPod = none)
      (h : f.Passes (some timing) [] g) : Streamed c f timing (.blocked g)
  | counted {g ctx pod} (hctx : f.entries.routingContext = some ctx) (hp : ctx.targetPod = some pod)
      (herr : (c.server.events c.msg.body).2 = none)
      (h : f.Passes (some (c.counts pod timing).1) (c.counts pod timing).2 g)
      (hu : g.usage = c.firstUsage f.entries) : Streamed c f timing (.next g)
  | broken {g resp ctx pod} (hctx : f.entries.routingContext = some ctx)
      (hp : ctx.targetPod = some pod) (herr : (c.server.events c.msg.body).2.isSome = true)
      (hcomp : g.complete = true) (h : f.Passes none ((c.counts pod timing).2 ++
        releaseOps c.ctx.requestID pod.podIP (c.counts pod timing).1) g) :
      Streamed c f timing (.reply g resp)

lemma streamed (c : ResponseCall) {f : Frame} {timing : RequestTiming}
    (ht : f.entries.timing = some timing) : c.Streamed f timing (c.decodeStreamed f) := by
  unfold decodeStreamed handleStreamingResponse
  cases hctx : f.entries.routingContext with
  | none =>
    simp only [ht]
    exact .unlinked hctx ⟨rfl, hctx.symm, rfl⟩ (by simp [firstUsage, hctx])
  | some ctx =>
    cases hp : ctx.targetPod with
    | none =>
      simp only [ht, RoutingContext.targetAddressWithoutPort, hp]
      exact .blocked hctx hp ⟨rfl, hctx.symm, rfl⟩
    | some pod =>
      simp only [ht, RoutingContext.targetAddressWithoutPort_eq hp]
      cases herr : (c.server.events c.msg.body).2 with
      | some err => exact .broken hctx hp (by rw [herr]; rfl) rfl ⟨rfl, hctx.symm, rfl⟩
      | none =>
        cases hu : usageOfChunk c.server c.msg.body with
        | some | none =>
          exact .counted hctx hp herr ⟨rfl, hctx.symm, rfl⟩ (by simp only [firstUsage, hctx, hu]; rfl)

lemma finish_spec (f : Frame) (R : Frame → Prop) :
    (c.finish f).Leads (fun g => g.complete = f.complete ∧ g.usage = f.usage) R
        (c.ctx.targetPod = none) ∧
      ((c.finish f).frame.entries.timing = none →
        f.entries.timing = none ∨ c.msg.endOfStream = true) := by
  unfold finish
  split
  · exact ⟨⟨rfl, rfl⟩, .inl⟩
  · split
    · exact ⟨⟨rfl, rfl⟩, .inl⟩
    · rename_i hend
      split
      · rename_i hp
        exact ⟨Option.map_eq_none_iff.mp hp, .inl⟩
      · exact ⟨⟨rfl, rfl⟩, fun _ => .inr (by simpa using hend)⟩

/-- The rate limiter refuses to charge the first usage. -/
def Refused (c : ResponseCall) (u : CompletionUsage) : Prop :=
  c.user.name ≠ "" ∧ 0 < u.totalTokens ∧ ∃ err, c.env.incrTPM = .error err

/-- The calls that charge the user. -/
def bill (c : ResponseCall) (charges : List ℤ) : List Op :=
  if c.user.name = "" then [] else charges.map (.incrTPM c.user)

/-- From one frame to the other the user is charged, and the completion and the entries stay. -/
structure Charges (c : ResponseCall) (charges : List ℤ) (f g : Frame) : Prop where
  entries : g.entries = f.entries
  res : g.res = f.res
  ops : g.ops = f.ops ++ c.bill charges

lemma charges_nil {f g : Frame} (hentries : g.entries = f.entries) (hres : g.res = f.res)
    (hops : g.ops = f.ops) : c.Charges [] f g := ⟨hentries, hres, by simp [bill, hops]⟩

lemma Charges.billed {charges : List ℤ} {f g : Frame} (h : c.Charges charges f g) : f.Billed g := by
  refine ⟨h.entries, _, h.ops, fun op ho => ?_⟩
  unfold bill at ho
  split at ho
  · simp at ho
  · obtain ⟨n, -, rfl⟩ := List.mem_map.mp ho
    exact ⟨_, n, rfl⟩

/-- A charge, and what is done with it. -/
lemma charge_spec {answer : Except String ℤ} {n : ℤ} {f : Frame} {k : Frame → Flow}
    {N R : Frame → Prop} (hk : ¬ (c.user.name ≠ "" ∧ ∃ err, answer = .error err) →
      ∀ ops headers,
        let g := { f with ops := ops, headers := headers }
      (k g).Leads N R (c.ctx.targetPod = none) ∧ c.Charges [] g (k g).frame)
    (hR : c.user.name ≠ "" → (∃ err, answer = .error err) → ∀ ops, R { f with ops := ops }) :
    ((c.charge answer n f).andThen k).Leads N R (c.ctx.targetPod = none) ∧
      c.Charges [n] f ((c.charge answer n f).andThen k).frame := by
  unfold charge
  split
  · rename_i hname
    obtain ⟨hleads, h⟩ := hk (fun h => h.1 hname) f.ops f.headers
    exact ⟨hleads, h.entries, h.res, h.ops.trans (by simp [bill, hname])⟩
  · rename_i hname
    cases answer with
    | error err => exact ⟨hR hname ⟨err, rfl⟩ _, rfl, rfl, by rw [bill, if_neg hname]; rfl⟩
    | ok tpm =>
      obtain ⟨hleads, h⟩ := hk (by simp) (f.ops ++ [.incrTPM c.user n])
        (f.headers ++ c.limitHeaders tpm)
      exact ⟨hleads, h.entries, h.res, h.ops.trans (by simp [bill, hname])⟩

lemma report_spec (f : Frame) : (c.report f).Leads
      (fun g => ¬ c.Refused f.usage ∧ g.usage = f.usage ∧
        g.complete = (f.complete || decide (0 < f.usage.totalTokens)) ∧
        g.tokens = if 0 < f.usage.totalTokens then f.usage.tokens else f.tokens)
      (fun g => c.Refused f.usage ∧ g.complete = true ∧ g.tokens = f.usage.tokens)
      (c.ctx.targetPod = none) ∧
    c.Charges (if 0 < f.usage.totalTokens then [f.usage.totalTokens] else []) f
      (c.report f).frame := by
  unfold report
  by_cases hpos : 0 < f.usage.totalTokens
  · simp only [not_le.mpr hpos, hpos, decide_true, Bool.or_true]
    refine .imp_right (fun h => ⟨h.entries, h.res, h.ops⟩) (charge_spec (fun hnot _ _ => ?_)
      fun hname herr _ => ⟨⟨hname, hpos, herr⟩, rfl, rfl⟩)
    split
    · rename_i hp
      exact ⟨Option.map_eq_none_iff.mp hp, charges_nil rfl rfl rfl⟩
    · exact ⟨⟨fun h => hnot ⟨h.1, h.2.2⟩, rfl, rfl, rfl⟩, charges_nil rfl rfl rfl⟩
  · simp only [not_lt.mp hpos, hpos, decide_false, Bool.or_false]
    exact ⟨⟨fun h => hpos h.2.1, rfl, rfl, rfl⟩, charges_nil rfl rfl rfl⟩

lemma decodeAgain_spec (f : Frame) :
    (c.decodeAgain f).Leads (fun g => g.complete = f.complete ∧ (c.stream = true →
        (c.server.events c.msg.body).2 = none ∧
          g.usage = usageOfEvents f.usage (c.server.events c.msg.body).1))
      (fun g => g.complete = true ∨
        g.complete = f.complete ∧ c.stream = false ∧ c.msg.endOfStream = false)
      (c.ctx.targetPod = none) ∧
    let g := (c.decodeAgain f).frame
    (g.ops = f.ops ∧ g.entries.timing = f.entries.timing ∧
        g.entries.routingContext = f.entries.routingContext ∨
      ∃ timing, f.entries.timing = some timing ∧ g.entries.timing = none ∧ c.stream = true ∧
        (c.server.events c.msg.body).2.isSome = true ∧ (c.ctx.targetPod = none ∧ g.ops = f.ops ∨
          ∃ pod, c.ctx.targetPod = some pod ∧ g.ops = f.ops ++ releaseAgainOps pod.podIP timing)) := by
  unfold decodeAgain
  split
  · rename_i hs
    simp only [decodeStreamedAgain]
    cases (c.server.events c.msg.body).2 with
    | none => exact ⟨⟨rfl, fun _ => ⟨rfl, rfl⟩⟩, .inl ⟨rfl, rfl, rfl⟩⟩
    | some err =>
      cases ht : f.entries.timing with
      | none => exact ⟨.inl rfl, .inl ⟨rfl, ht, rfl⟩⟩
      | some timing =>
        cases hp : c.ctx.targetPod with
        | none =>
          simp only [RoutingContext.targetAddressWithoutPort, hp]
          exact ⟨trivial, .inr ⟨timing, rfl, rfl, hs, rfl, .inl ⟨trivial, rfl⟩⟩⟩
        | some pod =>
          simp only [RoutingContext.targetAddressWithoutPort_eq hp]
          exact ⟨.inl rfl, .inr ⟨timing, rfl, rfl, hs, rfl, .inr ⟨pod, rfl, rfl⟩⟩⟩
  · rename_i hs
    have hs := Bool.eq_false_iff.mpr hs
    unfold decodeBufferedAgain
    dsimp only
    split
    · exact ⟨.inr ⟨rfl, hs, ‹_›⟩, .inl ⟨rfl, rfl, rfl⟩⟩
    · split
      · exact ⟨.inl rfl, .inl ⟨rfl, rfl, rfl⟩⟩
      · split
        · exact ⟨.inl rfl, .inl ⟨rfl, rfl, rfl⟩⟩
        · exact ⟨⟨rfl, fun hs' => by simp [hs] at hs'⟩, .inl ⟨rfl, rfl, rfl⟩⟩

lemma close_spec (f : Frame) (N : Frame → Prop) : (c.close f).Leads N (fun g =>
        g.complete = (f.complete || decide (f.usage.totalTokens ≠ 0) || c.msg.endOfStream) ∧
        g.tokens = if f.usage.totalTokens ≠ 0 then f.usage.tokens else f.tokens)
      (c.ctx.targetPod = none) ∧
    c.Charges (if f.usage.totalTokens = 0 then [] else [f.res.usage.totalTokens]) f
      (c.close f).frame := by
  unfold close
  by_cases hzero : f.usage.totalTokens = 0
  · simp only [hzero]
    cases c.msg.endOfStream with
    | true => exact ⟨⟨by simp, rfl⟩, charges_nil rfl rfl rfl⟩
    | false => exact ⟨⟨by simp, rfl⟩, charges_nil rfl rfl rfl⟩
  · simp only [hzero, ne_eq, not_false_eq_true, decide_true, Bool.or_true]
    refine .imp_right (fun h => ⟨h.entries, h.res, h.ops⟩) (charge_spec (fun _ _ _ => ?_)
      fun _ _ _ => ⟨rfl, rfl⟩)
    cases hp : c.ctx.targetPod with
    | none =>
      simp only [RoutingContext.targetName, hp]
      exact ⟨trivial, charges_nil rfl rfl rfl⟩
    | some pod =>
      simp only [RoutingContext.targetAddress_eq hp, RoutingContext.targetName_eq hp]
      exact ⟨⟨rfl, rfl⟩, charges_nil rfl rfl rfl⟩

end ResponseCall
end Lodestar.Gateway
