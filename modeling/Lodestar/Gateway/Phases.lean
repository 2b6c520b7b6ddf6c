import Lodestar.Gateway.Streams

/-!
# The phase counters

A request counts in the prefill phase of its pod until its first token and in the
decode phase from then on.  The handlers keep this account as long as the end of a
stream finds the request in its decode phase.  They do not where it is still in its
prefill phase: `calculateTimingMetrics` always takes the request off the decode
counters, so a response that is not streamed, or a stream without any content, leaves
the prefill counters too high for good.

`phaseCounters_run` says that this is all that can go wrong, besides a second request
body on a stream that has a routed request.
-/

namespace Lodestar.Gateway

open Lib Lodestar.Indexer

/-! ### The account of one request -/

/-- The share of a request in the phase counters: one request and its prompt before
the first token, one request and its generated tokens after it. -/
def phaseShare (timing : RequestTiming) : Counter → ℤ
  | .requests => 0
  | .prefillRequests => if timing.firstTokenTime.isNone then 1 else 0
  | .prefillTokens => if timing.firstTokenTime.isNone then timing.prefillTokenCount else 0
  | .decodeRequests => if timing.firstTokenTime.isSome then 1 else 0
  | .decodeTokens => if timing.firstTokenTime.isSome then timing.decodeTokenCount else 0

def phaseBooks : Books where
  watched := fun counter => counter ≠ .requests
  share := phaseShare

attribute [local simp] phaseBooks Books.amount

lemma phase_increment (counter : Counter) (podIP : String) (n : ℕ) (k : Account) :
    phaseBooks.amount (.increment counter podIP n) k =
      if k.1 ≠ .requests ∧ k = (counter, podIP) then (n : ℤ) else 0 := by
  by_cases hk : k.1 = .requests <;> simp [Op.amount, hk]

lemma phase_decrement (counter : Counter) (podIP : String) (n : ℕ) (k : Account) :
    phaseBooks.amount (.decrement counter podIP n) k =
      if k.1 ≠ .requests ∧ k = (counter, podIP) then -(n : ℤ) else 0 := by
  by_cases hk : k.1 = .requests <;> simp [Op.amount, hk]

attribute [local simp] phaseShare

lemma phase_holding (podIP : String) (timing : RequestTiming) (k : Account) :
    phaseBooks.holding podIP timing k = if k.2 = podIP then phaseShare timing k.1 else 0 := by
  obtain ⟨counter, p⟩ := k
  cases counter <;> simp [Books.holding]

lemma phase_of_release (requestID podIP : String) (timing : RequestTiming) {ops : List Op}
    (hops : ops = releaseOps requestID podIP timing ∨ ops = ResponseCall.releaseAgainOps podIP timing) :
    Settles phaseBooks.amount (phaseBooks.holding podIP timing) ops nothing := by
  rcases hops with rfl | rfl <;> cases h : timing.firstTokenTime <;>
    simp only [releaseOps, ResponseCall.releaseAgainOps, h, List.cons_append, List.nil_append,
      Settles.cons_iff, Settles.nil_iff, decrementNumInflightPrefillRequestsForPod,
      decrementNumInflightPrefillTokensForPod, decrementNumInflightDecodeRequestsForPod,
      decrementNumInflightDecodeTokensForPod, decrementNumInflightRequestsForPod, phase_decrement,
      phase_holding] <;>
    and_intros <;> rintro ⟨counter, p⟩ <;> by_cases hp : p = podIP <;> cases counter <;>
    simp [hp, h, Op.amount, nothing]

/-- The phase counters, with the requests in their decode phase as those that the end
of a stream may release. -/
def phaseAccounting : Accounting where
  toBooks := phaseBooks
  Ripe := fun timing => timing.firstTokenTime.isSome = true
  share_nonneg := by
    intro timing counter
    cases counter <;> simp only [phaseBooks, phaseShare] <;> first | exact le_rfl | (split <;> positivity)
  arrive := by
    intro podIP timing h
    simp only [Settles.cons_iff, Settles.nil_iff, incrementNumInflightForPod,
      incrementNumInflightPrefillRequestsForPod, incrementNumInflightPrefillTokensForPod,
      phase_increment, phase_holding]
    and_intros <;> rintro ⟨counter, p⟩ <;> by_cases hp : p = podIP <;> cases counter <;>
      simp [hp, nothing, h]
  token := by
    intro requestID podIP now timing
    unfold onToken
    cases h : timing.firstTokenTime with
    | none =>
      simp only [Settles.cons_iff, Settles.nil_iff, decrementNumInflightPrefillRequestsForPod,
        decrementNumInflightPrefillTokensForPod, incrementNumInflightDecodeRequestsForPod,
        incrementNumInflightDecodeTokensForPod, phase_increment, phase_decrement, phase_holding]
      and_intros <;> rintro ⟨counter, p⟩ <;> by_cases hp : p = podIP <;> cases counter <;>
        simp [hp, h, Op.amount]
    | some t =>
      simp only [Settles.cons_iff, Settles.nil_iff, incrementNumInflightDecodeTokensForPod,
        phase_increment, phase_holding]
      and_intros <;> rintro ⟨counter, p⟩ <;> by_cases hp : p = podIP <;> cases counter <;>
        simp [hp, h]
      positivity
  token_ripe := by
    intro requestID podIP now timing
    unfold onToken
    cases timing.firstTokenTime <;> simp
  release _ _ _ := phase_of_release _ _ _ (.inl rfl)
  releaseAgain _ _ := phase_of_release "" _ _ (.inr rfl)
  finish := by
    intro podIP timing h
    obtain ⟨t, ht⟩ := Option.isSome_iff_exists.mp h
    simp only [Settles.cons_iff, Settles.nil_iff, decrementNumInflightRequestsForPod,
      decrementNumInflightDecodeTokensForPod, decrementNumInflightDecodeRequestsForPod,
      phase_decrement, phase_holding]
    and_intros <;> rintro ⟨counter, p⟩ <;> by_cases hp : p = podIP <;> cases counter <;>
      simp [hp, ht, nothing]
  buffered := by
    intro timing now h
    obtain ⟨t, ht⟩ := Option.isSome_iff_exists.mp h
    have he : { timing with firstTokenTime := timing.firstTokenTime.or (some now) } = timing := by
      rw [ht, Option.some_or, ← ht]
    exact ⟨by rw [he], by rw [he]; exact h⟩

/-! ### Whole runs -/

variable {ι : Type*}

/-- What has to hold before an event for the phase counters to stay right: a request
body does not come on a stream with a routed request, or on one that is marked as
cleaned; and when a routed request with its timing record gets the end of its stream, it
has had its first token, or the chunk is a streamed one that has content or cannot be
decoded. -/
def PhaseOk (s : Server) (σ : System ι) : Event ι → Prop
  | .receive i (.requestBody _ _) _ => System.ready (σ.streams i) = true →
      (∀ ctx ∈ (σ.streams i).proc.routerCtx, ctx.hasRouted = false) ∧
        (σ.streams i).proc.inflightCleaned = false
  | .receive i (.responseBody msg _) _ => System.ready (σ.streams i) = true →
      (σ.streams i).proc.isRespError = false → ∀ ctx ∈ (σ.streams i).proc.ctx,
        ctx.hasRouted = true → msg.endOfStream = true →
        ∀ timing ∈ (σ.maps ctx.requestID).timing, timing.firstTokenTime.isSome = true ∨
          (σ.streams i).proc.stream = true ∧
            ((s.events msg.body).1.any ChatCompletionChunk.hasContent = true ∨
              (s.events msg.body).2.isSome = true)
  | _ => True

instance (s : Server) (σ : System ι) : ∀ e : Event ι, Decidable (PhaseOk s σ e)
  | .receive _ (.requestBody _ _) _ => by unfold PhaseOk; infer_instance
  | .receive _ (.responseBody _ _) _ => by unfold PhaseOk; infer_instance
  | .receive _ (.requestHeaders _ _) _ | .receive _ (.responseHeaders _) _
  | .receive _ .unknown _ | .stop _ | .perform _ | .evict _ _ => isTrue trivial

lemma eventOk_of_phaseOk {s : Server} {ids : ι → String} {σ : System ι} {e : Event ι}
    (hn : System.Named ids σ e) (h : PhaseOk s σ e) : phaseAccounting.EventOk s ids σ e := by
  cases e with
  | receive i msg sendFails =>
    intro hready
    cases msg with
    | requestBody body env =>
      refine ⟨hn hready, fun ctx hctx => ?_, (h hready).2⟩
      simpa [RoutingContext.hasRouted] using (h hready).1 ctx hctx
    | responseBody msg env =>
      intro herr ctx hctx
      exact h hready herr ctx hctx
    | _ => trivial
  | _ => trivial

/-- **The phase counters over whole runs.**  In every run of streams
with different request IDs whose events all meet `PhaseOk`, no phase counter is ever negative, and
once all streams have ended the counters are back at the values they started with. -/
theorem phaseCounters_run [Fintype ι] [DecidableEq ι] (s : Server) (ids : ι → String)
    (hids : Function.Injective ids) (base : Counters) (preble : Routing.Router)
    (hbase : ∀ counter ≠ .requests, ∀ podIP, 0 ≤ base.value counter podIP) (es : List (Event ι))
    (hnamed : Along (System.step s) (System.Named ids) (.start base preble) es)
    (hes : Along (System.step s) (PhaseOk s) (.start base preble) es) :
    (∀ es', es' <+: es → ∀ counter ≠ .requests, ∀ podIP,
      0 ≤ ((System.start base preble).run s es').counters.value counter podIP) ∧
    ((∀ i, (((System.start base preble).run s es).streams i).Ended) →
      ∀ counter ≠ .requests, ∀ podIP,
        ((System.start base preble).run s es).counters.value counter podIP =
          base.value counter podIP) := by
  have hwatched : ∀ (c : Counters) counter podIP, counter ≠ .requests →
      phaseAccounting.watchedValue c (counter, podIP) = c.value counter podIP := by
    intro c counter podIP hc
    simp [Accounting.watchedValue, phaseAccounting, hc]
  have hbase' : ∀ k, 0 ≤ phaseAccounting.watchedValue base k := by
    rintro ⟨counter, podIP⟩
    by_cases hc : counter = .requests
    · simp [Accounting.watchedValue, phaseAccounting, hc]
    · rw [hwatched base counter podIP hc]
      exact hbase counter hc podIP
  have hok := (hnamed.and hes).imp fun σ e h => eventOk_of_phaseOk h.1 h.2
  have hinv : ∀ es', es' <+: es →
      phaseAccounting.Inv ids base ((System.start base preble).run s es') := fun es' hpre =>
    (Accounting.Inv.start ids base preble).run hids hbase' (hok.of_prefix hpre)
  constructor
  · intro es' hpre counter hc podIP
    have hle := (hinv es' hpre).ledger.le_total (hinv es' hpre).booked_nonneg (counter, podIP)
    rw [hwatched base counter podIP hc, hwatched _ counter podIP hc] at hle
    exact (hbase counter hc podIP).trans hle
  · intro hended counter hc podIP
    have h := hinv es (List.prefix_refl _)
    have hzero : ∀ i k, phaseAccounting.booked
        (((System.start base preble).run s es).streams i) k = 0 := by
      intro i k
      have hs := h.settles i
      rw [(hended i).2, h.ended i (hended i).1] at hs
      exact congrFun hs.eq_of_nil k
    have := h.ledger.total_eq_base hzero (counter, podIP)
    rwa [hwatched _ counter podIP hc, hwatched _ counter podIP hc] at this

/-- A response that is not streamed: at its end the request leaves the decode phase, which
it never entered, and stays in the prefill phase for good. -/
theorem phaseCounters_run_buffered :
    let es : List (Event Unit) := [Small.headers () "r" (Small.strategy "random"),
      Small.request () Small.chat] ++ Small.performs () 4 ++
      [Small.response () Small.completion true] ++ Small.performs () 6 ++ [.stop ()]
    let σ := (System.start Small.counters (.new 0 2)).run Small.server es
    Along (System.step Small.server) (System.Named fun _ => "r")
        (.start Small.counters (.new 0 2)) es ∧ (σ.streams ()).Ended ∧
      σ.counters.value .prefillRequests "10.0.0.1" = 1 ∧
      σ.counters.value .prefillTokens "10.0.0.1" = 2 := by
  unfold Stream.Ended
  decide +kernel

/-- Two streams on one pod: the first gets a token and the end of its stream, the second is
cancelled while the first is still running. -/
theorem phaseCounters_run_streamed :
    let es : List (Event Bool) := [Small.headers true "r" (Small.strategy "random"),
      Small.headers false "q" (Small.strategy "random"), Small.request true Small.chatStreamed,
      Small.request false Small.chat] ++ Small.performs true 4 ++ Small.performs false 4 ++
      [Small.response true (Small.chunk Small.token) false, .perform true, .stop false] ++
      Small.performs false 7 ++ Small.performs true 4 ++ [Small.response true Small.done true] ++
      Small.performs true 6 ++ [.stop true]
    ∀ counter ≠ .requests, ∀ podIP, ((System.start Small.counters (.new 0 2)).run Small.server
      es).counters.value counter podIP = Small.counters.value counter podIP := by
  intro es
  refine (phaseCounters_run Small.server (fun b => if b then "r" else "q") (by decide)
    Small.counters (.new 0 2) (fun _ _ _ => le_rfl) es (by decide +kernel) (by decide +kernel)).2 ?_
  unfold Stream.Ended
  decide +kernel

end Lodestar.Gateway
