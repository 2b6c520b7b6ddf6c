import Lodestar.Gateway.Streams

/-!
# The in-flight request count

Each routed request takes one unit of the request count of its target pod and gives it
back once.  The count is watched by `requestAccounting`, for which every record may end a
stream, so no condition on the responses is left: with at most one request body on a
stream the books are always kept.  As only a request body takes a unit (`Calls`), the
calls of a stream on the count are one increment and at most one decrement, on one pod
(`inflightRequests_run`).
-/

namespace Lodestar.Gateway

open Lib Lodestar.Indexer List

/-! ### The account of one request -/

/-- What a call adds to the request count, and of which pod. -/
def Op.onRequests : Op → Option (String × ℤ)
  | .increment .requests podIP n => some (podIP, n)
  | .decrement .requests podIP n => some (podIP, -n)
  | _ => none

def requestMoves (ops : List Op) : List (String × ℤ) := ops.filterMap Op.onRequests

/-- The books of the request count: one unit while the timing record is there. -/
def requestBooks : Books where
  watched := fun counter => counter = .requests
  share := fun _ _ => 1

lemma request_amount (op : Op) (counter : Counter) (podIP : String) :
    requestBooks.amount op (counter, podIP) =
      if counter = .requests then op.onRequests.elim 0 fun m => entry m podIP else 0 := by
  have hop : op.amount (.requests, podIP) = op.onRequests.elim 0 fun m => entry m podIP := by
    cases op with
    | increment c | decrement c => cases c <;> simp [Op.amount, Op.onRequests, entry]
    | _ => rfl
  by_cases hc : counter = .requests
  · subst hc
    simpa [Books.amount, requestBooks] using hop
  · simp [Books.amount, requestBooks, hc]

lemma request_holding (podIP : String) (timing : RequestTiming) (k : Account) :
    requestBooks.holding podIP timing k = if k = (.requests, podIP) then 1 else 0 := by
  obtain ⟨c, p⟩ := k
  cases c <;> simp [Books.holding, requestBooks]

lemma request_of_none {op : Op} (h : op.onRequests = none) (k : Account) :
    requestBooks.amount op k = 0 := by
  rw [request_amount, h]
  simp

section

variable (requestID podIP : String) (timing : RequestTiming)

lemma request_other {ops : List Op} (h : requestMoves ops = []) :
    Settles requestBooks.amount (requestBooks.holding podIP timing) ops
      (requestBooks.holding podIP timing) := by
  refine .of_neutral (fun k => ?_) fun op ho => ?_
  · rw [request_holding]
    split <;> omega
  · exact request_of_none (filterMap_eq_nil_iff.mp h op ho)

lemma request_nothing {ops : List Op} (h : requestMoves ops = []) :
    Settles requestBooks.amount nothing ops nothing :=
  .of_neutral (fun _ => le_rfl) fun op ho =>
    request_of_none (filterMap_eq_nil_iff.mp h op ho)

lemma request_take : Settles requestBooks.amount nothing [incrementNumInflightForPod podIP]
    (requestBooks.holding podIP timing) := by
  refine Settles.cons_iff.mpr ⟨fun _ => le_rfl, Settles.nil_iff.mpr ⟨?_, ?_⟩⟩ <;>
    rintro ⟨counter, p⟩ <;> by_cases hc : counter = .requests <;> by_cases hp : p = podIP <;>
    simp [request_amount, request_holding, incrementNumInflightForPod, Op.onRequests, nothing, entry,
      hc, hp]

lemma request_return : Settles requestBooks.amount (requestBooks.holding podIP timing)
      [decrementNumInflightRequestsForPod podIP] nothing := by
  refine Settles.cons_iff.mpr ⟨?_, Settles.nil_iff.mpr ⟨?_, ?_⟩⟩ <;>
    rintro ⟨counter, p⟩ <;> by_cases hc : counter = .requests <;> by_cases hp : p = podIP <;>
    simp [request_amount, request_holding, decrementNumInflightRequestsForPod, Op.onRequests,
      nothing, entry, hc, hp]

lemma request_release : Settles requestBooks.amount (requestBooks.holding podIP timing)
      (releaseOps requestID podIP timing) nothing := by
  have hlast : Settles requestBooks.amount (requestBooks.holding podIP timing)
      ([decrementNumInflightRequestsForPod podIP] ++ [.decrementMooncakeVirtualQueue requestID])
      nothing := (request_return podIP timing).trans (request_nothing rfl)
  refine (request_other podIP timing ?_).trans hlast
  cases timing.firstTokenTime <;> rfl

end

def requestAccounting : Accounting where
  toBooks := requestBooks
  Ripe := fun _ => True
  share_nonneg := fun _ _ => zero_le_one
  arrive := fun podIP timing _ => (request_take podIP timing).trans (request_other podIP timing rfl)
  token := by
    intro requestID podIP now timing
    refine request_other podIP timing ?_
    unfold onToken
    cases timing.firstTokenTime <;> rfl
  token_ripe := fun _ _ _ _ => trivial
  release := request_release
  releaseAgain := by
    intro podIP timing
    refine (request_other podIP timing ?_).trans (request_return podIP timing)
    cases timing.firstTokenTime <;> rfl
  finish := fun podIP timing _ => (request_return podIP timing).trans (request_nothing rfl)
  buffered := fun _ _ _ => ⟨rfl, trivial⟩

/-! ### The calls of one stream -/

/-- The IP of the pod that the request of the stream was routed to. -/
def Proc.target (p : Proc) : Option String := p.routerCtx.bind RoutingContext.targetAddressWithoutPort

/-- The calls on the request count that a stream owes: one unit is added for a routed
request and taken off again, on its target pod. -/
def Proc.requestMoves (p : Proc) : List (String × ℤ) :=
  p.target.elim [] fun podIP => [(podIP, 1), (podIP, -1)]

lemma sumOf_requestMoves (ops : List Op) (podIP : String) :
    sumOf requestBooks.amount ops (.requests, podIP) = sumOf entry (requestMoves ops) podIP := by
  induction ops with
  | nil => rfl
  | cons op ops ih =>
    rw [sumOf_cons, ih, request_amount]
    cases h : op.onRequests with
    | none | some => simp [requestMoves, h]

lemma solvent_requestMoves {ops : List Op} (h : Solvent requestBooks.amount nothing ops) :
    Solvent entry (fun _ => 0) (requestMoves ops) := by
  rintro l ⟨l', hl⟩ podIP
  obtain ⟨ops₁, ops₂, rfl, rfl, -⟩ := filterMap_eq_append_iff.mp hl.symm
  have := h ops₁ (prefix_append _ _) (.requests, podIP)
  rwa [sumOf_requestMoves] at this

lemma requestMoves_of_later {ops : List Op} (h : ∀ op ∈ ops, op.Later) :
    ∀ m ∈ requestMoves ops, m.2 = -1 := by
  intro m hm
  obtain ⟨op, ho, hop⟩ := mem_filterMap.mp hm
  have hl := h op ho
  cases op with
  | increment counter podIP n =>
    cases counter <;> simp [Op.onRequests] at hop
    simp [Op.Later] at hl
  | decrement counter podIP n =>
    cases counter <;> simp [Op.onRequests] at hop
    obtain rfl : n = 1 := hl rfl
    rw [← hop]
    rfl
  | _ => simp [Op.onRequests] at hop

attribute [local simp] Proc.target Proc.afterBody RoutingContext.targetAddressWithoutPort

/-- **A request body** takes one unit of its target pod, if it gets one. -/
lemma requestMoves_onRequestBody (s : Server) {p : Proc} (h : p.Untouched) (maps : Maps)
    (body : String) (env : BodyEnv) :
    requestMoves (p.onRequestBody s maps body env).ops =
      ((p.onRequestBody s maps body env).proc.target.map (·, (1 : ℤ))).toList := by
  have hnone : p.target = none := by simp [h.routerCtx]
  unfold Proc.onRequestBody
  have hcase := @handleRequestBody_cases s env (maps p.requestID) p.requestID body p.user
    p.routingAlgorithm
  generalize handleRequestBody s env p.requestID body p.user p.routingAlgorithm
    (maps p.requestID) = handled at hcase
  cases hcase with
  | rejected r hr => simp [hr, requestMoves]
  | notRouted r model hr halg =>
    simp [hr, requestMoves, Op.onRequests, filterMap_cons]
  | noMessage r ctx hr hid hp =>
    simp [hr, requestMoves, hp]
  | failed r ctx pods e' ops message hr hid hp hc hsel =>
    rw [requestMoves, filterMap_selectTargetPod hsel fun _ => rfl]
    simp [hr, hp]
  | blocked _ _ _ _ _ hsel | panicked _ _ _ _ _ hsel =>
    rw [requestMoves, filterMap_selectTargetPod hsel fun _ => rfl, hnone]
    rfl
  | routed r ctx pods pod timing e' ops hid hr hmodel hc ht hfirst hsel =>
    rw [requestMoves, filterMap_append, filterMap_selectTargetPod hsel fun _ => rfl]
    simp [hr,
      Op.onRequests, incrementNumInflightForPod,
      incrementNumInflightPrefillRequestsForPod, incrementNumInflightPrefillTokensForPod]

/-- The calls of a stream on the request count take at most one unit, on the target pod,
and are always covered. -/
structure Stream.Booked (t : Stream) : Prop where
  arrivals : (requestMoves t.calls).filter (fun m => 0 < m.2) =
    (t.proc.target.map (·, (1 : ℤ))).toList
  unit : ∀ m ∈ requestMoves t.calls, m.2 = 1 ∨ m.2 = -1
  solvent : Solvent requestBooks.amount nothing t.calls

lemma Stream.Booked.moves_owed {t : Stream} (h : t.Booked) :
    requestMoves t.calls <+: t.proc.requestMoves :=
  (solvent_requestMoves h.solvent).prefix_of_single h.unit h.arrivals

lemma Stream.Booked.extend {t t' : Stream} (h : t.Booked) {ops : List Op}
    (hcalls : t'.calls = t.calls ++ ops)
    (hs : Solvent requestBooks.amount (sumOf requestBooks.amount t.calls) ops)
    (hunit : ∀ m ∈ requestMoves ops, m.2 = 1 ∨ m.2 = -1)
    (harr : (t.proc.target.map (·, (1 : ℤ))).toList ++
      (requestMoves ops).filter (fun m => 0 < m.2) =
        (t'.proc.target.map (·, (1 : ℤ))).toList) : t'.Booked := by
  have happ : requestMoves (t.calls ++ ops) = requestMoves t.calls ++ requestMoves ops :=
    filterMap_append
  refine ⟨?_, ?_, ?_⟩
  · rw [hcalls, happ, filter_append, h.arrivals, harr]
  · rw [hcalls, happ]
    exact fun m hm => (mem_append.mp hm).elim (h.unit m) (hunit m)
  · rw [hcalls]
    refine h.solvent.append ?_
    simpa [nothing] using hs

/-! ### Turns -/

/-- Calls that turn a stream with variables `p` into one with variables `q` and take a
unit exactly for a new target. -/
structure TakesUnit (p q : Proc) (ops : List Op) : Prop where
  unit : ∀ m ∈ requestMoves ops, m.2 = 1 ∨ m.2 = -1
  arrivals : (p.target.map (·, (1 : ℤ))).toList ++ (requestMoves ops).filter (fun m => 0 < m.2) =
    (q.target.map (·, (1 : ℤ))).toList

lemma TakesUnit.of_later {p q : Proc} {ops : List Op} (h : ∀ op ∈ ops, op.Later)
    (hq : q.target = p.target) : TakesUnit p q ops := by
  have hneg := requestMoves_of_later h
  refine ⟨fun m hm => .inr (hneg m hm), ?_⟩
  rw [hq, filter_eq_nil_iff.mpr fun m hm => by simp [hneg m hm], append_nil]

lemma TakesUnit.trans {p q r : Proc} {ops ops' : List Op} (h : TakesUnit p q ops)
    (h' : TakesUnit q r ops') : TakesUnit p r (ops ++ ops') := by
  have happ : requestMoves (ops ++ ops') = requestMoves ops ++ requestMoves ops' := filterMap_append
  refine ⟨?_, ?_⟩
  · rw [happ]
    exact fun m hm => (mem_append.mp hm).elim (h.unit m) (h'.unit m)
  · rw [happ, filter_append, ← append_assoc, h.arrivals, h'.arrivals]

lemma takesUnit_onMessage (s : Server) {p : Proc} (maps : Maps) {msg : Message}
    (h : msg.isRequestBody = true → p.Untouched) :
    TakesUnit p (p.onMessage s maps msg).proc (p.onMessage s maps msg).ops := by
  cases hm : msg.isRequestBody with
  | false =>
    obtain ⟨hl, hsame⟩ := later_onMessage s p maps hm
    exact .of_later hl (by unfold Proc.target; rw [hsame.routerCtx])
  | true =>
    have hu := h hm
    obtain ⟨body, env, rfl⟩ := Message.eq_requestBody hm
    have hmoves : requestMoves (p.onMessage s maps (.requestBody body env)).ops = _ :=
      requestMoves_onRequestBody s hu maps body env
    have hone : ∀ o : Option String, ∀ m ∈ (o.map (·, (1 : ℤ))).toList, m.2 = 1 := by
      intro o m hm
      cases o <;> simp_all
    refine ⟨fun m hm => .inl (hone _ m (hmoves ▸ hm)), ?_⟩
    rw [hmoves, filter_eq_self.mpr fun m hm => by simp [hone _ m hm]]
    simp [hu.routerCtx, Proc.onMessage]

lemma takesUnit_exit (p : Proc) (maps : Maps) :
    TakesUnit p { p with status := .ended } (p.exit maps).2 :=
  TakesUnit.of_later (later_exit p maps) rfl

lemma takesUnit_receive (s : Server) {p : Proc} (maps : Maps) {msg : Message} (sendFails : Bool)
    (h : msg.isRequestBody = true → p.Untouched) :
    TakesUnit p (p.receive s maps msg sendFails).1 (p.receive s maps msg sendFails).2.2 := by
  have ht := takesUnit_onMessage s maps h
  rcases receive_cases s p maps msg sendFails with hr | ⟨-, hr⟩ | hr
  · rw [hr]
    exact ht.trans (takesUnit_exit _ _)
  · rw [hr]
    exact ht
  · rw [hr]
    exact ⟨ht.unit, ht.arrivals⟩

/-! ### Whole runs -/

section

variable {ι : Type*} [Fintype ι] [DecidableEq ι] {s : Server} {ids : ι → String} {base : Counters}
  {σ : System ι}

/-- **One event** keeps the calls of every stream in order. -/
lemma booked_step (hI : requestAccounting.Inv ids base σ) (hB : ∀ i, (σ.streams i).Booked)
    {e : Event ι} (hok : requestAccounting.EventOk s ids σ e) (hfirst : σ.FirstBody e) (i : ι) :
    ((σ.step s e).streams i).Booked := by
  rcases System.stream_step s σ e i with ⟨hp, hc⟩ | ⟨hready, hacts⟩
  · obtain ⟨h₁, h₂, h₃⟩ := hB i
    exact ⟨by rwa [hp, hc], by rwa [hc], by rwa [hc]⟩
  · obtain ⟨hrun, hpend⟩ := Accounting.ready_iff.mp hready
    have hcoh := hI.coherent i hrun
    have hsum : sumOf requestBooks.amount (σ.streams i).calls =
        requestAccounting.contrib (σ.streams i).proc σ.maps := by
      have hsettles := hI.settles i
      rw [hpend] at hsettles
      rw [Stream.calls, hpend, append_nil]
      exact hsettles.eq_of_nil
    rcases hacts with ⟨msg, sendFails, rfl, hp, hc⟩ | ⟨rfl, hp, hc⟩
    · have hu := takesUnit_receive s σ.maps sendFails hfirst
      refine (hB i).extend hc ?_ hu.unit (hp ▸ hu.arrivals)
      rw [hsum]
      exact (Accounting.actsOk_receive s hcoh hrun (hok hready) sendFails).settles.solvent
    · have hu := takesUnit_exit (σ.streams i).proc σ.maps
      refine (hB i).extend hc ?_ hu.unit (hp ▸ hu.arrivals)
      rw [hsum]
      exact (Accounting.settles_exit hcoh.exitable).1.solvent

lemma booked_run (hids : Function.Injective ids)
    (hbase : ∀ k, 0 ≤ requestAccounting.watchedValue base k) (preble : Routing.Router)
    {es : List (Event ι)} (hnamed : Along (System.step s) (System.Named ids) (.start base preble) es)
    (hone : ∀ i, es.countP (Event.isBodyOf i) ≤ 1) :
    requestAccounting.Inv ids base ((System.start base preble).run s es) ∧
      ∀ i, (((System.start base preble).run s es).streams i).Booked := by
  have hfirst := along_firstBody (s := s) hone fun i => .inl (untouched_start base preble i)
  refine (hnamed.and hfirst).invariant (I := fun σ => requestAccounting.Inv ids base σ ∧
    ∀ i, (σ.streams i).Booked) ⟨Accounting.Inv.start ids base preble, fun i => ?_⟩ ?_
  · exact ⟨rfl, by simp [Stream.calls, System.start, requestMoves], solvent_nil.mpr fun _ => le_rfl⟩
  · intro σ e hI he
    have hok : requestAccounting.EventOk s ids σ e :=
      Accounting.eventOk_of_firstBody (fun _ => trivial) he.1 he.2
    exact ⟨hI.1.step hids hbase hok, booked_step hI.1 hI.2 hok he.2⟩

/-- **The request count over whole runs.**  Streams with different
request IDs run at the same time, each with at most one request body. A stream makes the calls that
it owes in their order, and all of them once it has ended: one unit is added to the target pod of a
routed request and taken off again. The count of a pod is what it was at the start and the number of
streams that have added their unit there and not taken it off. -/
theorem inflightRequests_run (s : Server) (ids : ι → String) (hids : Function.Injective ids)
    (base : Counters) (preble : Routing.Router)
    (hbase : ∀ podIP, 0 ≤ base.value .requests podIP) (es : List (Event ι))
    (hnamed : Along (System.step s) (System.Named ids) (.start base preble) es)
    (hone : ∀ i, es.countP (Event.isBodyOf i) ≤ 1) :
    let σ := (System.start base preble).run s es
    (∀ i, requestMoves (σ.streams i).performed <+: (σ.streams i).proc.requestMoves) ∧
    (∀ i, (σ.streams i).Ended →
      requestMoves (σ.streams i).performed = (σ.streams i).proc.requestMoves) ∧
    ∀ podIP, σ.counters.value .requests podIP = base.value .requests podIP +
      (Finset.univ.filter fun i => requestMoves (σ.streams i).performed = [(podIP, 1)]).card := by
  intro σ
  have hwatched : ∀ (c : Counters) podIP, requestAccounting.watchedValue c (.requests, podIP) =
      c.value .requests podIP := fun _ _ => rfl
  have hbase' : ∀ k, 0 ≤ requestAccounting.watchedValue base k := by
    rintro ⟨counter, podIP⟩
    cases counter with
    | requests => exact hbase podIP
    | _ => exact le_rfl
  obtain ⟨hI, hB⟩ := booked_run hids hbase' preble hnamed hone
  have hmoves : ∀ i, requestMoves (σ.streams i).performed <+: (σ.streams i).proc.requestMoves := by
    intro i
    refine List.IsPrefix.trans ?_ (hB i).moves_owed
    exact (prefix_append _ _).filterMap _
  refine ⟨hmoves, fun i hended => ?_, fun podIP => ?_⟩
  · -- nothing is held at the end, so the unit has been given back
    have hcalls : (σ.streams i).calls = (σ.streams i).performed := by
      rw [Stream.calls, hended.2, append_nil]
    have hzero : ∀ podIP, sumOf entry (requestMoves (σ.streams i).performed) podIP = 0 := by
      intro podIP
      rw [← sumOf_requestMoves]
      have hs := hI.settles i
      rw [hended.2, hI.ended i hended.1] at hs
      exact congrFun hs.eq_of_nil (.requests, podIP)
    have harr := (hB i).arrivals
    rw [hcalls] at harr
    have hpre := hmoves i
    unfold Proc.requestMoves at hpre ⊢
    cases htarget : (σ.streams i).proc.target with
    | none =>
      rw [htarget] at hpre
      exact prefix_nil.mp hpre
    | some podIP =>
      rw [htarget] at hpre harr
      rcases prefix_cons_iff.mp hpre with hnil | ⟨l, hl, hpre'⟩
      · simp [hnil] at harr
      · rcases prefix_cons_iff.mp hpre' with rfl | ⟨l', rfl, hpre''⟩
        · have := hzero podIP
          simp [hl, entry] at this
        · rw [hl, prefix_nil.mp hpre'']
          rfl
  · rw [← hwatched, hI.ledger (.requests, podIP)]
    congr 1
    rw [← Finset.sum_boole]
    refine Finset.sum_congr rfl fun i _ => ?_
    exact (sumOf_requestMoves _ podIP).trans (sumOf_entry_of_pair (hmoves i) podIP)

/-- Two requests on one pod: the first has come to the end of its stream, the second is
still in flight. -/
theorem inflightRequests_run_two :
    let es : List (Event Bool) := [Small.headers true "r" (Small.strategy "random"),
      Small.headers false "q" (Small.strategy "random"), Small.request true Small.chat,
      Small.request false Small.chat] ++ Small.performs true 4 ++ Small.performs false 4 ++
      [Small.response true Small.completion true] ++ Small.performs true 6 ++ [.stop true]
    let σ := (System.start Small.counters (.new 0 2)).run Small.server es
    (σ.streams true).Ended ∧
      requestMoves (σ.streams true).performed = [("10.0.0.1", 1), ("10.0.0.1", -1)] ∧
      σ.counters.value .requests "10.0.0.1" = 1 := by
  intro es σ
  obtain ⟨-, hended, hcount⟩ := inflightRequests_run Small.server (fun b => if b then "r" else "q")
    (by decide) Small.counters (.new 0 2) (fun _ => le_rfl) es (by decide +kernel)
    (by decide +kernel)
  have h : (σ.streams true).Ended := by
    unfold Stream.Ended
    decide +kernel
  refine ⟨h, (hended true h).trans (by decide +kernel), (hcount "10.0.0.1").trans ?_⟩
  decide +kernel

end
end Lodestar.Gateway
