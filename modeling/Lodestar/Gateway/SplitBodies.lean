import Lodestar.Gateway.Exchange
import Lodestar.Gateway.Responses

/-!
# A response body in several messages

A response that is not streamed is kept in a buffer of the server until its last message,
and decoded there for the timing record, the log and the charge.  It is then decoded a
second time for the reply, from a buffer of the package that only the last message has
reached: the messages before it are answered as soon as they are in the first buffer.

* `untimed` : replies, calls and frames without the times that the clock gives them; the
  later parts of `HandleResponseBody` do not see the difference.
-/

namespace Lodestar.Gateway

open Indexer (Time)
open Accounting (Linked)

/-! ### Without times -/

/-- The log message without the times that are taken while the response is handled. -/
def LogMessage.untimed (m : LogMessage) : LogMessage :=
  { m with requestEndTime := 0, ttft := 0, avgTpot := 0, totalDecodeTime := 0, e2e := 0 }

def HeaderValue.untimed (h : HeaderValue) : HeaderValue :=
  if h.key ∈ ["x-timing-ttft-ms", "x-timing-tpot-ms", "x-timing-e2e-ms"] then
    { h with rawValue := "" }
  else h

def ProcessingResponse.untimed : ProcessingResponse → ProcessingResponse
  | .responseBody setHeaders => .responseBody (setHeaders.map HeaderValue.untimed)
  | resp => resp

def Op.untimed : Op → Op
  | .addRequestLogMessage requestID m => .addRequestLogMessage requestID m.untimed
  | op => op

def Frame.untimed (f : Frame) : Frame :=
  { f with headers := f.headers.map HeaderValue.untimed, ops := f.ops.map Op.untimed }

def Flow.untimed : Flow → Flow
  | .next f => .next f.untimed
  | .reply f resp => .reply f.untimed resp.untimed
  | .blocked f => .blocked f.untimed

@[simp] lemma HeaderValue.untimed_untimed (h : HeaderValue) : h.untimed.untimed = h.untimed := by
  unfold HeaderValue.untimed
  split <;> rfl

@[simp] lemma Op.untimed_untimed (op : Op) : op.untimed.untimed = op.untimed := by
  cases op <;> rfl

@[simp] lemma Frame.untimed_untimed (f : Frame) : f.untimed.untimed = f.untimed := by
  simp [Frame.untimed]

def Blind (k : Frame → Flow) : Prop := ∀ f, (k f).untimed = (k f.untimed).untimed

lemma Blind.congr {k : Frame → Flow} (hk : Blind k) {f f' : Frame} (h : f.untimed = f'.untimed) :
    (k f).untimed = (k f').untimed := by
  rw [hk f, h, ← hk f']

lemma Blind.andThen {k : Frame → Flow} (hk : Blind k) {F F' : Flow} (hF : F.untimed = F'.untimed) :
    (F.andThen k).untimed = (F'.andThen k).untimed := by
  cases F <;> cases F' <;>
    simp only [Flow.untimed, Flow.next.injEq, Flow.reply.injEq, reduceCtorEq] at hF <;>
    simp only [Flow.andThen]
  · exact hk.congr hF
  · simp [Flow.untimed, hF.1, hF.2]
  · simp [Flow.untimed, hF]

lemma Blind.comp {k k' : Frame → Flow} (hk : Blind k) (hk' : Blind k') :
    Blind fun f => (k f).andThen k' :=
  fun f => hk'.andThen (hk f)

namespace ResponseCall

variable (c : ResponseCall)

lemma blind_charge (answer : Except String ℤ) (n : ℤ) : Blind (c.charge answer n) := by
  intro f
  unfold charge
  split
  · simp [Flow.untimed]
  · cases answer <;> simp [Flow.untimed, Frame.untimed]

lemma blind_report : Blind c.report := by
  intro f
  unfold report
  split
  · rename_i hle
    rw [if_pos (show f.untimed.usage.totalTokens ≤ 0 from hle)]
    simp [Flow.untimed]
  · rename_i hle
    rw [if_neg (show ¬ f.untimed.usage.totalTokens ≤ 0 from hle)]
    refine Blind.andThen (fun f => ?_) (c.blind_charge _ _ _)
    split <;> simp [Flow.untimed, Frame.untimed]

lemma blind_decodeBufferedAgain : Blind c.decodeBufferedAgain := by
  intro f
  have hentries : f.untimed.entries = f.entries := rfl
  unfold decodeBufferedAgain
  simp only [hentries]
  split
  · simp [Flow.untimed, Frame.untimed]
  · cases c.server.completion (f.entries.packageBuffer.getD "" ++ c.msg.body) with
    | error err => simp [Flow.untimed, Frame.untimed]
    | ok res =>
      dsimp only
      split <;> simp [Flow.untimed, Frame.untimed]

lemma blind_close : Blind c.close := by
  intro f
  unfold close
  split
  · rename_i hzero
    rw [if_pos (show f.untimed.usage.totalTokens = 0 from hzero)]
    split <;> simp [Flow.untimed, Frame.untimed, ProcessingResponse.untimed]
  · rename_i hzero
    rw [if_neg (show ¬ f.untimed.usage.totalTokens = 0 from hzero)]
    refine Blind.andThen (fun f => ?_) (c.blind_charge _ _ _)
    split <;> simp [Flow.untimed, Frame.untimed, ProcessingResponse.untimed]

end ResponseCall

/-! ### What is seen of a response -/

def Op.traced? : Op → Option (ℤ × ℤ)
  | .doneRequestTrace _ _ _ promptTokens completionTokens _ => some (promptTokens, completionTokens)
  | _ => none

def Op.billed? : Op → Option ℤ
  | .incrTPM _ n => some n
  | _ => none

def Op.logged? : Op → Option LogMessage
  | .addRequestLogMessage _ m => some m
  | _ => none

def Outcome.value? {α : Type} : Outcome α → Option α
  | .returned a => some a
  | _ => none

/-- What is seen of a response: the reply to its last message, the usage that is reported to
the traces and to the rate limiter, and the log, without times. -/
structure Report where
  reply : Option ProcessingResponse
  traced : List (ℤ × ℤ)
  billed : List ℤ
  logged : List LogMessage
  deriving DecidableEq

/-- What is seen of a stream with the given replies and calls. -/
def Report.of (replies : List (Outcome ProcessingResponse)) (ops : List Op) : Report where
  reply := (replies.getLast?.bind Outcome.value?).map ProcessingResponse.untimed
  traced := ops.filterMap Op.traced?
  billed := ops.filterMap Op.billed?
  logged := (ops.filterMap Op.logged?).map LogMessage.untimed

/-- What is seen of the end of a response that completes its request. -/
def Flow.seen : Flow → Option Report
  | .reply f resp => some
      { reply := some resp.untimed
        traced := [(f.promptTokens, f.completionTokens)]
        billed := f.ops.filterMap Op.billed?
        logged := (f.ops.filterMap Op.logged?).map LogMessage.untimed }
  | _ => none

lemma Report.of_append_eq_iff {answers answers' replies replies' : List (Outcome ProcessingResponse)}
    (h : replies ≠ []) (h' : replies' ≠ []) (ops₀ ops ops' : List Op) :
    Report.of (answers ++ replies) (ops₀ ++ ops) = Report.of (answers' ++ replies') (ops₀ ++ ops') ↔
      Report.of replies ops = Report.of replies' ops' := by
  have hlast : (answers ++ replies).getLast? = replies.getLast? := by
    rw [List.getLast?_append, Option.or_of_isSome (by simp [h])]
  have hlast' : (answers' ++ replies').getLast? = replies'.getLast? := by
    rw [List.getLast?_append, Option.or_of_isSome (by simp [h'])]
  simp [Report.of, hlast, hlast']

lemma billed_untimed (ops : List Op) :
    (ops.map Op.untimed).filterMap Op.billed? = ops.filterMap Op.billed? := by
  rw [List.filterMap_map]
  refine congrArg (List.filterMap · ops) (funext fun op => ?_)
  cases op <;> rfl

lemma logged_untimed (ops : List Op) : ((ops.map Op.untimed).filterMap Op.logged?).map
    LogMessage.untimed = (ops.filterMap Op.logged?).map LogMessage.untimed := by
  rw [List.filterMap_map, List.map_filterMap, List.map_filterMap]
  refine congrArg (List.filterMap · ops) (funext fun op => ?_)
  cases op <;> rfl

lemma ProcessingResponse.untimed_untimed (resp : ProcessingResponse) :
    resp.untimed.untimed = resp.untimed := by
  cases resp <;> simp [ProcessingResponse.untimed]

lemma Flow.seen_untimed (F : Flow) : F.untimed.seen = F.seen := by
  cases F with
  | next | blocked => rfl
  | reply f resp =>
    simp only [Flow.untimed, Flow.seen, Frame.untimed, billed_untimed, logged_untimed,
      ProcessingResponse.untimed_untimed]

lemma Flow.seen_congr {F F' : Flow} (h : F.untimed = F'.untimed) : F.seen = F'.seen := by
  rw [← F.seen_untimed, h, F'.seen_untimed]

/-! ### The messages of a body -/

/-- The text is put behind what the buffer of the server has. -/
def Entries.keep (e : Entries) (text : String) : Entries :=
  { e with requestBuffer := some (e.requestBuffer.getD "" ++ text) }

namespace Proc

variable {s : Server} {p : Proc} {maps : Maps} {ctx : RoutingContext}

lemma exit_unseen (p : Proc) (maps : Maps) : (p.exit maps).2.filterMap Op.traced? = [] ∧
    (p.exit maps).2.filterMap Op.billed? = [] ∧ (p.exit maps).2.filterMap Op.logged? = [] := by
  have hop : ∀ op ∈ (p.exit maps).2, op.traced? = none ∧ op.billed? = none ∧ op.logged? = none := by
    intro op ho
    rcases mem_exit p maps op ho with hop | ⟨-, -, -, hop, -⟩ <;> cases op <;>
      first | exact ⟨rfl, rfl, rfl⟩ | exact hop.elim
  refine ⟨List.filterMap_eq_nil_iff.mpr ?_, List.filterMap_eq_nil_iff.mpr ?_,
    List.filterMap_eq_nil_iff.mpr ?_⟩
  · exact fun op ho => (hop op ho).1
  · exact fun op ho => (hop op ho).2.1
  · exact fun op ho => (hop op ho).2.2

lemma Waits.report_last (h : p.Waits ctx) (hc : p.completed = false)
    (hl : Linked ctx (maps ctx.requestID)) (msg : ResponseBody) (hend : msg.endOfStream = true)
    (env : ResponseEnv) :
    ((p.responseCall s ctx msg env).body { entries := maps ctx.requestID, complete := false }).seen =
      some (.of (p.replies s maps [.responseBody msg env]) (p.calls s maps [.responseBody msg env])) := by
  let c := p.responseCall s ctx msg env
  obtain ⟨pod, hpod⟩ := h.routed
  obtain ⟨⟨resp, completed⟩, hret⟩ := ResponseCall.handle_returned_of_target (c := c) hpod hl false
  obtain ⟨g, hbody, hcomplete⟩ := ResponseCall.handle_returned hret
  obtain rfl : completed = true := ResponseCall.completed_of_endOfStream hret hend
  have hhandle : c.handle p.completed (maps ctx.requestID) = ⟨g.entries, g.ops ++
      [.doneRequestTrace ctx.targetPod ctx.requestID p.model g.promptTokens g.completionTokens
        p.traceTerm], .returned (resp, true)⟩ := by
    unfold ResponseCall.handle
    rw [hc, hbody]
    simp only [hcomplete, and_self, if_true]
    rfl
  obtain ⟨q, hmsg, hq, -, -⟩ := h.onMessage hhandle
  have hcalls := (Reaches.cons hmsg hq.status (.nil q _)).calls []
  have hreplies : p.replies s maps [.responseBody msg env] = [.returned resp] := by
    rw [Proc.replies, receive_of_returned hmsg, hmsg]
    simp only [hq.status, if_true]
    rfl
  -- the parts of the handler report to the rate limiter and the log only
  have htraced : g.ops.filterMap Op.traced? = [] := by
    obtain ⟨ops, ho, hofResponse⟩ := c.adds_body { entries := maps ctx.requestID, complete := false }
    have hops : g.ops = ops := by simpa [hbody, Flow.frame] using ho
    rw [hops]
    refine List.filterMap_eq_nil_iff.mpr fun op hop => ?_
    have := hofResponse op hop
    cases op <;> first | rfl | exact this.elim
  obtain ⟨hexit₁, hexit₂, hexit₃⟩ := exit_unseen q (Function.update maps ctx.requestID g.entries)
  rw [List.append_nil] at hcalls
  rw [show c.body _ = _ from hbody, hreplies, hcalls]
  simp only [Flow.seen, Report.of, Proc.calls, List.filterMap_append, htraced, hexit₁, hexit₂, hexit₃,
    List.append_nil, List.nil_append]
  simp only [List.filterMap_cons, Op.traced?, Op.billed?, Op.logged?, List.filterMap_nil,
    List.append_nil]
  rfl

section

variable (h : p.Waits ctx) (hs : p.stream = false) (hc : p.completed = false)
  {timing : RequestTiming} (ht : (maps ctx.requestID).timing = some timing)
include h hs hc ht

lemma Waits.onPart (body : String)
    (env : ResponseEnv) : p.onMessage s maps (.responseBody ⟨body, false⟩ env) =
      ⟨p, Function.update maps ctx.requestID ((maps ctx.requestID).keep body), [],
        .returned (.responseBody [])⟩ := by
  have hhandle : (p.responseCall s ctx ⟨body, false⟩ env).handle p.completed (maps ctx.requestID) =
      ⟨(maps ctx.requestID).keep body, [], .returned (.responseBody [], false)⟩ := by
    simp [ResponseCall.handle, ResponseCall.body, ResponseCall.decode, ht, responseCall, hs,
      ResponseCall.decodeBuffered, Flow.andThen, hc, Entries.keep]
  have hsame : { p with completed := false } = p := by rw [← hc]
  have hafter (maps' : Maps) : p.afterResponse maps' (.responseBody []) false =
      (p, .returned (.responseBody [])) := by
    simp [afterResponse, hsame]
  simp only [Proc.onMessage, onResponseBody, h.isRespError, h.ctx_eq, hhandle, hafter]
  rfl

lemma Waits.reaches_parts (chunks : List (String × ResponseEnv)) : ∃ maps' buffer,
      Reaches s p maps (chunks.map fun chunk => .responseBody ⟨chunk.1, false⟩ chunk.2) [] p maps' ∧
      maps' ctx.requestID = { maps ctx.requestID with requestBuffer := buffer } ∧
      buffer.getD "" =
        (maps ctx.requestID).requestBuffer.getD "" ++ String.join (chunks.map Prod.fst) := by
  induction chunks generalizing maps with
  | nil => exact ⟨maps, (maps ctx.requestID).requestBuffer, .nil p maps, rfl, by simp⟩
  | cons chunk chunks ih =>
    let next := Function.update maps ctx.requestID ((maps ctx.requestID).keep chunk.1)
    have hnext : next ctx.requestID = (maps ctx.requestID).keep chunk.1 := Function.update_self _ _ _
    have ht' : (next ctx.requestID).timing = some timing := by
      rw [hnext]
      exact ht
    obtain ⟨maps', buffer, hreach, hmaps', hbuffer⟩ := ih ht'
    rw [hnext] at hmaps' hbuffer
    refine ⟨maps', buffer, .cons (h.onPart hs hc ht chunk.1 chunk.2) h.status hreach, hmaps', ?_⟩
    rw [hbuffer, List.map_cons, String.join_cons, ← String.append_assoc]
    rfl

end
end Proc

/-! ### The two decodings of the last message -/

/-- The two usages are reported alike: both have no tokens, or they agree but for the total,
which only a user with a name is charged with. -/
def CompletionUsage.ReportedAs (named : Prop) (u v : CompletionUsage) : Prop :=
  u.totalTokens = 0 ∧ v.totalTokens = 0 ∨
    u.totalTokens ≠ 0 ∧ v.totalTokens ≠ 0 ∧ u.promptTokens = v.promptTokens ∧
      u.completionTokens = v.completionTokens ∧ (named → u.totalTokens = v.totalTokens)

lemma CompletionUsage.ReportedAs.refl (named : Prop) (u : CompletionUsage) :
    u.ReportedAs named u := by
  by_cases hzero : u.totalTokens = 0
  · exact .inl ⟨hzero, hzero⟩
  · exact .inr ⟨hzero, hzero, rfl, rfl, fun _ => rfl⟩

namespace ResponseCall

variable (c : ResponseCall) {pod : Pod}

def told (text : String) (now finished : Time) : ResponseCall :=
  { c with
    msg := { c.msg with body := text }
    env := { c.env with now := now, finished := finished } }

lemma told_close (text : String) (now finished : Time) :
    (c.told text now finished).close = c.close := rfl

/-- The reply of the last part to a completion with tokens. -/
def closing (pod : Pod) (headers : List HeaderValue) : ProcessingResponse :=
  let target : List HeaderValue := [⟨"target-pod", "", pod.podIP ++ ":8000"⟩,
    ⟨"request-id", "", c.ctx.requestID⟩, ⟨"target-pod-name", "", pod.name⟩]
  if c.user.name = "" then .responseBody (headers ++ target)
  else
    match c.env.incrTPMAgain with
    | .error err => generateErrorResponse 500 (errorHeader "x-error-incr-tpm" "true") err
    | .ok tpm => .responseBody (headers ++ c.limitHeaders tpm ++ target)

lemma seen_close (hp : c.ctx.targetPod = some pod) (f : Frame) : (c.close f).seen = some
    (if f.usage.totalTokens = 0 then
      { reply := some (.responseBody (f.headers.map HeaderValue.untimed))
        traced := [(f.promptTokens, f.completionTokens)]
        billed := f.ops.filterMap Op.billed?
        logged := (f.ops.filterMap Op.logged?).map LogMessage.untimed }
    else
      { reply := some (c.closing pod f.headers).untimed
        traced := [(f.usage.promptTokens, f.usage.completionTokens)]
        billed := f.ops.filterMap Op.billed? ++
          if c.user.name = "" then [] else [f.res.usage.totalTokens]
        logged := (f.ops.filterMap Op.logged?).map LogMessage.untimed }) := by
  have haddr := RoutingContext.targetAddress_eq hp
  have hname := RoutingContext.targetName_eq hp
  unfold close
  by_cases hzero : f.usage.totalTokens = 0
  · simp only [hzero, if_true, Flow.seen, ProcessingResponse.untimed]
    split <;> rfl
  · simp only [hzero, if_false, charge, closing]
    by_cases hnamed : c.user.name = ""
    · simp [hnamed, Flow.andThen, haddr, hname, Flow.seen]
    · cases hanswer : c.env.incrTPMAgain with
      | error err => simp [hnamed, Flow.andThen, Flow.seen, Op.billed?, Op.logged?]
      | ok tpm => simp [hnamed, Flow.andThen, haddr, hname, Flow.seen, Op.billed?, Op.logged?]

lemma closing_ne (headers : List HeaderValue) (err content : String) :
    (c.closing pod headers).untimed ≠ .responseBody (headers.map HeaderValue.untimed) ∧
      (c.closing pod headers).untimed ≠ unmarshalFailed err ∧
      (c.closing pod headers).untimed ≠ unknownResponse content := by
  unfold closing unmarshalFailed unknownResponse
  split
  · simp [ProcessingResponse.untimed, generateErrorResponse]
  · split <;> simp [ProcessingResponse.untimed, generateErrorResponse, errorHeader]

variable {c} {f : Frame}

lemma rear_eq (hend : c.msg.endOfStream = true) (hpack : f.entries.packageBuffer.getD "" = "") :
    (c.decodeBufferedAgain f).andThen c.close = match c.server.completion c.msg.body with
      | .error err => .reply { f with
          entries := { f.entries with packageBuffer := none }, complete := true } (unmarshalFailed err)
      | .ok res =>
        if res.model = "" then .reply { f with
          entries := { f.entries with packageBuffer := none }, complete := true, res := res }
          (unknownResponse c.msg.body)
        else c.close { f with
          entries := { f.entries with packageBuffer := none }, res := res, usage := res.usage } := by
  unfold decodeBufferedAgain
  simp only [hend, hpack, String.empty_append]
  cases c.server.completion c.msg.body with
  | error err => rfl
  | ok res =>
    by_cases hmodel : res.model = "" <;> simp [hmodel, Flow.andThen]

/-- **The second decoding** of the last message ends like that of a whole completion exactly
if the message is a completion itself that is reported alike. -/
lemma seen_rear_iff (hp : c.ctx.targetPod = some pod) (hend : c.msg.endOfStream = true)
    (hpack : f.entries.packageBuffer.getD "" = "") {whole : String} {res : ChatCompletion}
    (hres : c.server.completion whole = .ok res) (hmodel : res.model ≠ "") (now finished : Time) :
    ((c.decodeBufferedAgain f).andThen c.close).seen =
        (((c.told whole now finished).decodeBufferedAgain f).andThen c.close).seen ↔
      ∃ res', c.server.completion c.msg.body = .ok res' ∧ res'.model ≠ "" ∧
        res.usage.ReportedAs (c.user.name ≠ "") res'.usage := by
  have hwhole : ((c.told whole now finished).decodeBufferedAgain f).andThen c.close =
      c.close { f with
        entries := { f.entries with packageBuffer := none }, res := res, usage := res.usage } := by
    have h := rear_eq (c := c.told whole now finished) hend hpack
    rw [show (c.told whole now finished).server.completion (c.told whole now finished).msg.body =
      .ok res from hres, told_close] at h
    simpa only [hmodel, if_false] using h
  rw [hwhole, c.seen_close hp, rear_eq hend hpack]
  cases hlast : c.server.completion c.msg.body with
  | error err =>
    simp only [Flow.seen, Option.some.injEq, reduceCtorEq, false_and, exists_false, iff_false]
    intro h
    have hreply := congrArg Report.reply h
    split at hreply
    · simp [unmarshalFailed, generateErrorResponse, ProcessingResponse.untimed] at hreply
    · exact (c.closing_ne f.headers err "").2.1 (Option.some.inj hreply).symm
  | ok res' =>
    by_cases hmodel' : res'.model = ""
    · simp only [hmodel', if_true, Flow.seen, Option.some.injEq, Except.ok.injEq]
      refine iff_of_false (fun h => ?_) ?_
      · have hreply := congrArg Report.reply h
        split at hreply
        · simp [unknownResponse, generateErrorResponse, ProcessingResponse.untimed] at hreply
        · exact (c.closing_ne f.headers "" _).2.2 (Option.some.inj hreply).symm
      · rintro ⟨res'', rfl, hne, -⟩
        exact hne hmodel'
    · simp only [hmodel', if_false, c.seen_close hp, Option.some.injEq, Except.ok.injEq]
      unfold CompletionUsage.ReportedAs
      have hne : (c.closing pod f.headers).untimed ≠ _ := (c.closing_ne f.headers "" "").1
      by_cases hzero : res.usage.totalTokens = 0 <;> by_cases hzero' : res'.usage.totalTokens = 0
      · simp [hzero, hzero', hmodel']
      · simp [hzero, hzero', hne]
      · simp [hzero, hzero', hne.symm]
      · by_cases hnamed : c.user.name = ""
        · simp [hzero, hzero', hmodel', hnamed, eq_comm]
        · simp [hzero, hzero', hmodel', hnamed, eq_comm, and_assoc]

/-! ### The whole of `HandleResponseBody` -/

/-- The timing record at the end of a response that is not streamed. -/
def stamped (c : ResponseCall) (timing : RequestTiming) : RequestTiming :=
  { timing with firstTokenTime := timing.firstTokenTime.or (some c.env.now) }

/-- The variables once such a response is decoded and logged. -/
def settled (c : ResponseCall) (pod : Pod) (timing : RequestTiming) (res : ChatCompletion)
    (f : Frame) : Frame :=
  let tm := calculateTimingMetrics c.env (c.stamped timing) c.ctx pod.podIP false res.usage
  { f with
    headers := f.headers ++ tm.1
    ops := f.ops ++ tm.2.2 ++ [.addRequestLogMessage c.ctx.requestID tm.2.1,
      .decrementMooncakeVirtualQueue c.ctx.requestID]
    res := res
    usage := res.usage
    entries := { packageBuffer := f.entries.packageBuffer } }

variable {timing : RequestTiming} {res : ChatCompletion}

lemma settle_eq (hs : c.stream = false) (hend : c.msg.endOfStream = true)
    (hp : c.ctx.targetPod = some pod) (ht : f.entries.timing = some timing)
    (hres : c.server.completion (f.entries.requestBuffer.getD "" ++ c.msg.body) = .ok res)
    (hmodel : res.model ≠ "") :
    (c.decode f).andThen c.finish = .next (c.settled pod timing res f) := by
  have haddr := RoutingContext.targetAddressWithoutPort_eq hp
  simp [decode, ht, hs, decodeBuffered, hend, hres, hmodel, Flow.andThen, finish, haddr, settled, stamped]

lemma body_of_settle (hs : c.stream = false) {g : Frame}
    (h : (c.decode f).andThen c.finish = .next g) :
    c.body f = ((c.report g).andThen c.decodeBufferedAgain).andThen c.close := by
  have hagain : c.decodeAgain = c.decodeBufferedAgain := by
    funext f
    rw [decodeAgain, hs]
    rfl
  rw [body, h, hagain]
  rfl

lemma seen_unknown (hs : c.stream = false) (hend : c.msg.endOfStream = true)
    (ht : f.entries.timing = some timing)
    (hres : c.server.completion (f.entries.requestBuffer.getD "" ++ c.msg.body) = .ok res)
    (hmodel : res.model = "") : (c.body f).seen = some
      { reply := some (unknownResponse (f.entries.requestBuffer.getD "" ++ c.msg.body))
        traced := [(f.promptTokens, f.completionTokens)]
        billed := f.ops.filterMap Op.billed?
        logged := (f.ops.filterMap Op.logged?).map LogMessage.untimed } := by
  simp only [body, decode, ht, hs, decodeBuffered, hend, hres, hmodel]
  rfl

lemma settled_untimed {whole : String} {now finished : Time} {e e' : Entries}
    (he : e'.packageBuffer = e.packageBuffer) :
    ((c.told whole now finished).settled pod timing res ⟨e', [], {}, {}, 0, 0, [], false⟩).untimed =
      (c.settled pod timing res ⟨e, [], {}, {}, 0, 0, [], false⟩).untimed := by
  simp [settled, Frame.untimed, calculateTimingMetrics, stamped, told, HeaderValue.untimed, he]
  rfl

/-- The end of a response in several messages shows what the whole response in one message
would show. -/
def EndsAlike (c : ResponseCall) (res : ChatCompletion) : Prop :=
  res.model = "" ∨ c.Refused res.usage ∨ ∃ res', c.server.completion c.msg.body = .ok res' ∧
    res'.model ≠ "" ∧ res.usage.ReportedAs (c.user.name ≠ "") res'.usage

lemma seen_body_iff (hs : c.stream = false) (hend : c.msg.endOfStream = true)
    (hp : c.ctx.targetPod = some pod) {e : Entries} {timing : RequestTiming}
    (ht : e.timing = some timing) (hbuffer : e.requestBuffer.getD "" = "")
    (hpack : e.packageBuffer.getD "" = "") {buffer : Option String} {whole : String}
    (hwhole : buffer.getD "" ++ c.msg.body = whole) {res : ChatCompletion}
    (hres : c.server.completion whole = .ok res) (now finished : Time) :
    (c.body { entries := { e with requestBuffer := buffer }, complete := false }).seen =
        ((c.told whole now finished).body { entries := e, complete := false }).seen ↔
      c.EndsAlike res := by
  let f : Frame := { entries := { e with requestBuffer := buffer }, complete := false }
  let f' : Frame := { entries := e, complete := false }
  let c' := c.told whole now finished
  have htext : f.entries.requestBuffer.getD "" ++ c.msg.body = whole := hwhole
  have htext' : f'.entries.requestBuffer.getD "" ++ c'.msg.body = whole := by
    rw [show f'.entries.requestBuffer.getD "" = "" from hbuffer]
    rfl
  have hdec : c.server.completion (f.entries.requestBuffer.getD "" ++ c.msg.body) = .ok res := by
    rw [htext, hres]
  have hdec' : c'.server.completion (f'.entries.requestBuffer.getD "" ++ c'.msg.body) = .ok res := by
    rw [htext']
    exact hres
  by_cases hmodel : res.model = ""
  · -- both replies have the whole text
    refine iff_of_true ?_ (.inl hmodel)
    rw [show (c.body f).seen = _ from seen_unknown hs hend ht hdec hmodel,
      show (c'.body f').seen = _ from seen_unknown hs hend ht hdec' hmodel, htext, htext']
  · -- both are settled alike, so only the two last parts can differ
    let g := c.settled pod timing res f
    let g' := c'.settled pod timing res f'
    have hg : g'.untimed = g.untimed := settled_untimed rfl
    have hbody : c.body f = ((c.report g).andThen c.decodeBufferedAgain).andThen c.close :=
      body_of_settle hs (settle_eq hs hend hp ht hdec hmodel)
    have hbody' : c'.body f' = ((c.report g').andThen c'.decodeBufferedAgain).andThen c.close :=
      body_of_settle (c := c') hs (settle_eq hs hend hp ht hdec' hmodel)
    have hreport : (c.report g').untimed = (c.report g).untimed := c.blind_report.congr hg
    rw [show c.body _ = _ from hbody, show c'.body _ = _ from hbody']
    obtain ⟨hleads, hcharges⟩ := report_spec (c := c) g
    rcases hleads.goes (by simp [hp]) with ⟨k, hk, hnot, -⟩ | ⟨k, resp, hk, hrefused, -⟩
    rotate_left
    · refine iff_of_true ?_ (.inr (.inl hrefused))
      have hstop : ∀ F : Flow, F.untimed = (Flow.reply k resp).untimed →
          ((F.andThen c'.decodeBufferedAgain).andThen c.close).seen = (Flow.reply k resp).seen := by
        intro F hF
        cases F with
        | reply k' resp' => exact Flow.seen_congr hF
        | next | blocked => simp [Flow.untimed] at hF
      rw [hstop _ (hreport.trans (by rw [hk])), hk]
      rfl
    · obtain ⟨k', hk', hkk⟩ : ∃ k', c.report g' = .next k' ∧ k'.untimed = k.untimed := by
        rw [hk] at hreport
        cases hr : c.report g' with
        | next k' =>
          rw [hr] at hreport
          exact ⟨k', rfl, Flow.next.inj hreport⟩
        | reply | blocked => simp [hr, Flow.untimed] at hreport
      have hrear : ((c'.decodeBufferedAgain k').andThen c.close).seen =
          ((c'.decodeBufferedAgain k).andThen c.close).seen :=
        Flow.seen_congr ((c'.blind_decodeBufferedAgain.comp c.blind_close).congr hkk)
      have hpack' : k.entries.packageBuffer.getD "" = "" := by
        rw [hk] at hcharges
        rw [show k.entries = g.entries from hcharges.entries]
        exact hpack
      have hiff := seen_rear_iff hp hend hpack' hres hmodel now finished
      rw [hk, hk']
      show ((c.decodeBufferedAgain k).andThen c.close).seen =
        ((c'.decodeBufferedAgain k').andThen c.close).seen ↔ c.EndsAlike res
      rw [hrear]
      refine hiff.trans ⟨fun h => .inr (.inr h), fun h => ?_⟩
      exact (h.resolve_left hmodel).resolve_left hnot

end ResponseCall

/-! ### A whole exchange -/

open Proc

def Blank (text : String) : Prop := ∀ c ∈ text.toList, c ∈ [' ', '\t', '\n', '\r']

/-- A completion of a model is a JSON document: what is left of one without its beginning is
no completion, unless only white space is missing. -/
structure Server.Documents (s : Server) : Prop where
  blank : ∀ a b res res', s.completion (a ++ b) = .ok res → res.model ≠ "" →
    s.completion b = .ok res' → Blank a
  skip : ∀ a b res, Blank a → s.completion (a ++ b) = .ok res → s.completion b = .ok res

lemma Small.completion_ok {body : String} {res : ChatCompletion}
    (h : Small.server.completion body = .ok res) : body = Small.completion := by
  by_contra hne
  rw [show Small.server.completion body = .error "unexpected end of JSON input" from if_neg hne] at h
  cases h

lemma Small.documents : Small.server.Documents where
  blank a b res res' h _ h' := by
    have hb := Small.completion_ok h'
    have ha := congrArg String.length (Small.completion_ok h)
    rw [String.length_append, hb] at ha
    have hempty : a = "" := String.length_eq_zero_iff.mp (by omega)
    simp [Blank, hempty]
  skip a b res hblank h := by
    have hwhole := congrArg String.toList (Small.completion_ok h)
    have hempty : a.toList = [] := by
      cases ha : a.toList with
      | nil => rfl
      | cons c cs =>
        rw [String.toList_append, ha, List.cons_append] at hwhole
        have hhead := congrArg List.head? hwhole
        have hc := hblank c (by simp [ha])
        simp [Small.completion] at hhead
        simp [hhead] at hc
    rwa [String.toList_eq_nil_iff.mp hempty, String.empty_append] at h

namespace Exchange

variable (s : Server) (maps : Maps) (x : Exchange)

def text : String := String.join (bodies x.chunks x.last)

/-- The same exchange with the whole body in one message, which comes at another time. -/
def inOne (now finished : Time) : Exchange :=
  { x with
    chunks := []
    last := (x.text, { x.last.2 with now := now, finished := finished }) }

def report : Report :=
  .of (Proc.replies s {} maps (x.opening ++ responseMessages x.chunks x.last))
    (Proc.calls s {} maps (x.opening ++ responseMessages x.chunks x.last))

/-- The rate limiter refuses to charge the user with the tokens of the completion. -/
def Refused (res : ChatCompletion) : Prop :=
  (x.proc s maps).user.name ≠ "" ∧ 0 < res.usage.totalTokens ∧ ∃ err, x.last.2.incrTPM = .error err

/-- The last message is a completion of a model itself, and is reported alike. -/
def LastStands (res : ChatCompletion) : Prop :=
  ∃ res', s.completion x.last.1 = .ok res' ∧ res'.model ≠ "" ∧
    res.usage.ReportedAs ((x.proc s maps).user.name ≠ "") res'.usage

variable {s maps x}

lemma text_eq : String.join (x.chunks.map Prod.fst) ++ x.last.1 = x.text := by
  simp [text, bodies]

lemma report_eq {ops : List Op} {q : Proc} {maps' : Maps} {msgs : List Message}
    (hreach : Reaches s {} maps msgs ops q maps') (msg : ResponseBody) (env : ResponseEnv) :
    ∃ answers, Report.of (Proc.replies s {} maps (msgs ++ [.responseBody msg env]))
        (Proc.calls s {} maps (msgs ++ [.responseBody msg env])) =
      .of (answers ++ q.replies s maps' [.responseBody msg env])
        (ops ++ q.calls s maps' [.responseBody msg env]) := by
  obtain ⟨answers, hreplies⟩ := hreach.replies
  exact ⟨answers, by rw [hreplies, hreach.calls]⟩

section

variable (h : x.Served s maps) (hs : (x.proc s maps).stream = false) {res : ChatCompletion}
  (hres : s.completion x.text = .ok res) (now finished : Time)
include h hs hres

lemma report_eq_inOne_iff :
    x.report s maps = (x.inOne now finished).report s maps ↔
      res.model = "" ∨ x.Refused s maps res ∨ x.LastStands s maps res := by
  obtain ⟨ctx, q, maps', ops, hreach, hwaits, hc, harr, ⟨timing, ht, -⟩, ⟨huser, hstream⟩, -⟩ :=
    h.reaches
  have hs' : q.stream = false := hstream.trans hs
  obtain ⟨maps'', buffer, hparts, hmaps'', hbuffer⟩ :=
    hwaits.reaches_parts hs' hc ht x.chunks
  have hlinked : Linked ctx (maps' ctx.requestID) := fun _ => ⟨ctx, harr.routingContext, rfl⟩
  have hlinked' : Linked ctx (maps'' ctx.requestID) := by
    rw [hmaps'']
    exact hlinked
  have hall := hreach.trans hparts
  rw [List.append_nil] at hall
  obtain ⟨pod, hpod⟩ := hwaits.routed
  -- the last message of the one and of the other
  let env : ResponseEnv := { x.last.2 with now := now, finished := finished }
  let c := q.responseCall s ctx ⟨x.last.1, true⟩ x.last.2
  have hlast : (c.body { entries := maps'' ctx.requestID, complete := false }).seen = _ :=
    hwaits.report_last hc hlinked' ⟨x.last.1, true⟩ rfl x.last.2
  have hone : ((c.told x.text now finished).body
      { entries := maps' ctx.requestID, complete := false }).seen = _ :=
    hwaits.report_last hc hlinked ⟨x.text, true⟩ rfl env
  have hwhole : buffer.getD "" ++ c.msg.body = x.text := by
    rw [hbuffer, harr.fresh.2.1, Option.getD_none]
    exact text_eq
  have hiff := ResponseCall.seen_body_iff hs' rfl hpod ht
    (by rw [harr.fresh.2.1]; rfl) (by rw [harr.fresh.2.2]; rfl) hwhole hres now finished
  rw [hmaps''] at hlast
  rw [hlast, hone, Option.some.injEq] at hiff
  obtain ⟨answers, hreport⟩ := report_eq hall ⟨x.last.1, true⟩ x.last.2
  obtain ⟨answers', hreport'⟩ := report_eq hreach ⟨x.text, true⟩ env
  rw [show x.report s maps = _ from hreport,
    show (x.inOne now finished).report s maps = _ from hreport',
    Report.of_append_eq_iff (by simp [Proc.replies]) (by simp [Proc.replies])]
  refine .trans hiff ?_
  rw [ResponseCall.EndsAlike, Refused, LastStands, ← huser]
  rfl

/-- **A response in several messages** that is not streamed is answered, reported and logged
like the same response in one exactly if it has no model, or the first charge is refused, or
its last message is a completion itself.  For JSON documents the latter means that only white
space comes before the last message. -/
theorem report_eq_iff :
    (x.report s maps = (x.inOne now finished).report s maps ↔
      res.model = "" ∨ x.Refused s maps res ∨ x.LastStands s maps res) ∧
    (s.Documents → (x.report s maps = (x.inOne now finished).report s maps ↔
      res.model = "" ∨ x.Refused s maps res ∨ Blank (String.join (x.chunks.map Prod.fst)))) := by
  have hiff := report_eq_inOne_iff h hs hres now finished
  refine ⟨hiff, fun hdoc => hiff.trans ?_⟩
  by_cases hmodel : res.model = ""
  · simp [hmodel]
  · refine or_congr_right (or_congr_right ⟨?_, fun hblank => ?_⟩)
    · rintro ⟨res', hlast, -⟩
      rw [← text_eq] at hres
      exact hdoc.blank _ _ res res' hres hmodel hlast
    · rw [← text_eq] at hres
      exact ⟨res, hdoc.skip _ _ res hblank hres, hmodel, .refl _ res.usage⟩

end

open Gateway.Small in
/-- A completion behind an empty message is handled like the completion alone. -/
theorem report_eq_empty_first : (small chat [""] completion).report server (fun _ => {}) =
      ((small chat [""] completion).inOne 1 1).report server (fun _ => {}) := by
  have hres : server.completion (small chat [""] completion).text = .ok ⟨"m", ⟨2, 1, 3⟩⟩ := rfl
  refine ((report_eq_iff (small_served ?_) ?_ hres 1 1).2 documents).mpr (Or.inr (Or.inr ?_))
  · decide +kernel
  · decide +kernel
  · simp [Blank, small, String.join]

open Gateway.Small in
/-- A completion that is cut in two is answered with an error, and is charged once; in one
message it is answered with its headers, and is charged twice. -/
theorem report_cut :
    let x := small chat ["\x7b\"model\":\"m\","]
      "\"usage\":\x7b\"prompt_tokens\":2,\"completion_tokens\":1,\"total_tokens\":3\x7d\x7d"
    x.Served server (fun _ => {}) ∧ x.text = completion ∧ (x.report server (fun _ => {})).reply =
        some (ResponseCall.unmarshalFailed "unexpected end of JSON input") ∧
      (x.report server (fun _ => {})).billed = [3] ∧
      ((x.inOne 1 1).report server (fun _ => {})).reply = some (.responseBody
        [⟨"x-timing-ttft-ms", "", ""⟩, ⟨"x-timing-tpot-ms", "", ""⟩, ⟨"x-timing-e2e-ms", "", ""⟩,
          ⟨"x-update-rpm", "", "1"⟩, ⟨"x-update-tpm", "", "0"⟩,
          ⟨"target-pod", "", "10.0.0.1:8000"⟩, ⟨"request-id", "", "r"⟩,
          ⟨"x-update-rpm", "", "1"⟩, ⟨"x-update-tpm", "", "0"⟩,
          ⟨"target-pod", "", "10.0.0.1:8000"⟩, ⟨"request-id", "", "r"⟩,
          ⟨"target-pod-name", "", "p"⟩]) ∧
      ((x.inOne 1 1).report server (fun _ => {})).billed = [3, 3] := by
  refine ⟨small_served ?_, ?_, ?_, ?_, ?_, ?_⟩ <;> decide +kernel

end Exchange
end Lodestar.Gateway
