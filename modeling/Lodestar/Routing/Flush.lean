import Lodestar.Lib.Run

/-!
# The flush of log messages to the routing agent

The gateway records a log message for every completed request (`AddRequestLogMessage` of
`pkg/utils/kvcache.go`).  A goroutine sends them to the routing agent from time to time
(`FlushLogMessageToRLAgent` of `pkg/plugins/gateway/algorithms/rl_routing.go`): it counts the
messages, encodes them, posts them and deletes them all.  Each of these takes the lock for
itself, so completions fall in between.

A message that is recorded after the encoding is deleted without having been sent, and so are
all messages when the agent does not accept the request.  `nothingLost_run` says that nothing
else is lost.

The encoded body is the map itself.
-/

namespace Lodestar.Routing

open Lib

/-- `RequestToLogMessage`: the log messages by request. -/
abbrev LogMessages := AList (fun _ : String => String)

/-- How the posting of a flush request ends: it cannot be created, the client fails (the agent may
have got the request all the same), or the agent answers. -/
inductive PostResult where
  | createFailed
  | sendFailed (delivered : Bool)
  | response (statusCode : ℕ) (readable : Bool)
  deriving DecidableEq

namespace PostResult

def accepted : PostResult → Bool
  | .createFailed => false
  | .sendFailed delivered => delivered
  | .response statusCode _ => statusCode = 200

def successful : PostResult → Bool
  | .response statusCode readable => statusCode = 200 && readable
  | _ => false

end PostResult

inductive FlushPhase where
  | idle
  /-- There are enough messages to flush. -/
  | counted
  /-- The messages are encoded and are about to be posted. -/
  | marshalled (reqBody : LogMessages)
  /-- The messages are about to be deleted. -/
  | cleaning (successful : Bool)

/-- The messages, the goroutine and, for the statements only, the bodies that the agent accepted
and the messages that were recorded. -/
structure LogFlush where
  minNumLogMessagesToFlush : ℤ
  requestToLogMessage : LogMessages := ∅
  receivedTheFirstRequest : Bool := false
  phase : FlushPhase := .idle
  numFlush : ℕ := 0
  accepted : List LogMessages := []
  recorded : List (String × String) := []

namespace LogFlush

def addRequestLogMessage (s : LogFlush) (requestID logMessage : String) : LogFlush :=
  match s.requestToLogMessage.lookup requestID with
  | none => { s with
      requestToLogMessage := s.requestToLogMessage.insert requestID logMessage
      recorded := (requestID, logMessage) :: s.recorded }
  | some _ => s

def cleanupAllRequestLogMessage (s : LogFlush) : LogFlush := { s with requestToLogMessage := ∅ }

/-- A critical section: the router sees its first request, a request completes, and the steps of
the goroutine. -/
inductive Event where
  | firstRequest
  | complete (requestID logMessage : String)
  | tick
  | marshal (ok : Bool)
  | post (result : PostResult)
  | cleanup
  deriving DecidableEq

/-- The state after an event; the goroutine takes only the step that it is at. -/
def step (s : LogFlush) : Event → LogFlush
  | .firstRequest => { s with receivedTheFirstRequest := true }
  | .complete requestID logMessage => s.addRequestLogMessage requestID logMessage
  | .tick =>
    match s.phase with
    | .idle =>
      if !s.receivedTheFirstRequest then s
      else if s.minNumLogMessagesToFlush < s.requestToLogMessage.keys.length then
        { s with phase := .counted }
      else s
    | _ => s
  | .marshal ok =>
    match s.phase with
    | .counted =>
      if ok then { s with phase := .marshalled s.requestToLogMessage }
      else { s with phase := .cleaning false }
    | _ => s
  | .post result =>
    match s.phase with
    | .marshalled reqBody => { s with
        accepted := if result.accepted then reqBody :: s.accepted else s.accepted
        phase := .cleaning result.successful }
    | _ => s
  | .cleanup =>
    match s.phase with
    | .cleaning successful => { s.cleanupAllRequestLogMessage with
        phase := .idle
        numFlush := if successful then s.numFlush + 1 else s.numFlush }
    | _ => s

def run (s : LogFlush) (es : List Event) : LogFlush := es.foldl step s

/-- **Nothing is lost**: every recorded message is in a body that the agent accepted, or it is
still in the map. -/
def NothingLost (s : LogFlush) : Prop :=
  ∀ m ∈ s.recorded, s.requestToLogMessage.lookup m.1 = some m.2 ∨
    ∃ reqBody ∈ s.accepted, reqBody.lookup m.1 = some m.2

/-- The goroutine is between the encoding of the messages and their deletion. -/
def flushing (s : LogFlush) : Bool :=
  match s.phase with
  | .idle | .counted => false
  | .marshalled _ | .cleaning _ => true

/-- What has to hold before an event: no message is recorded between the encoding and the
deletion, the encoding does not fail, and the agent accepts the request. -/
def Undisturbed (s : LogFlush) : Event → Prop
  | .complete requestID _ =>
    s.flushing = true → (s.requestToLogMessage.lookup requestID).isSome = true
  | .marshal ok => ok = true
  | .post result => result.accepted = true
  | _ => True

instance (s : LogFlush) : DecidablePred s.Undisturbed := fun e => by
  cases e <;> unfold Undisturbed <;> infer_instance

/-- Nothing is lost, and what is in the map is in the body that is posted. -/
structure Safe (s : LogFlush) : Prop where
  nothingLost : s.NothingLost
  marshalled : ∀ reqBody, s.phase = .marshalled reqBody → reqBody = s.requestToLogMessage
  cleaning : ∀ successful, s.phase = .cleaning successful → s.requestToLogMessage ∈ s.accepted

variable {s : LogFlush}

lemma Safe.complete (h : Safe s) {requestID : String} (logMessage : String)
    (hu : s.Undisturbed (.complete requestID logMessage)) :
    Safe (s.addRequestLogMessage requestID logMessage) := by
  unfold addRequestLogMessage
  cases hlook : s.requestToLogMessage.lookup requestID with
  | some _ => exact h
  | none =>
    have hquiet : s.flushing = false := by
      by_contra hf
      have := hu (by simpa using hf)
      simp [hlook] at this
    refine ⟨fun m hm => ?_, fun reqBody hp => ?_, fun successful hp => ?_⟩
    · rcases List.mem_cons.mp hm with rfl | hm
      · exact .inl (AList.lookup_insert _)
      · refine (h.nothingLost m hm).imp (fun hold => ?_) id
        have hne : m.1 ≠ requestID := by
          rintro rfl
          simp [hlook] at hold
        rw [AList.lookup_insert_ne hne]
        exact hold
    · have hp : s.phase = .marshalled reqBody := hp
      simp [flushing, hp] at hquiet
    · have hp : s.phase = .cleaning successful := hp
      simp [flushing, hp] at hquiet

lemma Safe.step (h : Safe s) (e : Event) (hu : s.Undisturbed e) : Safe (s.step e) := by
  cases e with
  | firstRequest => exact ⟨h.nothingLost, h.marshalled, h.cleaning⟩
  | complete requestID logMessage => exact h.complete logMessage hu
  | tick =>
    cases hp : s.phase with
    | idle =>
      simp only [LogFlush.step, hp]
      split
      · exact h
      · split
        · exact ⟨h.nothingLost, by simp, by simp⟩
        · exact h
    | _ => simpa only [LogFlush.step, hp] using h
  | marshal ok =>
    cases hp : s.phase with
    | counted =>
      have hok : ok = true := hu
      simp only [LogFlush.step, hp, hok]
      exact ⟨h.nothingLost, by simp, by simp⟩
    | _ => simpa only [LogFlush.step, hp] using h
  | post result =>
    cases hp : s.phase with
    | marshalled reqBody =>
      have hacc : result.accepted = true := hu
      simp only [LogFlush.step, hp, hacc]
      refine ⟨fun m hm => ?_, by simp, fun _ _ => ?_⟩
      · refine (h.nothingLost m hm).imp id fun ⟨body, hbody, hlook⟩ => ?_
        exact ⟨body, List.mem_cons_of_mem _ hbody, hlook⟩
      · rw [h.marshalled reqBody hp]
        exact List.mem_cons_self
    | _ => simpa only [LogFlush.step, hp] using h
  | cleanup =>
    cases hp : s.phase with
    | cleaning successful =>
      simp only [LogFlush.step, hp]
      refine ⟨fun m hm => ?_, by simp, by simp⟩
      -- what is deleted has been accepted
      refine .inr ((h.nothingLost m hm).elim (fun hold => ?_) id)
      exact ⟨s.requestToLogMessage, h.cleaning successful hp, hold⟩
    | _ => simpa only [LogFlush.step, hp] using h

/-- **No message is lost** in a run that is not disturbed. -/
theorem nothingLost_run (minNumLogMessagesToFlush : ℤ) (es : List Event)
    (h : Along step Undisturbed { minNumLogMessagesToFlush := minNumLogMessagesToFlush } es) :
    ∀ es', es' <+: es →
      (run { minNumLogMessagesToFlush := minNumLogMessagesToFlush } es').NothingLost := by
  intro es' hp
  have hstart : Safe { minNumLogMessagesToFlush := minNumLogMessagesToFlush } :=
    ⟨fun m hm => by simp at hm, by simp, by simp⟩
  exact ((h.of_prefix hp).invariant hstart fun s e hs => hs.step e).nothingLost

/-- The request `b` completes while the messages are being posted. -/
theorem nothingLost_run_late :
    let s := run { minNumLogMessagesToFlush := 0 } [.firstRequest, .complete "a" "x", .tick,
      .marshal true, .complete "b" "y", .post (.response 200 true), .cleanup]
    ("b", "y") ∈ s.recorded ∧ s.numFlush = 1 ∧ ¬ s.NothingLost := by
  unfold NothingLost
  decide +kernel

/-- A flush with completions before and after it, one of them between counting and encoding. -/
theorem nothingLost_run_carried :
    let es : List Event := [.firstRequest, .complete "a" "x", .tick, .complete "b" "y",
      .marshal true, .complete "b" "z", .post (.response 200 true), .cleanup, .complete "c" "w"]
    let s := run { minNumLogMessagesToFlush := 0 } es
    Along step Undisturbed { minNumLogMessagesToFlush := 0 } es ∧ s.NothingLost ∧
      s.recorded = [("c", "w"), ("b", "y"), ("a", "x")] ∧ s.requestToLogMessage.keys = ["c"] := by
  intro es s
  have h : Along step Undisturbed { minNumLogMessagesToFlush := 0 } es := by decide +kernel
  exact ⟨h, nothingLost_run 0 es h es (List.prefix_refl _), by decide +kernel, by decide +kernel⟩

end LogFlush
end Lodestar.Routing
