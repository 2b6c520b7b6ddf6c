import Lodestar.Lib.Run
import Lodestar.Cache.Trace

/-!
# Counting requests while traces are written out

`AddRequestCount`, `DoneRequestCount` and `DoneRequestTrace` of `pkg/cache/cache_impl.go` get the
trace of their model by `getRequestTrace` and count in it, again and again until the trace they got
is not a recycled one.  Meanwhile `writeRequestTraceToStorage` of `cache_trace.go` puts an empty map
in the place of the map of traces, writes out every trace it finds in the old map and puts it back
in the pool.  No lock covers the two, so the model has one step for every access to what they share:
the pool, the pointer to the map, the map, the number of traces and the lock of a trace.
-/

namespace Lodestar.Cache

open Function (update)

inductive TraceCall where
  | addRequestCount (model : String)
  | doneRequestCount (model : String) (traceTerm : ℤ)
  | doneRequestTrace (model : String) (inputTokens outputTokens traceTerm : ℤ)
  deriving DecidableEq

namespace TraceCall

def model : TraceCall → String
  | addRequestCount model => model
  | doneRequestCount model _ => model
  | doneRequestTrace model _ _ _ => model

def starts : TraceCall → Bool
  | addRequestCount _ => true
  | _ => false

def key (bucketIndex : ℤ → ℤ) : TraceCall → Option String
  | doneRequestTrace _ inputTokens outputTokens _ => some (getTraceKey bucketIndex inputTokens outputTokens)
  | _ => none

/-- The call is to be counted in a trace that is not recycled. -/
def counts : TraceCall → Bool
  | doneRequestCount _ _ => false
  | _ => true

/-- The variable `traceKey` of the loop, once the trace was asked. -/
def traceKey (bucketIndex : ℤ → ℤ) (call : TraceCall) (key : String) : String :=
  if key = "" then (call.key bucketIndex).getD "" else key

/-- What the call does to a trace that is locked and not recycled. -/
def count (key : String) (t : RequestTrace) : TraceCall → RequestTrace
  | addRequestCount _ => t.addRequest
  | doneRequestCount _ _ => t
  | doneRequestTrace _ _ _ term => t.doneRequestTrace key term

lemma count_frame (call : TraceCall) (key : String) (t : RequestTrace) :
    (call.count key t).recycler = t.recycler ∧ (call.count key t).readers = t.readers ∧
      (call.count key t).use = t.use ∧
      (call.count key t).numRequests = t.numRequests + if call.starts then 1 else 0 := by
  cases call with
  | addRequestCount => exact ⟨rfl, rfl, rfl, rfl⟩
  | doneRequestCount => simp [count, starts]
  | doneRequestTrace model inputTokens outputTokens term =>
    obtain ⟨n, hn⟩ := t.doneRequestLocked_eq term
    obtain ⟨trace, numKeys, heq⟩ :=
      RequestTrace.addRequestTraceLocked_eq (t := { t with completedRequests := n }) key
    simp only [count, RequestTrace.doneRequestTrace, hn, heq, starts]
    split <;> simp

lemma bucket_count {bucketIndex : ℤ → ℤ} {call : TraceCall} {key : String}
    (hkey : ∀ k, call.key bucketIndex = some k → key = k) (t : RequestTrace) (key' : String) :
    (call.count key t).bucket key' =
      t.bucket key' + if call.key bucketIndex = some key' then 1 else 0 := by
  cases call with
  | addRequestCount model => simp [count, TraceCall.key, RequestTrace.addRequest, RequestTrace.bucket]
  | doneRequestCount model term => simp [count, TraceCall.key]
  | doneRequestTrace model inputTokens outputTokens term =>
    obtain rfl := hkey _ rfl
    obtain ⟨n, hn⟩ := t.doneRequestLocked_eq term
    simp only [count, RequestTrace.doneRequestTrace, hn, TraceCall.key]
    have hne := getTraceKey_ne_empty bucketIndex inputTokens outputTokens
    rw [if_pos hne, RequestTrace.bucket_addRequestTraceLocked]
    simp [RequestTrace.bucket, eq_comm]

lemma keyed_count {t : RequestTrace} (h : t.Keyed) (call : TraceCall) (key : String) :
    (call.count key t).Keyed := by
  cases call with
  | addRequestCount | doneRequestCount => exact h
  | doneRequestTrace model inputTokens outputTokens term =>
    obtain ⟨n, hn⟩ := t.doneRequestLocked_eq term
    have hdone : (t.doneRequestLocked term).Keyed := by
      rw [hn]
      exact h
    simp only [count, RequestTrace.doneRequestTrace]
    split
    · exact hdone.addRequestTraceLocked key
    · exact hdone

end TraceCall

/-- Where a call is: at the head of its loop; with a new trace; with a map as well; with the trace of
the map; with the new trace in the map; with the trace it is given; inside its read lock; returned,
counted in a use or not; or down. -/
inductive Place where
  | outside
  | made (t : ℕ)
  | loaded (t n : ℕ)
  | found (t : ℕ) (newer : Option ℕ)
  | stored (t : ℕ)
  | has (trace : Option ℕ)
  | inside (t : ℕ)
  | finished (home : Option ℕ)
  | panicked
  deriving DecidableEq

def Place.fresh : Place → Option ℕ
  | made t => some t
  | loaded t _ => some t
  | found t _ => some t
  | _ => none

/-- Where the write-out is: waiting for the ticker; with the number of traces; with the old map;
going through the old map, which had the keys `todo` at the start; or with a trace of it. -/
inductive Writer where
  | idle
  | counted (roundT numTraces : ℤ)
  | swapped (n : ℕ) (roundT numTraces numResetTo : ℤ)
  | ranging (n : ℕ) (roundT : ℤ) (todo : List String)
  | visiting (n : ℕ) (roundT : ℤ) (todo : List String) (model : String) (t : ℕ)
  deriving DecidableEq

namespace Writer

def old : Writer → Option ℕ
  | swapped n _ _ _ => some n
  | ranging n _ _ => some n
  | visiting n _ _ _ _ => some n
  | _ => none

def hand : Writer → Option (String × ℕ)
  | visiting _ _ _ model t => some (model, t)
  | _ => none

end Writer

/-- A trace that was written out, under the key of its model and the time; `use` is the use of the
trace that it was taken from. -/
structure Window where
  model : String
  roundT : ℤ
  value : AList fun _ : String => ℤ
  use : ℕ

namespace Window

def total (w : Window) : ℤ := (w.value.lookup "meta_total_reqs").getD 0

/-- The count of a bucket; what stands under a meta key is none. -/
def bucket (w : Window) (key : String) : ℤ :=
  if key ∈ requestTraceMetaKeys then 0 else (w.value.lookup key).getD 0

end Window

/-- The traces, the calls and the write-out.  Traces and maps are numbered; an entry of a map is a
trace or nil. -/
structure Tracing (ι : Type*) where
  heap : ℕ → RequestTrace
  allocated : ℕ
  pool : Finset ℕ
  maps : ℕ → AList fun _ : String => Option ℕ
  current : ℕ
  numRequestsTraces : ℤ
  writer : Writer
  written : List Window
  place : ι → Place
  traceKey : ι → String
  uses : ℕ

/-- What happens next, with what the pool, the clock, the order of the iteration and the record of
the model decide. -/
inductive TraceEvent (ι : Type*) where
  | newRequestTrace (i : ι) (pick : Option ℕ) (now : ℤ)
  | load (i : ι)
  | loadOrStore (i : ι)
  | recycle (i : ι)
  | increment (i : ι)
  | enter (i : ι)
  | leave (i : ι)
  | tick (roundT : ℤ)
  | swap
  | compareAndSwap
  | visit (model : String)
  | write (pending : ℤ)
  | endRange

namespace Tracing

variable {ι : Type*} [DecidableEq ι]

def start (ι : Type*) : Tracing ι where
  heap _ := {}
  allocated := 0
  pool := ∅
  maps _ := ∅
  current := 0
  numRequestsTraces := 0
  writer := .idle
  written := []
  place _ := .outside
  traceKey _ := ""
  uses := 0

/-- The trace that the pool gives: one that was put back, or else a new one. -/
def taken (σ : Tracing ι) (pick : Option ℕ) : ℕ := (pick.filter (· ∈ σ.pool)).getD σ.allocated

/-- The iteration has been at all keys that the map had at its start. -/
def visited (σ : Tracing ι) (n : ℕ) (todo : List String) : Prop :=
  ∀ model ∈ todo, (σ.maps n).lookup model = some none

instance (σ : Tracing ι) (n : ℕ) (todo : List String) : Decidable (σ.visited n todo) :=
  inferInstanceAs (Decidable (∀ model ∈ todo, _))

variable (calls : ι → TraceCall) (bucketIndex : ℤ → ℤ)

def tryEnter (σ : Tracing ι) (i : ι) (t : ℕ) : Tracing ι :=
  let key := (calls i).traceKey bucketIndex (σ.traceKey i)
  if (σ.heap t).recycler then
    { σ with heap := update σ.heap t (σ.heap t).rLock
             traceKey := update σ.traceKey i key
             place := update σ.place i (.inside t) }
  else { σ with traceKey := update σ.traceKey i key
                place := update σ.place i .outside }

/-- The state after an event; an event that is not possible changes nothing. -/
def step (σ : Tracing ι) : TraceEvent ι → Tracing ι
  | .newRequestTrace i pick now =>
    match σ.place i with
    | .outside =>
      let t := σ.taken pick
      { σ with heap := update σ.heap t ((σ.heap t).newRequestTrace now σ.uses)
               allocated := max σ.allocated (t + 1), pool := σ.pool.erase t
               place := update σ.place i (.made t), uses := σ.uses + 1 }
    | _ => σ
  | .load i =>
    match σ.place i with
    | .made t => { σ with place := update σ.place i (.loaded t σ.current) }
    | _ => σ
  | .loadOrStore i =>
    match σ.place i with
    | .loaded t n =>
      match (σ.maps n).lookup (calls i).model with
      | some newer => { σ with place := update σ.place i (.found t newer) }
      | none =>
        { σ with maps := update σ.maps n ((σ.maps n).insert (calls i).model (some t))
                 place := update σ.place i (.stored t) }
    | _ => σ
  | .recycle i =>
    match σ.place i with
    | .found t newer =>
      if (σ.heap t).readers = 0 then
        { σ with heap := update σ.heap t (σ.heap t).recycleLocked, pool := insert t σ.pool
                 place := update σ.place i (.has newer) }
      else σ
    | _ => σ
  | .increment i =>
    match σ.place i with
    | .stored t => { σ with numRequestsTraces := σ.numRequestsTraces + 1
                            place := update σ.place i (.has (some t)) }
    | _ => σ
  | .enter i =>
    match σ.place i with
    | .has none => { σ with place := update σ.place i .panicked }
    | .has (some t) =>
      match calls i with
      | .addRequestCount _ => σ.tryEnter calls bucketIndex i t
      | .doneRequestCount _ term =>
        { σ with heap := update σ.heap t ((σ.heap t).doneRequestLocked term)
                 place := update σ.place i (.finished none) }
      | .doneRequestTrace _ _ _ term =>
        if term ≠ (σ.heap t).term ∧ (calls i).traceKey bucketIndex (σ.traceKey i) = "" then
          { σ with place := update σ.place i (.finished none) }
        else σ.tryEnter calls bucketIndex i t
    | _ => σ
  | .leave i =>
    match σ.place i with
    | .inside t =>
      { σ with heap := update σ.heap t ((calls i).count (σ.traceKey i) (σ.heap t)).rUnlock
               place := update σ.place i (.finished (some (σ.heap t).use)) }
    | _ => σ
  | .tick roundT =>
    if σ.writer = .idle ∧ σ.numRequestsTraces ≠ 0 then
      { σ with writer := .counted roundT σ.numRequestsTraces }
    else σ
  | .swap =>
    match σ.writer with
    | .counted roundT numTraces =>
      { σ with current := σ.current + 1, writer := .swapped σ.current roundT numTraces 0 }
    | _ => σ
  | .compareAndSwap =>
    match σ.writer with
    | .swapped n roundT numTraces numResetTo =>
      if σ.numRequestsTraces = numTraces then
        { σ with numRequestsTraces := numResetTo, writer := .ranging n roundT (σ.maps n).keys }
      else
        { σ with writer := .swapped n roundT σ.numRequestsTraces (σ.numRequestsTraces - numTraces) }
    | _ => σ
  | .visit model =>
    match σ.writer with
    | .ranging n roundT todo =>
      match (σ.maps n).lookup model with
      | some (some t) =>
        { σ with maps := update σ.maps n ((σ.maps n).insert model none)
                 writer := .visiting n roundT todo model t }
      | _ => σ
    | _ => σ
  | .write pending =>
    match σ.writer with
    | .visiting n roundT todo model t =>
      if (σ.heap t).readers = 0 then
        { σ with heap := update σ.heap t (σ.heap t).recycleLocked, pool := insert t σ.pool
                 writer := .ranging n roundT todo
                 written := σ.written ++
                   [⟨model, roundT, (σ.heap t).toMapLocked pending, (σ.heap t).use⟩] }
      else σ
    | _ => σ
  | .endRange =>
    match σ.writer with
    | .ranging n _ todo => if σ.visited n todo then { σ with writer := .idle } else σ
    | _ => σ

/-! ### Windows -/

/-- The maps whose traces are in use or will be written out. -/
def opens (σ : Tracing ι) : List ℕ := σ.current :: σ.writer.old.toList

/-- The trace is that of the model in a map that is in use or being written out, or the trace that is
just being written out. -/
def Keeps (σ : Tracing ι) (model : String) (t : ℕ) : Prop :=
  (∃ n ∈ σ.opens, (σ.maps n).lookup model = some (some t)) ∨ σ.writer.hand = some (model, t)

instance (σ : Tracing ι) (model : String) (t : ℕ) : Decidable (σ.Keeps model t) :=
  inferInstanceAs (Decidable (_ ∨ _))

/-- A window of a model: one that was written out, or a trace that will be. -/
inductive IsWindow (σ : Tracing ι) :
    (model : String) → (use : ℕ) → (total : ℤ) → (bucket : String → ℤ) → Prop where
  | written {w : Window} (h : w ∈ σ.written) : IsWindow σ w.model w.use w.total w.bucket
  | kept {model : String} {t : ℕ} (h : σ.Keeps model t) :
      IsWindow σ model (σ.heap t).use (σ.heap t).numRequests (σ.heap t).bucket

/-- No call met a trace that is absent, and every call that is counted and has returned is counted in
a window of its model. -/
structure Exact (σ : Tracing ι) : Prop where
  not_panicked : ∀ i, σ.place i ≠ .panicked
  counted : ∀ i home, σ.place i = .finished home → (calls i).counts = true →
    ∃ use total bucket, home = some use ∧ σ.IsWindow (calls i).model use total bucket

/-- The events that do no harm.  A call does not ask an absent trace; it counts in a trace that is
still the one of its model; and the write-out leaves no trace behind in which something is
counted. -/
def Timely (σ : Tracing ι) : TraceEvent ι → Prop
  | .enter i => σ.place i ≠ .has none
  | .leave i => ∀ t, σ.place i = .inside t → σ.Keeps (calls i).model t
  | .endRange => ∀ n roundT todo, σ.writer = .ranging n roundT todo → σ.visited n todo →
      ∀ model t, (σ.maps n).lookup model = some (some t) → (σ.heap t).Unused
  | _ => True

/-! ### What an event can do -/

/-- The events that change something, with what they need and what they change. -/
inductive Action (σ : Tracing ι) : TraceEvent ι → Tracing ι → Prop where
  | newRequestTrace {i : ι} {pick : Option ℕ} {now : ℤ} {t : ℕ} (hp : σ.place i = .outside)
      (ht : t ∈ σ.pool ∨ t = σ.allocated) : Action σ (.newRequestTrace i pick now)
        { σ with heap := update σ.heap t ((σ.heap t).newRequestTrace now σ.uses)
                 allocated := max σ.allocated (t + 1), pool := σ.pool.erase t
                 place := update σ.place i (.made t), uses := σ.uses + 1 }
  | load {i : ι} {t : ℕ} (hp : σ.place i = .made t) : Action σ (.load i)
      { σ with place := update σ.place i (.loaded t σ.current) }
  | found {i : ι} {t n : ℕ} {newer : Option ℕ} (hp : σ.place i = .loaded t n)
      (hl : (σ.maps n).lookup (calls i).model = some newer) : Action σ (.loadOrStore i)
        { σ with place := update σ.place i (.found t newer) }
  | stored {i : ι} {t n : ℕ} (hp : σ.place i = .loaded t n)
      (hl : (σ.maps n).lookup (calls i).model = none) : Action σ (.loadOrStore i)
        { σ with maps := update σ.maps n ((σ.maps n).insert (calls i).model (some t))
                 place := update σ.place i (.stored t) }
  | recycle {i : ι} {t : ℕ} {newer : Option ℕ} (hp : σ.place i = .found t newer)
      (hr : (σ.heap t).readers = 0) : Action σ (.recycle i)
        { σ with heap := update σ.heap t (σ.heap t).recycleLocked, pool := insert t σ.pool
                 place := update σ.place i (.has newer) }
  | increment {i : ι} {t : ℕ} (hp : σ.place i = .stored t) : Action σ (.increment i)
      { σ with numRequestsTraces := σ.numRequestsTraces + 1
               place := update σ.place i (.has (some t)) }
  | absent {i : ι} (hp : σ.place i = .has none) : Action σ (.enter i)
      { σ with place := update σ.place i .panicked }
  | retry {i : ι} {t : ℕ} (hp : σ.place i = .has (some t)) (hc : (calls i).counts = true)
      (hr : (σ.heap t).recycler = false) : Action σ (.enter i)
        { σ with traceKey := update σ.traceKey i
                  ((calls i).traceKey bucketIndex (σ.traceKey i))
                 place := update σ.place i .outside }
  | enter {i : ι} {t : ℕ} (hp : σ.place i = .has (some t)) (hc : (calls i).counts = true)
      (hr : (σ.heap t).recycler = true) : Action σ (.enter i)
        { σ with heap := update σ.heap t (σ.heap t).rLock
                 traceKey := update σ.traceKey i
                  ((calls i).traceKey bucketIndex (σ.traceKey i))
                 place := update σ.place i (.inside t) }
  | done {i : ι} {t : ℕ} {term : ℤ} (hp : σ.place i = .has (some t))
      (hc : (calls i).counts = false) : Action σ (.enter i)
        { σ with heap := update σ.heap t ((σ.heap t).doneRequestLocked term)
                 place := update σ.place i (.finished none) }
  | leave {i : ι} {t : ℕ} (hp : σ.place i = .inside t) : Action σ (.leave i)
      { σ with heap := update σ.heap t ((calls i).count (σ.traceKey i) (σ.heap t)).rUnlock
               place := update σ.place i (.finished (some (σ.heap t).use)) }
  | tick {roundT : ℤ} (hw : σ.writer = .idle) : Action σ (.tick roundT)
      { σ with writer := .counted roundT σ.numRequestsTraces }
  | swap {roundT numTraces : ℤ} (hw : σ.writer = .counted roundT numTraces) : Action σ .swap
      { σ with current := σ.current + 1, writer := .swapped σ.current roundT numTraces 0 }
  | again {n : ℕ} {roundT numTraces numResetTo : ℤ}
      (hw : σ.writer = .swapped n roundT numTraces numResetTo) : Action σ .compareAndSwap
        { σ with writer := .swapped n roundT σ.numRequestsTraces (σ.numRequestsTraces - numTraces) }
  | range {n : ℕ} {roundT numTraces numResetTo : ℤ}
      (hw : σ.writer = .swapped n roundT numTraces numResetTo) : Action σ .compareAndSwap
        { σ with numRequestsTraces := numResetTo, writer := .ranging n roundT (σ.maps n).keys }
  | visit {n : ℕ} {roundT : ℤ} {todo : List String} {model : String} {t : ℕ}
      (hw : σ.writer = .ranging n roundT todo) (hl : (σ.maps n).lookup model = some (some t)) :
      Action σ (.visit model)
        { σ with maps := update σ.maps n ((σ.maps n).insert model none)
                 writer := .visiting n roundT todo model t }
  | write {n : ℕ} {roundT pending : ℤ} {todo : List String} {model : String} {t : ℕ}
      (hw : σ.writer = .visiting n roundT todo model t) (hr : (σ.heap t).readers = 0) :
      Action σ (.write pending)
        { σ with heap := update σ.heap t (σ.heap t).recycleLocked, pool := insert t σ.pool
                 writer := .ranging n roundT todo
                 written := σ.written ++
                   [⟨model, roundT, (σ.heap t).toMapLocked pending, (σ.heap t).use⟩] }
  | endRange {n : ℕ} {roundT : ℤ} {todo : List String} (hw : σ.writer = .ranging n roundT todo)
      (hv : σ.visited n todo) : Action σ .endRange { σ with writer := .idle }

variable {calls bucketIndex} {σ : Tracing ι}
omit [DecidableEq ι] in
lemma taken_cases (σ : Tracing ι) (pick : Option ℕ) :
    σ.taken pick ∈ σ.pool ∨ σ.taken pick = σ.allocated := by
  unfold taken
  cases h : pick.filter (· ∈ σ.pool) with
  | none => exact .inr rfl
  | some t =>
    obtain ⟨-, ht⟩ := Option.filter_eq_some_iff.mp h
    exact .inl (by simpa using ht)

lemma tryEnter_cases {i : ι} {t : ℕ} (hp : σ.place i = .has (some t))
    (hc : (calls i).counts = true) :
    Action calls bucketIndex σ (.enter i) (σ.tryEnter calls bucketIndex i t) := by
  unfold tryEnter
  cases hr : (σ.heap t).recycler with
  | true => exact .enter hp hc hr
  | false => exact .retry hp hc hr

lemma traceKey_ne_empty {model : String} {inputTokens outputTokens term : ℤ} (key : String) :
    (TraceCall.doneRequestTrace model inputTokens outputTokens term).traceKey bucketIndex key ≠ "" := by
  unfold TraceCall.traceKey
  split
  · exact getTraceKey_ne_empty bucketIndex inputTokens outputTokens
  · assumption

/-- **What an event can do**: nothing, and then it does no harm, or one of the actions. -/
lemma step_cases (calls : ι → TraceCall) (bucketIndex : ℤ → ℤ) (σ : Tracing ι) (e : TraceEvent ι) :
    (σ.step calls bucketIndex e = σ ∧ σ.Timely calls e) ∨
      Action calls bucketIndex σ e (σ.step calls bucketIndex e) := by
  cases e with
  | newRequestTrace i pick now =>
    simp only [step]
    cases hp : σ.place i with
    | outside => exact .inr (.newRequestTrace hp (σ.taken_cases pick))
    | _ => exact .inl ⟨rfl, trivial⟩
  | load i =>
    simp only [step]
    cases hp : σ.place i with
    | made t => exact .inr (.load hp)
    | _ => exact .inl ⟨rfl, trivial⟩
  | loadOrStore i =>
    simp only [step]
    cases hp : σ.place i with
    | loaded t n =>
      dsimp only
      cases hl : (σ.maps n).lookup (calls i).model with
      | some newer => exact .inr (.found hp hl)
      | none => exact .inr (.stored hp hl)
    | _ => exact .inl ⟨rfl, trivial⟩
  | recycle i =>
    simp only [step]
    cases hp : σ.place i with
    | found t newer =>
      dsimp only
      split
      · exact .inr (.recycle hp ‹_›)
      · exact .inl ⟨rfl, trivial⟩
    | _ => exact .inl ⟨rfl, trivial⟩
  | increment i =>
    simp only [step]
    cases hp : σ.place i with
    | stored t => exact .inr (.increment hp)
    | _ => exact .inl ⟨rfl, trivial⟩
  | enter i =>
    simp only [step, Timely]
    cases hp : σ.place i with
    | has trace =>
      cases trace with
      | none => exact .inr (.absent hp)
      | some t =>
        cases hc : calls i with
        | addRequestCount model => exact .inr (tryEnter_cases hp (by rw [hc]; rfl))
        | doneRequestCount model term => exact .inr (.done hp (by rw [hc]; rfl))
        | doneRequestTrace model inputTokens outputTokens term =>
          dsimp only
          rw [if_neg (fun h => traceKey_ne_empty _ h.2)]
          exact .inr (tryEnter_cases hp (by rw [hc]; rfl))
    | _ => exact .inl ⟨rfl, by simp⟩
  | leave i =>
    simp only [step, Timely]
    cases hp : σ.place i with
    | inside t => exact .inr (.leave hp)
    | _ => exact .inl ⟨rfl, by simp⟩
  | tick roundT =>
    simp only [step]
    split
    · rename_i h
      exact .inr (.tick h.1)
    · exact .inl ⟨rfl, trivial⟩
  | swap =>
    simp only [step]
    cases hw : σ.writer with
    | counted roundT numTraces => exact .inr (.swap hw)
    | _ => exact .inl ⟨rfl, trivial⟩
  | compareAndSwap =>
    simp only [step]
    cases hw : σ.writer with
    | swapped n roundT numTraces numResetTo =>
      dsimp only
      split
      · exact .inr (.range hw)
      · exact .inr (.again hw)
    | _ => exact .inl ⟨rfl, trivial⟩
  | visit model =>
    simp only [step]
    cases hw : σ.writer with
    | ranging n roundT todo =>
      dsimp only
      split
      · exact .inr (.visit hw ‹_›)
      · exact .inl ⟨rfl, trivial⟩
    | _ => exact .inl ⟨rfl, trivial⟩
  | write pending =>
    simp only [step]
    cases hw : σ.writer with
    | visiting n roundT todo model t =>
      dsimp only
      split
      · exact .inr (.write hw ‹_›)
      · exact .inl ⟨rfl, trivial⟩
    | _ => exact .inl ⟨rfl, trivial⟩
  | endRange =>
    simp only [step, Timely]
    cases hw : σ.writer with
    | ranging n roundT todo =>
      dsimp only
      split
      · exact .inr (.endRange hw ‹_›)
      · rename_i hv
        refine .inl ⟨rfl, ?_⟩
        rintro n' roundT' todo' ⟨⟩ hv'
        exact absurd hv' hv
    | _ => exact .inl ⟨rfl, by simp⟩

end Tracing
end Lodestar.Cache
