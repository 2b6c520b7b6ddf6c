import Lodestar.Cache.Store

/-!
# Request traces

`RequestTrace` of `pkg/cache/trace.go`: how many requests started in a window of a model, and how
many completed with which numbers of tokens.  Traces come from a pool.  A trace that is put back
loses its recycler, and the methods that count find this out under the lock of the trace;
`NewRequestTrace` resets a trace and gives it its recycler again.
-/

namespace Lodestar.Cache

open List

/-- `RequestTrace`.  The lock is its number of readers; `use` is a ghost that is new each time the
trace is taken from the pool. -/
structure RequestTrace where
  trace : AList fun _ : String => ℤ := ∅
  numKeys : ℤ := 0
  numRequests : ℤ := 0
  completedRequests : ℤ := 0
  term : ℤ := 0
  recycler : Bool := false
  readers : ℤ := 0
  use : ℕ := 0

/-! ### Keys -/

def requestTraceMetaKeys : List String :=
  ["meta_v", "meta_interval_sec", "meta_precision", "meta_total_reqs", "meta_pending_reqs"]

section

variable (bucketIndex : ℤ → ℤ)

/-- The index of the bucket of a number of tokens, from the rounded logarithm of a positive one. -/
def tokenIndex (tokens : ℤ) : ℤ := if tokens > 0 then bucketIndex tokens else 0

/-- `getTraceKey` of the buckets of the input and the output. -/
def getTraceKey (inputTokens outputTokens : ℤ) : String :=
  toString (tokenIndex bucketIndex inputTokens) ++ ":" ++ toString (tokenIndex bucketIndex outputTokens)

section

variable (inputTokens outputTokens : ℤ)

lemma colon_mem_getTraceKey :
    ':' ∈ (getTraceKey bucketIndex inputTokens outputTokens).toList := by
  simp [getTraceKey]

lemma getTraceKey_ne_empty :
    getTraceKey bucketIndex inputTokens outputTokens ≠ "" := by
  intro h
  have hcolon := colon_mem_getTraceKey bucketIndex inputTokens outputTokens
  rw [h] at hcolon
  simp at hcolon

lemma getTraceKey_notMem_metaKeys :
    getTraceKey bucketIndex inputTokens outputTokens ∉ requestTraceMetaKeys := by
  intro h
  have hcolon := colon_mem_getTraceKey bucketIndex inputTokens outputTokens
  have hnone : ∀ key ∈ requestTraceMetaKeys, ':' ∉ key.toList := by decide
  exact hnone _ h hcolon

end
end

namespace RequestTrace

variable (t : RequestTrace)

/-! ### Methods -/

def rLock : RequestTrace := { t with readers := t.readers + 1 }

def rUnlock : RequestTrace := { t with readers := t.readers - 1 }

/-- `AddRequest` on a trace that is not recycled. -/
def addRequest : RequestTrace := { t with numRequests := t.numRequests + 1 }

def doneRequestLocked (term : ℤ) : RequestTrace :=
  if term = t.term then { t with completedRequests := t.completedRequests + 1 } else t

def addRequestTraceLocked (key : String) : RequestTrace :=
  match t.trace.lookup key with
  | some count => { t with trace := t.trace.insert key (count + 1) }
  | none => { t with trace := t.trace.insert key 1, numKeys := t.numKeys + 1 }

/-- `DoneRequestTrace` on a trace that is not recycled. -/
def doneRequestTrace (key : String) (term : ℤ) : RequestTrace :=
  let t := t.doneRequestLocked term
  if key ≠ "" then t.addRequestTraceLocked key else t

def toMapLocked (totalPending : ℤ) : AList fun _ : String => ℤ :=
  ((((t.trace.insert "meta_v" 3).insert "meta_interval_sec" 10).insert "meta_precision" 10).insert
    "meta_total_reqs" t.numRequests).insert "meta_pending_reqs" totalPending

/-- `RecycleLocked`, without the pool. -/
def recycleLocked : RequestTrace := { t with recycler := false }

/-- `NewRequestTrace` on a trace of the pool. -/
def newRequestTrace (term : ℤ) (use : ℕ) : RequestTrace :=
  { t with trace := if t.numKeys > 0 then ∅ else t.trace
           numKeys := if t.numKeys > 0 then 0 else t.numKeys
           numRequests := 0, completedRequests := 0, term := term, recycler := true, use := use }

/-! ### Counts -/

def bucket (key : String) : ℤ := (t.trace.lookup key).getD 0

def Keyed : Prop := t.numKeys = t.trace.keys.length

def Unused : Prop := t.numRequests = 0 ∧ ∀ key ∈ t.trace.keys, t.bucket key = 0

instance : Decidable t.Unused := inferInstanceAs (Decidable (_ ∧ _))

variable {t}

lemma doneRequestLocked_eq (term : ℤ) :
    ∃ n, t.doneRequestLocked term = { t with completedRequests := n } := by
  unfold doneRequestLocked
  split
  · exact ⟨_, rfl⟩
  · exact ⟨t.completedRequests, rfl⟩

lemma addRequestTraceLocked_eq (key : String) :
    ∃ trace numKeys, t.addRequestTraceLocked key = { t with trace := trace, numKeys := numKeys } := by
  unfold addRequestTraceLocked
  split
  · exact ⟨_, t.numKeys, rfl⟩
  · exact ⟨_, _, rfl⟩

lemma bucket_of_notMem {key : String} (h : key ∉ t.trace.keys) : t.bucket key = 0 := by
  have hnone : t.trace.lookup key = none := by rwa [AList.lookup_eq_none, AList.mem_keys]
  rw [bucket, hnone]
  rfl

lemma Unused.bucket_eq (h : t.Unused) (key : String) : t.bucket key = 0 := by
  by_cases hkey : key ∈ t.trace.keys
  · exact h.2 key hkey
  · exact bucket_of_notMem hkey

lemma bucket_addRequestTraceLocked (key key' : String) :
    (t.addRequestTraceLocked key).bucket key' = t.bucket key' + if key' = key then 1 else 0 := by
  unfold addRequestTraceLocked bucket
  cases h : t.trace.lookup key with
  | none | some =>
    by_cases hk : key' = key
    · subst hk
      simp [h]
    · simp [hk]

lemma Keyed.addRequestTraceLocked (h : t.Keyed) (key : String) :
    (t.addRequestTraceLocked key).Keyed := by
  unfold Keyed RequestTrace.addRequestTraceLocked at *
  cases hl : t.trace.lookup key with
  | none =>
    have hkey : key ∉ t.trace.keys := by rwa [← AList.mem_keys, ← AList.lookup_eq_none]
    simp [erase_of_not_mem hkey, h]
  | some count =>
    have hkey : key ∈ t.trace.keys := by
      rw [← AList.mem_keys, ← AList.lookup_isSome, hl]
      rfl
    have hpos := length_pos_of_mem hkey
    simp only [AList.keys_insert, length_cons, length_erase_of_mem hkey]
    omega

lemma Keyed.newRequestTrace (h : t.Keyed) (term : ℤ) (use : ℕ) :
    (t.newRequestTrace term use).Keyed := by
  unfold Keyed RequestTrace.newRequestTrace
  split
  · simp
  · exact h

lemma Keyed.unused_newRequestTrace (h : t.Keyed) (term : ℤ) (use : ℕ) :
    (t.newRequestTrace term use).Unused := by
  have hkeys : (t.newRequestTrace term use).trace.keys = [] := by
    unfold RequestTrace.newRequestTrace
    dsimp only
    split
    · simp
    · rename_i hpos
      rw [h] at hpos
      exact eq_nil_of_length_eq_zero (by omega)
  refine ⟨rfl, fun key hkey => ?_⟩
  rw [hkeys] at hkey
  simp at hkey

lemma lookup_toMapLocked_key (totalPending : ℤ) {key : String} (h : key ∉ requestTraceMetaKeys) :
    (t.toMapLocked totalPending).lookup key = t.trace.lookup key := by
  simp only [requestTraceMetaKeys, mem_cons, not_or] at h
  obtain ⟨h₁, h₂, h₃, h₄, h₅⟩ := h
  simp [toMapLocked, h₁, h₂, h₃, h₄, h₅]

end RequestTrace
end Lodestar.Cache
