import Lodestar.Lib.Reservation
import Lodestar.Lib.Run
import Lodestar.Lib.Select

/-!
# The virtual queue of the Mooncake router

`MooncakeScorePods` selects a pod, raises its virtual queue and writes down which pod the request
went to; when the request ends or its selection is overridden, the entry is removed and the queue
lowered again.  Queue and entries have a mutex each.  A scoring call holds the one of the queue from
its selection until it has written the entry, while the other two calls give the mutex of the
entries back before they take the one of the queue.

An event is a call up to the first place where another thread can come between, or the rest of such
a call.  A call that has to wait for a mutex has not happened yet.  Latencies are compared by an
arbitrary arithmetic, so that rounding is covered.
-/

namespace Lodestar.Utils

open Lib List Function

structure LatencyArithmetic (F : Type) where
  minusOne : F
  zero : F
  quotient : ℤ → F → F
  le : F → F → Bool
  lt : F → F → Bool
  eq : F → F → Bool

namespace Mooncake

variable {F τ : Type}

/-! ### The selection -/

structure Expected (F : Type) where
  latency : F
  queue : ℤ
  podIP : String

/-- Smaller latencies are better, then smaller queues, then smaller addresses. -/
def Expected.better (A : LatencyArithmetic F) (e best : Expected F) : Bool :=
  A.lt best.latency A.zero || A.lt e.latency best.latency ||
    (A.eq e.latency best.latency && e.queue < best.queue) ||
    (A.eq e.latency best.latency && e.queue = best.queue && e.podIP < best.podIP)

/-- The pods with a speed, and what is expected of them. -/
def expected (A : LatencyArithmetic F) (virtualQueue podBatchSizes : String → ℤ)
    (pod : Sigma fun _ : String => F) : Option (Expected F) :=
  if A.le pod.2 A.zero then none
  else
    let queue := podBatchSizes pod.1 + virtualQueue pod.1 + 1
    some ⟨A.quotient queue pod.2, queue, pod.1⟩

/-- The loop of `MooncakeScorePods`, in the order of the entries. -/
def bestPodIP (A : LatencyArithmetic F) (virtualQueue podBatchSizes : String → ℤ)
    (podSpeeds : AList fun _ : String => F) : String :=
  let best := selectBest (Expected.better A) (expected A virtualQueue podBatchSizes)
    ⟨A.minusOne, -1, ""⟩ podSpeeds.entries
  (best.map Sigma.fst).getD ""

/-! ### Calls -/

inductive Result where
  | scored (selected : Option String)
  | released (done : Bool)
  deriving DecidableEq

inductive Place where
  | idle
  /-- The queue is raised, the entry is not written, the mutex of the queue is held. -/
  | entering (requestID podIP : String)
  /-- The entry is removed, the queue is not lowered. -/
  | lowering (podIP : String)
  | returned (result : Result)
  deriving DecidableEq

def Place.free : Place → Bool
  | .idle | .returned _ => true
  | .entering _ _ | .lowering _ => false

def Place.reserving : Place → Reserving String String
  | .entering requestID podIP => .entering requestID (podIP, 1)
  | .lowering podIP => .leaving (podIP, 1)
  | .idle | .returned _ => .outside

lemma Place.reserving_of_free {p : Place} (h : p.free = true) : p.reserving = .outside := by
  cases p with
  | idle | returned => rfl
  | entering | lowering => simp [Place.free] at h

/-- The maps of the package with the threads that use them.  `scored` and `clamped` are not part of
the program: the requests that were scored, and whether a queue was ever clamped. -/
structure State (τ : Type) where
  virtualQueue : String → ℤ := fun _ => 0
  requestPod : String → Option String := fun _ => none
  queueMutex : Option τ := none
  pc : τ → Place := fun _ => .idle
  scored : List String := []
  clamped : Bool := false

inductive Event (τ F : Type) where
  | score (t : τ) (podBatchSizes : String → ℤ) (podSpeeds : AList fun _ : String => F)
      (requestID : String)
  | decrement (t : τ) (requestID : String)
  | rollback (t : τ) (requestID : String)
  | resume (t : τ)

variable [DecidableEq τ]

namespace State

def moveTo (σ : State τ) (t : τ) (p : Place) : State τ := { σ with pc := update σ.pc t p }

/-- `MooncakeScorePods` until the queue is raised. -/
def scorePods (A : LatencyArithmetic F) (σ : State τ) (t : τ) (podBatchSizes : String → ℤ)
    (podSpeeds : AList fun _ : String => F) (requestID : String) : State τ :=
  let best := bestPodIP A σ.virtualQueue podBatchSizes podSpeeds
  if best = "" then σ.moveTo t (.returned (.scored none))
  else
    { σ.moveTo t (.entering requestID best) with
      virtualQueue := update σ.virtualQueue best (σ.virtualQueue best + 1)
      queueMutex := some t
      scored := requestID :: σ.scored }

section

variable (σ : State τ) (t : τ)

/-- The rest of `MooncakeScorePods`. -/
def writeEntry (requestID podIP : String) : State τ :=
  { σ.moveTo t (.returned (.scored (some podIP))) with
    requestPod := update σ.requestPod requestID (some podIP)
    queueMutex := none }

/-- The entry is looked up and removed, under the mutex of the entries. -/
def removeEntry (requestID : String) : State τ :=
  match σ.requestPod requestID with
  | none => σ.moveTo t (.returned (.released false))
  | some podIP =>
    { σ.moveTo t (.lowering podIP) with
      requestPod := update σ.requestPod requestID none }

/-- `DecrementMooncakeVirtualQueue` until the entry is removed. -/
def decrementMooncakeVirtualQueue (requestID : String) : State τ :=
  σ.removeEntry t requestID

/-- `RollbackMooncakeForRequest` until the entry is removed. -/
def rollbackMooncakeForRequest (requestID : String) : State τ :=
  σ.removeEntry t requestID

/-- The rest of both: the queue is lowered, and clamped if it is negative. -/
def lowerQueue (podIP : String) : State τ :=
  let lowered := σ.virtualQueue podIP - 1
  { σ.moveTo t (.returned (.released true)) with
    virtualQueue := update σ.virtualQueue podIP (if lowered < 0 then 0 else lowered)
    clamped := σ.clamped || lowered < 0 }

end

def step (A : LatencyArithmetic F) (σ : State τ) : Event τ F → State τ
  | .score t podBatchSizes podSpeeds requestID =>
    if (σ.pc t).free = true ∧ σ.queueMutex = none then
      σ.scorePods A t podBatchSizes podSpeeds requestID
    else σ
  | .decrement t requestID =>
    if (σ.pc t).free then σ.decrementMooncakeVirtualQueue t requestID else σ
  | .rollback t requestID =>
    if (σ.pc t).free then σ.rollbackMooncakeForRequest t requestID else σ
  | .resume t =>
    match σ.pc t with
    | .entering requestID podIP => σ.writeEntry t requestID podIP
    | .lowering podIP => if σ.queueMutex = none then σ.lowerQueue t podIP else σ
    | .idle | .returned _ => σ

def Fresh (σ : State τ) : Event τ F → Prop
  | .score _ _ _ requestID => requestID ∉ σ.scored
  | .decrement _ _ | .rollback _ _ | .resume _ => True

instance (σ : State τ) : ∀ e : Event τ F, Decidable (Fresh σ e)
  | .score _ _ _ requestID => inferInstanceAs (Decidable (requestID ∉ σ.scored))
  | .decrement _ _ | .rollback _ _ | .resume _ => isTrue trivial

end State

/-! ### The queue as reservations -/

namespace State

/-- The reservations: a request has one unit of the queue of its pod. -/
def reservations (σ : State τ) : Reservations String String τ where
  level := σ.virtualQueue
  entries := fun requestID => (σ.requestPod requestID).map (·, 1)
  mutex := σ.queueMutex
  place := fun t => (σ.pc t).reserving
  used := {requestID | requestID ∈ σ.scored}

variable {σ : State τ} {t : τ} {requestID podIP : String}

lemma place_update (σ : State τ) (t : τ) (p : Place) :
    (fun t' => (update σ.pc t p t').reserving) =
      update σ.reservations.place t p.reserving :=
  comp_update Place.reserving σ.pc t p

omit [DecidableEq τ] in
lemma entries_update (σ : State τ) (requestID : String) (x : Option String) :
    (fun r => (update σ.requestPod requestID x r).map (·, 1)) =
      update σ.reservations.entries requestID (x.map (·, 1)) :=
  comp_update (Option.map (·, 1)) σ.requestPod requestID x

lemma returned_move (hfree : (σ.pc t).free = true) (result : Result) :
    Reservations.Move σ.reservations (σ.moveTo t (.returned result)).reservations := by
  refine .idle ?_
  have hplace : σ.reservations.place t = .outside := Place.reserving_of_free hfree
  simp only [moveTo, reservations, place_update]
  rw [Place.reserving, update_eq_self_iff.mpr hplace.symm]

lemma scorePods_move (A : LatencyArithmetic F) (hfree : (σ.pc t).free = true)
    (hmutex : σ.queueMutex = none) (hnew : requestID ∉ σ.scored) (podBatchSizes : String → ℤ)
    (podSpeeds : AList fun _ : String => F) :
    Reservations.Move σ.reservations
      (σ.scorePods A t podBatchSizes podSpeeds requestID).reservations := by
  unfold scorePods
  dsimp only
  split
  · exact returned_move hfree _
  generalize bestPodIP A σ.virtualQueue podBatchSizes podSpeeds = best
  refine .raise t requestID (best, 1) (Place.reserving_of_free hfree) hmutex hnew ?_
  have hused : {r | r ∈ requestID :: σ.scored} = insert requestID {r | r ∈ σ.scored} := by
    ext r
    simp
  simp only [moveTo, reservations, place_update, hused]
  rfl

lemma writeEntry_move (hpc : σ.pc t = .entering requestID podIP) :
    Reservations.Move σ.reservations (σ.writeEntry t requestID podIP).reservations := by
  refine .enter t requestID (podIP, 1) (congrArg Place.reserving hpc) ?_
  simp only [writeEntry, moveTo, reservations, place_update, entries_update]
  rfl

lemma removeEntry_move (hfree : (σ.pc t).free = true) (requestID : String) :
    Reservations.Move σ.reservations (σ.removeEntry t requestID).reservations := by
  unfold removeEntry
  split
  · exact returned_move hfree _
  rename_i podIP hentry
  refine .remove t requestID (podIP, 1) (Place.reserving_of_free hfree)
    (congrArg (Option.map (·, 1)) hentry) ?_
  simp only [moveTo, reservations, place_update, entries_update]
  rfl

omit [DecidableEq τ] in
lemma not_negative (hσ : σ.reservations.Inv) (hpc : σ.pc t = .lowering podIP) :
    ¬ σ.virtualQueue podIP - 1 < 0 := by
  have hle : ((1 : ℕ) : ℤ) ≤ σ.virtualQueue podIP := hσ.le_level (congrArg Place.reserving hpc)
  push_cast at hle
  omega

lemma lowerQueue_move (hσ : σ.reservations.Inv) (hpc : σ.pc t = .lowering podIP) :
    Reservations.Move σ.reservations (σ.lowerQueue t podIP).reservations := by
  refine .lower t (podIP, 1) (congrArg Place.reserving hpc) ?_
  simp only [lowerQueue, moveTo, reservations, place_update, if_neg (not_negative hσ hpc)]
  rfl

/-- **One event** is a step of the protocol of reservations. -/
lemma step_move (A : LatencyArithmetic F) (hσ : σ.reservations.Inv) {e : Event τ F}
    (hfresh : Fresh σ e) : Reservations.Move σ.reservations (σ.step A e).reservations := by
  cases e with
  | score t podBatchSizes podSpeeds requestID =>
    rw [State.step]
    split
    · rename_i h
      exact scorePods_move A h.1 h.2 hfresh podBatchSizes podSpeeds
    · exact .idle rfl
  | decrement _ requestID | rollback _ requestID =>
    rw [State.step]
    split
    · rename_i hfree
      exact removeEntry_move hfree requestID
    · exact .idle rfl
  | resume t =>
    rw [State.step]
    split
    · rename_i requestID podIP hpc
      exact writeEntry_move hpc
    · rename_i podIP hpc
      split
      · exact lowerQueue_move hσ hpc
      · exact .idle rfl
    · exact .idle rfl
    · exact .idle rfl

lemma step_clamped (A : LatencyArithmetic F) (hσ : σ.reservations.Inv) (e : Event τ F) :
    (σ.step A e).clamped = σ.clamped := by
  cases e with
  | score | decrement | rollback =>
    simp only [State.step, scorePods, decrementMooncakeVirtualQueue, rollbackMooncakeForRequest,
      removeEntry]
    repeat' split
    all_goals rfl
  | resume t =>
    rw [State.step]
    split
    · rfl
    · rename_i podIP hpc
      split
      · simp [lowerQueue, not_negative hσ hpc]
      · rfl
    · rfl
    · rfl

structure Inv (σ : State τ) : Prop where
  reservations : σ.reservations.Inv
  unclamped : σ.clamped = false

lemma Inv.step (A : LatencyArithmetic F) (hσ : σ.Inv) {e : Event τ F} (hfresh : Fresh σ e) :
    (σ.step A e).Inv :=
  ⟨hσ.reservations.move (step_move A hσ.reservations hfresh),
    (step_clamped A hσ.reservations e).trans hσ.unclamped⟩

omit [DecidableEq τ] in
lemma inv_init : ({} : State τ).Inv := ⟨Reservations.inv_empty _, rfl⟩

/-! ### The queues -/

noncomputable def tracked (σ : State τ) (podIP : String) : ℤ :=
  Set.ncard {requestID | σ.requestPod requestID = some podIP}

/-- The number of calls that have removed an entry of the pod and not lowered its queue. -/
noncomputable def inTransit (σ : State τ) (podIP : String) : ℤ :=
  Set.ncard {t | σ.pc t = .lowering podIP}

/-- The number of calls that have raised the queue of the pod and not written the entry. -/
noncomputable def entering (σ : State τ) (podIP : String) : ℤ :=
  Set.ncard {t | ∃ requestID, σ.pc t = .entering requestID podIP}

/-- The queues are conserved.  A scoring call between its two updates holds the mutex of the queue,
so nobody sees the queue at that time. -/
structure Conserved (σ : State τ) : Prop where
  finite : ∀ podIP, {requestID | σ.requestPod requestID = some podIP}.Finite ∧
    {t | σ.pc t = .lowering podIP}.Finite
  queue_eq : σ.queueMutex = none →
    ∀ podIP, σ.virtualQueue podIP = σ.tracked podIP + σ.inTransit podIP
  queue_eq_entering : ∀ podIP,
    σ.virtualQueue podIP = σ.tracked podIP + σ.inTransit podIP + σ.entering podIP
  nonneg : ∀ podIP, 0 ≤ σ.virtualQueue podIP
  unclamped : σ.clamped = false

lemma share_entry (podIP : String) (x : Option String) :
    share podIP (x.map (·, 1)) = if x = some podIP then 1 else 0 := by
  cases x with
  | none => rfl
  | some podIP' => simp [share]

lemma share_left (podIP : String) (p : Place) :
    share podIP p.reserving.left = if p = .lowering podIP then 1 else 0 := by
  cases p with
  | lowering | idle | returned | entering => simp [Place.reserving, Reserving.left, share]

open Classical in
lemma share_entered (podIP : String) (p : Place) :
    share podIP p.reserving.entered = if ∃ requestID, p = .entering requestID podIP then 1 else 0 := by
  cases p with
  | entering | idle | returned | lowering => simp [Place.reserving, Reserving.entered, share]

omit [DecidableEq τ] in
lemma Inv.conserved (hσ : σ.Inv) : σ.Conserved := by
  classical
  -- the units of each kind are counted
  have hcount : ∀ podIP, ∃ a b c, Census (fun requestID => σ.requestPod requestID = some podIP) a ∧
      Census (fun t => σ.pc t = .lowering podIP) b ∧
      Census (fun t => ∃ requestID, σ.pc t = .entering requestID podIP) c ∧
      σ.virtualQueue podIP = a + b + c ∧ (σ.queueMutex = none → c = 0) := by
    intro podIP
    obtain ⟨a, b, c, ha, hb, hc, hsum, hmutex⟩ := hσ.reservations.total podIP
    simp only [State.reservations, share_entry] at ha
    simp only [State.reservations, share_left] at hb
    simp only [State.reservations, share_entered] at hc
    exact ⟨a, b, c, ha.census, hb.census, hc.census, hsum, hmutex⟩
  have hall : ∀ podIP, σ.virtualQueue podIP =
      σ.tracked podIP + σ.inTransit podIP + σ.entering podIP := by
    intro podIP
    obtain ⟨a, b, c, ha, hb, hc, hsum, -⟩ := hcount podIP
    rw [hsum, tracked, inTransit, entering, ha.ncard.2, hb.ncard.2, hc.ncard.2]
  refine ⟨?_, ?_, hall, ?_, hσ.unclamped⟩
  · intro podIP
    obtain ⟨a, b, c, ha, hb, -, -, -⟩ := hcount podIP
    exact ⟨ha.ncard.1, hb.ncard.1⟩
  · intro hmutex podIP
    obtain ⟨a, b, c, -, -, hc, -, hzero⟩ := hcount podIP
    rw [hall podIP, entering, hc.ncard.2, hzero hmutex, add_zero]
  · intro podIP
    obtain ⟨a, b, c, ha, hb, hc, hsum, -⟩ := hcount podIP
    have ha' := ha.nonneg
    have hb' := hb.nonneg
    have hc' := hc.nonneg
    omega

end State

/-- **The virtual queues are conserved** along every interleaving in which no request is scored
twice: they are the tracked requests plus the decrements in transit, and the clamp has no effect. -/
theorem queue_conserved (A : LatencyArithmetic F) {es : List (Event τ F)}
    (h : Along (State.step A) State.Fresh ({} : State τ) es) :
    (es.foldl (State.step A) ({} : State τ)).Conserved :=
  (h.invariant State.inv_init fun _ _ hσ hfresh => hσ.step A hfresh).conserved

def exactArithmetic : LatencyArithmetic ℚ where
  minusOne := -1
  zero := 0
  quotient := fun n x => n / x
  le := fun x y => x ≤ y
  lt := fun x y => x < y
  eq := fun x y => x = y

/-- Two requests are scored while a decrement is under way. -/
def crossing : List (Event (Fin 2) ℚ) :=
  let speeds := [⟨"10.0.0.1", 1⟩, ⟨"10.0.0.2", 2⟩].toAList
  let i : Fin 2 := ⟨0, Nat.two_pos⟩
  let j : Fin 2 := ⟨1, Nat.one_lt_two⟩
  [.score i (fun _ => 0) speeds "a", .resume i, .decrement j "a",
    .score i (fun _ => 0) speeds "b", .resume j, .resume i, .resume j]

theorem queue_conserved_crossing :
    Along (State.step exactArithmetic) State.Fresh ({} : State (Fin 2)) crossing ∧
    (crossing.foldl (State.step exactArithmetic) ({} : State (Fin 2))).Conserved :=
  ⟨by decide +kernel, queue_conserved exactArithmetic (by decide +kernel)⟩

/-! ### The least pod -/

/-- What is compared: the latency, then the queue, then the address. -/
def Expected.rank (e : Expected ℚ) : ℚ ×ₗ ℤ ×ₗ String :=
  toLex (e.latency, toLex (e.queue, e.podIP))

def podRank (virtualQueue podBatchSizes : String → ℤ) (pod : Sigma fun _ : String => ℚ) :
    ℚ ×ₗ ℤ ×ₗ String :=
  let queue := podBatchSizes pod.1 + virtualQueue pod.1 + 1
  Expected.rank ⟨queue / pod.2, queue, pod.1⟩

lemma better_exact_iff (e best : Expected ℚ) :
    e.better exactArithmetic best = true ↔ best.latency < 0 ∨ e.rank < best.rank := by
  simp only [Expected.better, exactArithmetic, Expected.rank, Prod.Lex.toLex_lt_toLex,
    Bool.or_eq_true, Bool.and_eq_true, decide_eq_true_eq]
  tauto

variable {virtualQueue podBatchSizes : String → ℤ}

lemma expected_exact {pod : Sigma fun _ : String => ℚ} (hspeed : 0 < pod.2)
    (hqueue : 0 ≤ podBatchSizes pod.1 + virtualQueue pod.1) :
    ∃ e, expected exactArithmetic virtualQueue podBatchSizes pod = some e ∧ 0 ≤ e.latency ∧
      e.rank = podRank virtualQueue podBatchSizes pod := by
  have hcast : (0 : ℚ) ≤ (podBatchSizes pod.1 + virtualQueue pod.1 + 1 : ℤ) :=
    Int.cast_nonneg (by omega)
  refine ⟨⟨_, podBatchSizes pod.1 + virtualQueue pod.1 + 1, pod.1⟩, ?_, div_nonneg hcast hspeed.le, rfl⟩
  simp [expected, exactArithmetic, not_le.mpr hspeed]

/-- **The loop selects the least pod**, in the order of the entries. -/
lemma exists_bestPodIP (podSpeeds : AList fun _ : String => ℚ) (hne : podSpeeds.entries ≠ [])
    (hspeed : ∀ pod ∈ podSpeeds.entries, 0 < pod.2)
    (hqueue : ∀ podIP, 0 ≤ podBatchSizes podIP + virtualQueue podIP) :
    ∃ best ∈ podSpeeds.entries, bestPodIP exactArithmetic virtualQueue podBatchSizes podSpeeds = best.1 ∧
      ∀ pod ∈ podSpeeds.entries, podRank virtualQueue podBatchSizes best ≤
        podRank virtualQueue podBatchSizes pod := by
  have hvalue : ∀ pod ∈ podSpeeds.entries, ∃ e, _ := fun pod hpod =>
    expected_exact (hspeed pod hpod) (hqueue pod.1)
  have hpos : ∀ pod ∈ podSpeeds.entries, ∀ e,
      expected exactArithmetic virtualQueue podBatchSizes pod = some e → ¬ e.latency < 0 := by
    intro pod hpod e he
    obtain ⟨e', he', hlatency, -⟩ := hvalue pod hpod
    exact not_lt.mpr (Option.some.inj (he.symm.trans he') ▸ hlatency)
  -- the latency at the start is worse than any
  obtain ⟨-, hall⟩ := @foldl_keepBest_le _ _ (Expected.better exactArithmetic)
    (expected exactArithmetic virtualQueue podBatchSizes)
    (fun a b => b.latency < 0 ∨ ¬ a.latency < 0 ∧ a.rank ≤ b.rank) (by grind) (by grind) _
    (fun pod hpod e he b hb => ((better_exact_iff e b).mp hb).imp_right fun h =>
      ⟨hpos pod hpod e he, h.le⟩)
    (fun pod hpod e he b hb => by
      have hb := mt (better_exact_iff e b).mpr (by simp [hb])
      push Not at hb
      exact .inr ⟨not_lt.mpr hb.1, hb.2⟩)
    (⟨-1, -1, ""⟩, none)
  rcases @foldl_keepBest_cases _ _ (Expected.better exactArithmetic)
    (expected exactArithmetic virtualQueue podBatchSizes) (⟨-1, -1, ""⟩, none) podSpeeds.entries with hsame | ⟨best, hbest, e, he, hfold⟩
  · obtain ⟨pod, hpod⟩ := exists_mem_of_ne_nil _ hne
    obtain ⟨e, he, -⟩ := hvalue pod hpod
    rw [hsame] at hall
    rcases hall pod hpod e he with h | ⟨h, -⟩
    · exact absurd h (hpos pod hpod e he)
    · exact absurd neg_one_lt_zero h
  · rw [hfold] at hall
    refine ⟨best, hbest, ?_, fun pod hpod => ?_⟩
    · unfold bestPodIP selectBest
      rw [show exactArithmetic.minusOne = -1 from rfl, hfold]
      rfl
    · obtain ⟨e₁, he₁, -, hrank₁⟩ := hvalue best hbest
      obtain ⟨e₂, he₂, -, hrank₂⟩ := hvalue pod hpod
      rw [← hrank₁, ← hrank₂, ← Option.some.inj (he.symm.trans he₁)]
      exact ((hall pod hpod e₂ he₂).resolve_left (hpos pod hpod e₂ he₂)).2

/-- **Exactly computed latencies select the pod that is least** by latency, queue and address, in
whatever order the pods are visited. -/
theorem selects_least (σ : State τ) (t : τ) (podBatchSizes : String → ℤ)
    (podSpeeds : AList fun _ : String => ℚ) (requestID : String) (hne : podSpeeds.entries ≠ [])
    (hname : ∀ pod ∈ podSpeeds.entries, pod.1 ≠ "") (hspeed : ∀ pod ∈ podSpeeds.entries, 0 < pod.2)
    (hbatch : ∀ podIP, 0 ≤ podBatchSizes podIP) (hqueue : ∀ podIP, 0 ≤ σ.virtualQueue podIP) :
    ∃ best ∈ podSpeeds.entries, (∀ pod ∈ podSpeeds.entries, pod ≠ best →
        podRank σ.virtualQueue podBatchSizes best < podRank σ.virtualQueue podBatchSizes pod) ∧
      ∀ order : AList fun _ : String => ℚ, order.entries.Perm podSpeeds.entries →
        (σ.scorePods exactArithmetic t podBatchSizes order requestID).pc t = .entering requestID best.1 := by
  have hsum := fun podIP => add_nonneg (hbatch podIP) (hqueue podIP)
  obtain ⟨best, hbest, -, hleast⟩ := exists_bestPodIP podSpeeds hne hspeed hsum
  have hinj : ∀ pod ∈ podSpeeds.entries, ∀ pod' ∈ podSpeeds.entries,
      podRank σ.virtualQueue podBatchSizes pod = podRank σ.virtualQueue podBatchSizes pod' → pod = pod' := by
    rintro ⟨podIP, speed⟩ hpod ⟨podIP', speed'⟩ hpod' heq
    obtain rfl : podIP = podIP' := congrArg (fun r => (ofLex (ofLex r).2).2) heq
    rw [Option.some.inj ((AList.mem_lookup_iff.mpr hpod).symm.trans (AList.mem_lookup_iff.mpr hpod'))]
  refine ⟨best, hbest, fun pod hpod hpb => (hleast pod hpod).lt_of_ne fun heq =>
    hpb (hinj best hbest pod hpod heq).symm, fun order horder => ?_⟩
  have hmem := fun pod => horder.mem_iff (a := pod)
  obtain ⟨best', hbest', hselect, hleast'⟩ := exists_bestPodIP order
    (fun h => hne (perm_nil.mp (h ▸ horder.symm)))
    (fun pod hpod => hspeed pod ((hmem pod).mp hpod)) hsum
  obtain rfl : best' = best := hinj best' ((hmem _).mp hbest') best hbest
    (le_antisymm (hleast' best ((hmem _).mpr hbest)) (hleast best' ((hmem _).mp hbest')))
  unfold State.scorePods
  rw [hselect, if_neg (hname _ hbest)]
  simp [State.moveTo]

/-- Two pods that share a latency and differ in their queues. -/
def twoPods : AList fun _ : String => ℚ := [⟨"10.0.0.1", 2⟩, ⟨"10.0.0.2", 1⟩].toAList

theorem selects_least_two : ∃ best ∈ twoPods.entries,
    (({} : State Unit).scorePods exactArithmetic () (if · = "10.0.0.1" then 1 else 0) twoPods
      "a").pc () = .entering "a" best.1 := by
  obtain ⟨best, hbest, -, hselect⟩ := selects_least ({} : State Unit) ()
    (if · = "10.0.0.1" then 1 else 0) twoPods "a" (by decide +kernel) (by decide +kernel)
    (by decide +kernel) (fun podIP => by split <;> decide) fun _ => le_rfl
  exact ⟨best, hbest, hselect twoPods (List.Perm.refl _)⟩

end Mooncake
end Lodestar.Utils
