import Lodestar.Lib.Reservation
import Lodestar.Lib.Run
import Lodestar.Lib.Select

/-!
# The accounting of the LMETRIC router

`LMetricScorePods` selects the pod with the smallest score, adds the tokens that the request is going
to prefill there to what the pod has accumulated, and writes them down under the request.  When the
prefill is done, or the selection is overridden, the entry is removed and the tokens are taken off
again.  The locking is that of the virtual queue of Mooncake, but the entries do not name the pod:
the callers do.

Hit ratios are percentages, so the tokens of a request are never negative.  Overflow of the 64-bit
scores is left out.
-/

namespace Lodestar.Utils.LMetric

open Lib Function
variable {τ : Type}

/-! ### The selection -/

def newTokens (numInputTokens : ℕ) (kvHitPercent : Fin 101) : ℕ :=
  numInputTokens * (100 - kvHitPercent) / 100

structure Scored where
  score : ℤ
  bs : ℤ

def Scored.better (s best : Scored) : Bool :=
  best.score < 0 ∨ s.score < best.score ∨ (s.score = best.score ∧ s.bs < best.bs)

section

variable (podNewPrefillTokens : String → ℤ) (numInputTokens : ℕ)

def scored (podBatchSizes : String → ℕ) (pod : Sigma fun _ : String => Fin 101) : Scored :=
  let pTokens := podNewPrefillTokens pod.1 + newTokens numInputTokens pod.2
  let bs : ℤ := podBatchSizes pod.1 + 1
  ⟨pTokens * bs, bs⟩

/-- The loop of `LMetricScorePods`, in the order of the entries. -/
def bestPodIP
    (podIPsWithMatchingRatios : AList fun _ : String => Fin 101) (podBatchSizes : String → ℕ) : String :=
  let best := selectBest Scored.better
    (fun pod => some (scored podNewPrefillTokens numInputTokens podBatchSizes pod)) ⟨-1, -1⟩
    podIPsWithMatchingRatios.entries
  (best.map Sigma.fst).getD ""

/-- The pod is one of the candidates, and none has a smaller score. -/
def Minimal
    (podIPsWithMatchingRatios : AList fun _ : String => Fin 101) (podBatchSizes : String → ℕ)
    (podIP : String) : Prop :=
  ∃ hit, podIPsWithMatchingRatios.lookup podIP = some hit ∧
    ∀ pod ∈ podIPsWithMatchingRatios.entries,
      (scored podNewPrefillTokens numInputTokens podBatchSizes ⟨podIP, hit⟩).score ≤
        (scored podNewPrefillTokens numInputTokens podBatchSizes pod).score

end

namespace Scored

/-- The other score is the start of the loop, or it is not smaller. -/
def NotWorse (s best : Scored) : Prop := best.score < 0 ∨ 0 ≤ s.score ∧ s.score ≤ best.score

variable {s best : Scored}

lemma notWorse_refl (s : Scored) : s.NotWorse s := by
  unfold NotWorse
  omega

lemma notWorse_trans (a b c : Scored) (hab : a.NotWorse b) (hbc : b.NotWorse c) : a.NotWorse c := by
  unfold NotWorse at *
  omega

lemma notWorse_of_better (hs : 0 ≤ s.score) (h : s.better best = true) : s.NotWorse best := by
  unfold NotWorse
  simp only [better, decide_eq_true_eq] at h
  omega

lemma notWorse_of_not_better (h : s.better best = false) : best.NotWorse s := by
  unfold NotWorse
  simp only [better, decide_eq_false_iff_not] at h
  omega

end Scored

section

variable {podNewPrefillTokens : String → ℤ} (numInputTokens : ℕ)
  (podIPsWithMatchingRatios : AList fun _ : String => Fin 101) (podBatchSizes : String → ℕ)

lemma scored_nonneg (h : ∀ podIP, 0 ≤ podNewPrefillTokens podIP)
    (pod : Sigma fun _ : String => Fin 101) :
    0 ≤ (scored podNewPrefillTokens numInputTokens podBatchSizes pod).score := by
  have htokens := h pod.1
  exact mul_nonneg (by positivity) (by positivity)

/-- **The selected pod has the smallest score**, as long as the pods have accumulated nothing
negative: then the first score replaces the -1 that the loop starts with, and no later one does so
only because of it. -/
lemma bestPodIP_minimal (h : ∀ podIP, 0 ≤ podNewPrefillTokens podIP)
    (hbest : bestPodIP podNewPrefillTokens numInputTokens podIPsWithMatchingRatios podBatchSizes ≠ "") :
    Minimal podNewPrefillTokens numInputTokens podIPsWithMatchingRatios podBatchSizes
      (bestPodIP podNewPrefillTokens numInputTokens podIPsWithMatchingRatios podBatchSizes) := by
  have hnonneg := scored_nonneg numInputTokens podBatchSizes h
  unfold bestPodIP at hbest ⊢
  cases hselect : selectBest Scored.better
      (fun pod => some (scored podNewPrefillTokens numInputTokens podBatchSizes pod)) ⟨-1, -1⟩
      podIPsWithMatchingRatios.entries with
  | none => simp [hselect] at hbest
  | some pod =>
    obtain ⟨v, hv, hall⟩ := selectBest_best Scored.notWorse_refl Scored.notWorse_trans hselect
      (fun x _ v hx b hb => Scored.notWorse_of_better (Option.some.inj hx ▸ hnonneg x) hb)
      (fun x _ v _ b hb => Scored.notWorse_of_not_better hb)
    obtain rfl := Option.some.inj hv
    refine ⟨pod.2, AList.mem_lookup_iff.mpr (selectBest_mem hselect), ?_⟩
    intro pod' hpod'
    rcases hall pod' hpod' _ rfl with hneg | ⟨-, hle⟩
    · exact absurd (hnonneg pod') (not_le.mpr hneg)
    · exact hle

end

/-! ### Calls -/

inductive Result where
  | scored (selected : Option String)
  | decremented (newTokens : ℕ)
  | rolledBack (done : Bool)
  deriving DecidableEq

inductive Place where
  | idle
  /-- The tokens are added, the entry is not written, the mutex of the pods is held. -/
  | entering (requestID podIP : String) (newTokens : ℕ)
  /-- The entry is removed, the tokens are not taken off; `result` is what the call will return. -/
  | lowering (podIP : String) (newTokens : ℕ) (result : Result)
  | returned (result : Result)
  deriving DecidableEq

def Place.free : Place → Bool
  | .idle | .returned _ => true
  | .entering _ _ _ | .lowering _ _ _ => false

def Place.reserving : Place → Reserving String String
  | .entering requestID podIP newTokens => .entering requestID (podIP, newTokens)
  | .lowering podIP newTokens _ => .leaving (podIP, newTokens)
  | .idle | .returned _ => .outside

lemma Place.reserving_of_free {p : Place} (h : p.free = true) : p.reserving = .outside := by
  cases p with
  | idle | returned => rfl
  | entering | lowering => simp [Place.free] at h

/-- An entry of `requestNewPrefillTokens`.  The pod is not part of the program: it is the one to
which the request was selected. -/
structure Entry where
  podIP : String
  newTokens : ℕ
  deriving DecidableEq

def Entry.amount (entry : Entry) : String × ℕ := (entry.podIP, entry.newTokens)

/-- The maps of the package with the threads that use them.  `requests` and `clamped` are not part of
the program: the requests that were scored, and whether tokens were ever clamped. -/
structure State (τ : Type) where
  podNewPrefillTokens : String → ℤ := fun _ => 0
  requestNewPrefillTokens : String → Option Entry := fun _ => none
  podMutex : Option τ := none
  pc : τ → Place := fun _ => .idle
  requests : List String := []
  clamped : Bool := false

inductive Event (τ : Type) where
  | score (t : τ) (numInputTokens : ℕ) (podIPsWithMatchingRatios : AList fun _ : String => Fin 101)
      (podBatchSizes : String → ℕ) (requestID : String)
  | decrement (t : τ) (requestID podIP : String)
  | rollback (t : τ) (requestID originalPodIP : String)
  | resume (t : τ)

variable [DecidableEq τ]

namespace State

section

variable (σ : State τ)

def moveTo (t : τ) (p : Place) : State τ := { σ with pc := update σ.pc t p }

/-- `LMetricScorePods` until the tokens are added. -/
def scorePods (t : τ) (numInputTokens : ℕ)
    (podIPsWithMatchingRatios : AList fun _ : String => Fin 101) (podBatchSizes : String → ℕ)
    (requestID : String) : State τ :=
  let best := bestPodIP σ.podNewPrefillTokens numInputTokens podIPsWithMatchingRatios podBatchSizes
  if best = "" then σ.moveTo t (.returned (.scored none))
  else
    let selectedKVHit := (podIPsWithMatchingRatios.lookup best).getD 0
    let tokens := newTokens numInputTokens selectedKVHit
    { σ.moveTo t (.entering requestID best tokens) with
      podNewPrefillTokens :=
        update σ.podNewPrefillTokens best (σ.podNewPrefillTokens best + tokens)
      podMutex := some t
      requests := requestID :: σ.requests }

/-- The rest of `LMetricScorePods`. -/
def writeEntry (t : τ) (requestID podIP : String) (tokens : ℕ) : State τ :=
  { σ.moveTo t (.returned (.scored (some podIP))) with
    requestNewPrefillTokens := update σ.requestNewPrefillTokens requestID (some ⟨podIP, tokens⟩)
    podMutex := none }

/-- The entry is removed, under the mutex of the entries. -/
def removeEntry (t : τ) (requestID : String) (p : Place) : State τ :=
  { σ.moveTo t p with
    requestNewPrefillTokens := update σ.requestNewPrefillTokens requestID none }

/-- `DecrementNewPrefillTokensForRequest` until the entry is removed. -/
def decrementNewPrefillTokensForRequest (t : τ) (requestID podIP : String) : State τ :=
  match σ.requestNewPrefillTokens requestID with
  | none => σ.moveTo t (.returned (.decremented 0))
  | some entry =>
    σ.removeEntry t requestID (.lowering podIP entry.newTokens (.decremented entry.newTokens))

/-- `RollbackLMetricForRequest` until the entry is removed; without tokens it ends there. -/
def rollbackLMetricForRequest (t : τ) (requestID originalPodIP : String) : State τ :=
  match σ.requestNewPrefillTokens requestID with
  | none => σ.moveTo t (.returned (.rolledBack false))
  | some entry =>
    if entry.newTokens = 0 then σ.removeEntry t requestID (.returned (.rolledBack false))
    else σ.removeEntry t requestID (.lowering originalPodIP entry.newTokens (.rolledBack true))

/-- The rest of both: the tokens are taken off, and clamped if they are negative. -/
def lowerTokens (t : τ) (podIP : String) (tokens : ℕ) (result : Result) : State τ :=
  let lowered := σ.podNewPrefillTokens podIP - tokens
  { σ.moveTo t (.returned result) with
    podNewPrefillTokens :=
      update σ.podNewPrefillTokens podIP (if lowered < 0 then 0 else lowered)
    clamped := σ.clamped || lowered < 0 }

def step : Event τ → State τ
  | .score t numInputTokens podIPsWithMatchingRatios podBatchSizes requestID =>
    if (σ.pc t).free = true ∧ σ.podMutex = none then
      σ.scorePods t numInputTokens podIPsWithMatchingRatios podBatchSizes requestID
    else σ
  | .decrement t requestID podIP =>
    if (σ.pc t).free then σ.decrementNewPrefillTokensForRequest t requestID podIP else σ
  | .rollback t requestID originalPodIP =>
    if (σ.pc t).free then σ.rollbackLMetricForRequest t requestID originalPodIP else σ
  | .resume t =>
    match σ.pc t with
    | .entering requestID podIP tokens => σ.writeEntry t requestID podIP tokens
    | .lowering podIP tokens result =>
      if σ.podMutex = none then σ.lowerTokens t podIP tokens result else σ
    | .idle | .returned _ => σ

/-- The pod that a caller names is the one to which the request was selected. -/
def Named (requestID podIP : String) : Prop :=
  ∀ entry, σ.requestNewPrefillTokens requestID = some entry → entry.podIP = podIP

/-- No request is scored twice, and a request is released with the pod to which it was selected. -/
def Proper : Event τ → Prop
  | .score _ _ _ _ requestID => requestID ∉ σ.requests
  | .decrement _ requestID podIP => σ.Named requestID podIP
  | .rollback _ requestID originalPodIP => σ.Named requestID originalPodIP
  | .resume _ => True

/-- A pod with which a call enters has the smallest score at that moment. -/
def SelectsMinimal (e : Event τ) : Prop :=
  match e with
  | .score t numInputTokens podIPsWithMatchingRatios podBatchSizes requestID =>
    (σ.pc t).free = true → ∀ podIP tokens, (σ.step e).pc t = .entering requestID podIP tokens →
      Minimal σ.podNewPrefillTokens numInputTokens podIPsWithMatchingRatios podBatchSizes podIP
  | .decrement _ _ _ | .rollback _ _ _ | .resume _ => True

/-! ### The tokens as reservations -/

/-- The reservations: a request has its tokens of what its pod has accumulated. -/
def reservations : Reservations String String τ where
  level := σ.podNewPrefillTokens
  entries := fun requestID => (σ.requestNewPrefillTokens requestID).map Entry.amount
  mutex := σ.podMutex
  place := fun t => (σ.pc t).reserving
  used := {requestID | requestID ∈ σ.requests}

end

variable {σ : State τ} {t : τ} {requestID podIP : String} {tokens : ℕ} {result : Result}

lemma place_update (σ : State τ) (t : τ) (p : Place) :
    (fun t' => (update σ.pc t p t').reserving) =
      update σ.reservations.place t p.reserving :=
  comp_update Place.reserving σ.pc t p

omit [DecidableEq τ] in
lemma entries_update (σ : State τ) (requestID : String) (x : Option Entry) :
    (fun r => (update σ.requestNewPrefillTokens requestID x r).map Entry.amount) =
      update σ.reservations.entries requestID (x.map Entry.amount) :=
  comp_update (Option.map Entry.amount) σ.requestNewPrefillTokens requestID x

lemma place_returned (hfree : (σ.pc t).free = true) (result : Result) :
    (fun t' => (update σ.pc t (.returned result) t').reserving) = σ.reservations.place := by
  have hplace : σ.reservations.place t = .outside := Place.reserving_of_free hfree
  rw [place_update, Place.reserving, update_eq_self_iff.mpr hplace.symm]

lemma returned_move (hfree : (σ.pc t).free = true) (result : Result) :
    Reservations.Move σ.reservations (σ.moveTo t (.returned result)).reservations := by
  refine .idle ?_
  simp [moveTo, reservations, place_returned hfree]

lemma scorePods_move (hfree : (σ.pc t).free = true) (hmutex : σ.podMutex = none)
    (hnew : requestID ∉ σ.requests) (numInputTokens : ℕ)
    (podIPsWithMatchingRatios : AList fun _ : String => Fin 101) (podBatchSizes : String → ℕ) :
    Reservations.Move σ.reservations
      (σ.scorePods t numInputTokens podIPsWithMatchingRatios podBatchSizes requestID).reservations := by
  unfold scorePods
  dsimp only
  split
  · exact returned_move hfree _
  generalize bestPodIP σ.podNewPrefillTokens numInputTokens podIPsWithMatchingRatios podBatchSizes = best
  generalize newTokens numInputTokens ((podIPsWithMatchingRatios.lookup best).getD 0) = tokens
  refine .raise t requestID (best, tokens) (Place.reserving_of_free hfree) hmutex hnew ?_
  have hused : {r | r ∈ requestID :: σ.requests} = insert requestID {r | r ∈ σ.requests} := by
    ext r
    simp
  simp only [moveTo, reservations, place_update, hused]
  rfl

lemma writeEntry_move (hpc : σ.pc t = .entering requestID podIP tokens) :
    Reservations.Move σ.reservations (σ.writeEntry t requestID podIP tokens).reservations := by
  refine .enter t requestID (podIP, tokens) (congrArg Place.reserving hpc) ?_
  simp only [writeEntry, moveTo, reservations, place_update, entries_update]
  rfl

lemma removeEntry_move (hfree : (σ.pc t).free = true) {entry : Entry}
    (hentry : σ.requestNewPrefillTokens requestID = some entry) (result : Result) :
    Reservations.Move σ.reservations
      (σ.removeEntry t requestID (.lowering entry.podIP entry.newTokens result)).reservations := by
  refine .remove t requestID entry.amount (Place.reserving_of_free hfree)
    (congrArg (Option.map Entry.amount) hentry) ?_
  simp only [removeEntry, moveTo, reservations, place_update, entries_update]
  rfl

lemma decrement_move (hfree : (σ.pc t).free = true) (hnamed : σ.Named requestID podIP) :
    Reservations.Move σ.reservations
      (σ.decrementNewPrefillTokensForRequest t requestID podIP).reservations := by
  unfold decrementNewPrefillTokensForRequest
  split
  · exact returned_move hfree _
  · rename_i entry hentry
    rw [← hnamed entry hentry]
    exact removeEntry_move hfree hentry _

attribute [local simp] reservations

lemma rollback_move (hfree : (σ.pc t).free = true) (hnamed : σ.Named requestID podIP) :
    Reservations.Move σ.reservations (σ.rollbackLMetricForRequest t requestID podIP).reservations := by
  unfold rollbackLMetricForRequest
  split
  · exact returned_move hfree _
  · rename_i entry hentry
    split
    · -- an entry without tokens just goes away
      rename_i hzero
      have hentries : σ.reservations.entries requestID = some (entry.podIP, 0) := by
        simp [hentry, hzero, Entry.amount]
      refine .discard requestID entry.podIP hentries ?_
      simp only [removeEntry, moveTo, reservations, place_returned hfree, entries_update]
      rfl
    · rw [← hnamed entry hentry]
      exact removeEntry_move hfree hentry _

omit [DecidableEq τ] in
lemma not_negative (hσ : σ.reservations.Inv) (hpc : σ.pc t = .lowering podIP tokens result) :
    ¬ σ.podNewPrefillTokens podIP - tokens < 0 := by
  have hle : (tokens : ℤ) ≤ σ.podNewPrefillTokens podIP :=
    hσ.le_level (congrArg Place.reserving hpc)
  omega

lemma lowerTokens_move (hσ : σ.reservations.Inv) (hpc : σ.pc t = .lowering podIP tokens result) :
    Reservations.Move σ.reservations (σ.lowerTokens t podIP tokens result).reservations := by
  refine .lower t (podIP, tokens) (congrArg Place.reserving hpc) ?_
  simp only [lowerTokens, moveTo, reservations, place_update, if_neg (not_negative hσ hpc)]
  rfl

/-- **One event** is a step of the protocol of reservations. -/
lemma step_move (hσ : σ.reservations.Inv) {e : Event τ} (hproper : Proper σ e) :
    Reservations.Move σ.reservations (σ.step e).reservations := by
  cases e with
  | score t numInputTokens podIPsWithMatchingRatios podBatchSizes requestID =>
    rw [State.step]
    split
    · rename_i h
      exact scorePods_move h.1 h.2 hproper numInputTokens podIPsWithMatchingRatios podBatchSizes
    · exact .idle rfl
  | decrement t requestID podIP =>
    rw [State.step]
    split
    · rename_i hfree
      exact decrement_move hfree hproper
    · exact .idle rfl
  | rollback t requestID originalPodIP =>
    rw [State.step]
    split
    · rename_i hfree
      exact rollback_move hfree hproper
    · exact .idle rfl
  | resume t =>
    rw [State.step]
    split
    · rename_i requestID podIP tokens hpc
      exact writeEntry_move hpc
    · rename_i podIP tokens result hpc
      split
      · exact lowerTokens_move hσ hpc
      · exact .idle rfl
    · exact .idle rfl
    · exact .idle rfl

lemma step_clamped (hσ : σ.reservations.Inv) (e : Event τ) : (σ.step e).clamped = σ.clamped := by
  cases e with
  | score | decrement | rollback =>
    simp only [State.step, scorePods, decrementNewPrefillTokensForRequest, rollbackLMetricForRequest]
    repeat' split
    all_goals rfl
  | resume t =>
    rw [State.step]
    split
    · rfl
    · rename_i podIP tokens result hpc
      split
      · simp [lowerTokens, not_negative hσ hpc]
      · rfl
    · rfl
    · rfl

structure Inv (σ : State τ) : Prop where
  reservations : σ.reservations.Inv
  unclamped : σ.clamped = false

lemma Inv.step (hσ : σ.Inv) {e : Event τ} (hproper : Proper σ e) : (σ.step e).Inv :=
  ⟨hσ.reservations.move (step_move hσ.reservations hproper),
    (step_clamped hσ.reservations e).trans hσ.unclamped⟩

omit [DecidableEq τ] in
lemma inv_init : ({} : State τ).Inv := ⟨Reservations.inv_empty _, rfl⟩

/-! ### The tokens -/

def trackedTokens (σ : State τ) (podIP requestID : String) : ℤ :=
  match σ.requestNewPrefillTokens requestID with
  | some entry => if entry.podIP = podIP then entry.newTokens else 0
  | none => 0

/-- The tokens that a call which has removed an entry is to take off the pod. -/
def transitTokens (σ : State τ) (podIP : String) (t : τ) : ℤ :=
  match σ.pc t with
  | .lowering podIP' tokens _ => if podIP' = podIP then tokens else 0
  | .idle | .entering _ _ _ | .returned _ => 0

/-- The tokens that a call has added to the pod without having written the entry. -/
def enteringTokens (σ : State τ) (podIP : String) (t : τ) : ℤ :=
  match σ.pc t with
  | .entering _ podIP' tokens => if podIP' = podIP then tokens else 0
  | .idle | .lowering _ _ _ | .returned _ => 0

/-- The tokens are conserved: they are sums with finitely many terms other than 0.  A scoring call
between its two updates holds the mutex of the pods, so nobody sees the tokens at that time. -/
structure Conserved (σ : State τ) : Prop where
  finite : ∀ podIP, (Function.support (σ.trackedTokens podIP)).Finite ∧
    (Function.support (σ.transitTokens podIP)).Finite
  tokens_eq : σ.podMutex = none → ∀ podIP, σ.podNewPrefillTokens podIP =
    ∑ᶠ requestID, σ.trackedTokens podIP requestID + ∑ᶠ t, σ.transitTokens podIP t
  tokens_eq_entering : ∀ podIP, σ.podNewPrefillTokens podIP =
    ∑ᶠ requestID, σ.trackedTokens podIP requestID + ∑ᶠ t, σ.transitTokens podIP t +
      ∑ᶠ t, σ.enteringTokens podIP t
  nonneg : ∀ podIP, 0 ≤ σ.podNewPrefillTokens podIP
  unclamped : σ.clamped = false

omit [DecidableEq τ] in
lemma share_entries (σ : State τ) (podIP : String) :
    (fun r => share podIP (σ.reservations.entries r)) = σ.trackedTokens podIP := by
  funext r
  cases hr : σ.requestNewPrefillTokens r with
  | none => simp [trackedTokens, hr, share]
  | some entry => simp [trackedTokens, hr, Entry.amount, share]

omit [DecidableEq τ] in
lemma share_left (σ : State τ) (podIP : String) :
    (fun t => share podIP (σ.reservations.place t).left) = σ.transitTokens podIP := by
  funext t
  cases ht : σ.pc t <;>
    simp [transitTokens, ht, Place.reserving, Reserving.left, share]

omit [DecidableEq τ] in
lemma share_entered (σ : State τ) (podIP : String) :
    (fun t => share podIP (σ.reservations.place t).entered) = σ.enteringTokens podIP := by
  funext t
  cases ht : σ.pc t <;>
    simp [enteringTokens, ht, Place.reserving, Reserving.entered, share]

omit [DecidableEq τ] in
lemma Inv.nonneg (hσ : σ.Inv) (podIP : String) : 0 ≤ σ.podNewPrefillTokens podIP :=
  hσ.reservations.balanced.nonneg podIP

omit [DecidableEq τ] in
lemma Inv.conserved (hσ : σ.Inv) : σ.Conserved := by
  have hall : ∀ podIP, ∃ a b c, Total (σ.trackedTokens podIP) a ∧ Total (σ.transitTokens podIP) b ∧
      Total (σ.enteringTokens podIP) c ∧ σ.podNewPrefillTokens podIP = a + b + c ∧
      (σ.podMutex = none → c = 0) := by
    intro podIP
    have htotal := hσ.reservations.total podIP
    rwa [share_entries, share_left, share_entered] at htotal
  refine ⟨?_, ?_, ?_, hσ.nonneg, hσ.unclamped⟩
  · intro podIP
    obtain ⟨a, b, c, ha, hb, -, -, -⟩ := hall podIP
    exact ⟨ha.finite_support, hb.finite_support⟩
  · intro hmutex podIP
    obtain ⟨a, b, c, ha, hb, -, hsum, hzero⟩ := hall podIP
    rw [hsum, ha.finsum_eq, hb.finsum_eq, hzero hmutex, add_zero]
  · intro podIP
    obtain ⟨a, b, c, ha, hb, hc, hsum, -⟩ := hall podIP
    rw [hsum, ha.finsum_eq, hb.finsum_eq, hc.finsum_eq]

lemma Inv.selectsMinimal (hσ : σ.Inv) (e : Event τ) : σ.SelectsMinimal e := by
  cases e with
  | score t numInputTokens podIPsWithMatchingRatios podBatchSizes requestID =>
    intro hfree podIP tokens hpc
    rw [State.step] at hpc
    split at hpc
    · unfold scorePods at hpc
      dsimp only at hpc
      split at hpc
      · simp [moveTo] at hpc
      · rename_i hbest
        obtain ⟨rfl, -⟩ : _ = podIP ∧ _ = tokens := by simpa [moveTo] using hpc
        exact bestPodIP_minimal numInputTokens podIPsWithMatchingRatios podBatchSizes hσ.nonneg hbest
    · rw [hpc] at hfree
      exact Bool.noConfusion hfree
  | decrement | rollback | resume => exact trivial

end State

/-- **The accumulated tokens are conserved** along every interleaving in which no request is scored
twice and each is released with the pod to which it was selected: they are the tokens of the tracked
requests plus those in transit, never negative, and every selection is minimal when it is made. -/
theorem tokens_conserved {es : List (Event τ)}
    (h : Along State.step State.Proper ({} : State τ) es) :
    (es.foldl State.step ({} : State τ)).Conserved ∧
      Along State.step State.SelectsMinimal ({} : State τ) es := by
  refine ⟨?_, ?_⟩
  · exact (h.invariant State.inv_init fun _ _ hσ hproper => hσ.step hproper).conserved
  · exact h.imp_of_invariant State.inv_init (fun _ _ hσ hproper => hσ.step hproper)
      fun _ e hσ _ => hσ.selectsMinimal e

instance (σ : State τ) (requestID podIP : String) : Decidable (σ.Named requestID podIP) :=
  match h : σ.requestNewPrefillTokens requestID with
  | none => isTrue fun entry hentry => by simp [h] at hentry
  | some entry => decidable_of_iff (entry.podIP = podIP) (by simp [State.Named, h])

instance (σ : State τ) : ∀ e : Event τ, Decidable (σ.Proper e)
  | .score _ _ _ _ requestID => inferInstanceAs (Decidable (requestID ∉ σ.requests))
  | .decrement _ requestID podIP => inferInstanceAs (Decidable (σ.Named requestID podIP))
  | .rollback _ requestID originalPodIP => inferInstanceAs (Decidable (σ.Named requestID originalPodIP))
  | .resume _ => isTrue trivial

def crossing : List (Event (Fin 2)) :=
  let ratios := [⟨"10.0.0.1", 50⟩, ⟨"10.0.0.2", 0⟩].toAList
  let i : Fin 2 := ⟨0, Nat.two_pos⟩
  let j : Fin 2 := ⟨1, Nat.one_lt_two⟩
  [.score i 8 ratios (fun _ => 0) "a", .resume i, .decrement j "a" "10.0.0.1",
    .score i 8 ratios (fun _ => 0) "b", .resume j, .resume i, .resume j]

theorem tokens_conserved_crossing : Along State.step State.Proper ({} : State (Fin 2)) crossing ∧
    (crossing.foldl State.step ({} : State (Fin 2))).Conserved ∧
    Along State.step State.SelectsMinimal ({} : State (Fin 2)) crossing :=
  ⟨by decide +kernel, tokens_conserved (by decide +kernel)⟩

end Lodestar.Utils.LMetric
