import Lodestar.Gateway.Process
import Lodestar.Lib.Select

/-!
# The targets that the routers publish

The ends of the routers under `pkg/plugins/gateway/algorithms` other than Preble: what each
of them hands to `SetTargetPod`, which takes a nil pointer as well.  Metrics, matches of the
prefix caches, the answers of the routing agent and of the latency predictor and random
numbers are arguments.

Most routers check the target or read a field of it just before they publish it.  Two do
not: the latency predictor after a failed request, and the online-learning router at its
first request.
-/

namespace Lodestar.Gateway

open Lib List

/-- How a call of `Route` ends: with an error, with a panic, or after `SetTargetPod`, where
`none` is a nil pointer. -/
inductive Publication where
  | error (message : String)
  | panicked
  | published (target : Option Pod)

/-! ### Helpers -/

/-- `selectRandomPod`, with the number that `rand.Intn` draws. -/
def selectRandomPod (pods : List Pod) (draw : ℕ) : Except String Pod :=
  let readyPods := filterRoutablePods pods
  match readyPods[draw % readyPods.length]? with
  | none => .error "no ready pods available for fallback"
  | some pod => .ok pod

/-- One of the pods with the least count is drawn and looked up by its key. -/
def leastCount (key : Pod → String) (count : String → ℤ) (pods : List Pod) (draw : ℕ) : Option Pod :=
  let counts := pods.map fun pod => (key pod, count (key pod))
  let minCount := counts.foldl (fun minCount c => if c.2 ≤ minCount then c.2 else minCount) (2 ^ 31 - 1)
  let targetPods := (counts.filter fun c => c.2 = minCount).map Prod.fst
  targetPods[draw % targetPods.length]?.bind fun k => pods.find? fun pod => key pod = k

def selectTargetPodWithLeastRequestCount (count : String → ℤ) (pods : List Pod) (draw : ℕ) :
    Option Pod := leastCount Pod.name count pods draw

def selectTargetPodWithLeastPrefillTokens (count : String → ℤ) (pods : List Pod) (draw : ℕ) :
    Option Pod := leastCount Pod.podIP count pods draw

/-- The end of the routers that draw a pod where they have selected none. -/
def publishOrDraw (message : String) (selected : Option Pod) (pods : List Pod) (draw : ℕ) :
    Publication :=
  let targetPod : Except String (Option Pod) := match selected with
    | some pod => .ok (some pod)
    | none => (selectRandomPod pods draw).map some
  match targetPod with
  | .error err => .error err
  | .ok none => .error message
  | .ok (some pod) => .published (some pod)

/-- The end of the routers that read a field of the target before they publish it. -/
def publishRead : Option Pod → Publication
  | none => .panicked
  | some pod => .published (some pod)

/-! ### The routers -/

inductive RouterCall (κ : Type) where
  | random
  | throughput (le : κ → κ → Bool) (maxFloat64 : κ) (metric : Pod → Option κ)
  | leastKvCache (le : κ → κ → Bool) (maxFloat64 : κ) (metric : Pod → Option κ)
  | leastLatency (le : κ → κ → Bool) (maxFloat64 : κ) (metric : Pod → Option κ)
  | leastBusyTime (lt : κ → κ → Bool) (maxFloat64 : κ) (metric : Pod → Option κ)
  | leastRequest (count : String → ℤ) (draw : ℕ)
  | leastPrefillTokens (count : String → ℤ) (draw : ℕ)
  /-- `matched` is `none` where no pod matches, and `some none` where no match is selected. -/
  | prefixCache (tokenizeError : Option String) (imbalanced : Bool) (matched : Option (Option ℕ))
      (count : String → ℤ) (draw : ℕ)
  | flexiblePrefixCache (tokenizeError : Option String) (subAlgorithm : String) (imbalanced : Bool)
      (matched : Option (Option ℕ)) (count : String → ℤ) (draw : ℕ)
  /-- `best` is `none` where the request to the predictor fails. -/
  | latencyPrediction (tokenizeError : Option String) (best : Option (Option ℕ))
  /-- `running` has the 32-bit counters of the pods, `selected` what the sub-algorithm or the
  routing agent and the fallbacks come to. -/
  | rlOnline (firstRequest : Bool) (running : String → BitVec 32) (draw : ℕ) (selected : Option ℕ)
      (message : String)

namespace RouterCall

variable {κ : Type}

def withAddress (metric : Pod → Option κ) (pod : Pod) : Option κ :=
  if pod.podIP = "" then none else metric pod

def podAt (pods : List Pod) (i : Option ℕ) : Option Pod := i.bind fun i => pods[i]?

/-- `Route`; `drawn` is the random number of the last fallback. -/
def route (pods : List Pod) (drawn : ℕ) : RouterCall κ → Publication
  | random =>
    if pods = [] then .error "no pods to forward request"
    else publishOrDraw "no pods to forward request" none pods drawn
  | throughput le maxFloat64 metric =>
    if pods = [] then .error "no pods to forward request"
    else if filterRoutablePods pods = [] then .error "no ready pods available for fallback"
    else publishOrDraw "no pods to forward request"
      (selectBest le metric maxFloat64 (filterRoutablePods pods)) pods drawn
  | leastKvCache le maxFloat64 metric | leastLatency le maxFloat64 metric =>
    if pods = [] then .error "no pods to forward request"
    else publishOrDraw "no pods to forward request"
      (selectBest le (withAddress metric) maxFloat64 pods) pods drawn
  | leastBusyTime lt maxFloat64 metric =>
    if pods = [] then .error "no available pods for request routing"
    else publishOrDraw "no available pods for request routing"
      (selectBest lt (withAddress metric) maxFloat64 pods) pods drawn
  | leastRequest count draw =>
    publishOrDraw "no pods to forward request"
      (selectTargetPodWithLeastRequestCount count pods draw) pods drawn
  | leastPrefillTokens count draw =>
    publishOrDraw "no pods to forward request"
      (selectTargetPodWithLeastPrefillTokens count pods draw) pods drawn
  | prefixCache tokenizeError imbalanced matched count draw =>
    match tokenizeError with
    | some err => .error err
    | none =>
      -- where the load is imbalanced no matches are asked for
      let targetPod := if imbalanced then none else matched.bind (podAt pods)
      publishRead (targetPod.or (selectTargetPodWithLeastRequestCount count pods draw))
  | flexiblePrefixCache tokenizeError subAlgorithm imbalanced matched count draw =>
    match tokenizeError with
    | some err => .error err
    | none =>
      let leastRequest := selectTargetPodWithLeastRequestCount count pods draw
      if subAlgorithm = "random" then publishRead (selectRandomPod pods drawn).toOption
      else if subAlgorithm = "prefix-cache" then
        match matched with
        | none => publishRead leastRequest
        | some i =>
          if imbalanced then publishRead (leastCount Pod.name count pods drawn |>.or leastRequest)
          else publishRead (podAt pods i)
      -- the address of the nil pointer is read
      else .panicked
  | latencyPrediction tokenizeError best =>
    match pods with
    | [] => .error "no ready pods available"
    | [pod] => .published (some pod)
    | _ =>
      match tokenizeError, best with
      | some err, _ => .error err
      | none, none => .published (selectRandomPod pods drawn).toOption
      | none, some i => publishRead (podAt pods i)
  | rlOnline firstRequest running draw selected message =>
    if firstRequest then
      .published (selectTargetPodWithLeastRequestCount (fun name => (running name).toInt) pods draw)
    else
      match pods with
      | [] => .error "no ready pods available"
      | [pod] => .published (some pod)
      | _ =>
        match podAt pods selected with
        | none => .error message
        | some pod => .published (some pod)

end RouterCall

/-! ### No router publishes a nil pointer -/

/-- The answer that `selectTargetPod` gets is how the call of the router ends. -/
def RouterAnswer.Represents (answer : RouterAnswer) (pods : List Pod) : Publication → Prop
  | .error message => answer = .error message
  | .panicked => answer = .panicked
  | .published target => ∃ i pod, answer = .picked i ∧ pods[i]? = some pod ∧ target = some pod

variable {pods : List Pod} {pod : Pod}

lemma represents_published (h : pod ∈ pods) :
    ∃ answer : RouterAnswer, answer.Represents pods (.published (some pod)) := by
  obtain ⟨i, hi⟩ := mem_iff_getElem?.mp h
  exact ⟨.picked i, i, pod, rfl, hi, rfl⟩

lemma represents_publishRead {target : Option Pod} (h : ∀ pod, target = some pod → pod ∈ pods) :
    ∃ answer : RouterAnswer, answer.Represents pods (publishRead target) := by
  cases target with
  | none => exact ⟨.panicked, rfl⟩
  | some pod => exact represents_published (h pod rfl)

lemma selectRandomPod_mem {draw : ℕ} (h : selectRandomPod pods draw = .ok pod) : pod ∈ pods := by
  unfold selectRandomPod at h
  dsimp only at h
  split at h
  · simp at h
  · rename_i pod' hpod
    obtain rfl := Except.ok.inj h
    exact mem_of_mem_filter (mem_of_getElem? hpod)

lemma exists_drawn {α : Type*} {l : List α} (h : l ≠ []) (draw : ℕ) :
    ∃ x ∈ l, l[draw % l.length]? = some x := by
  have hlen : draw % l.length < l.length := Nat.mod_lt _ (length_pos_iff.mpr h)
  exact ⟨_, getElem_mem hlen, getElem?_eq_getElem hlen⟩

lemma selectRandomPod_isOk (h : filterRoutablePods pods ≠ []) (draw : ℕ) :
    ∃ pod, selectRandomPod pods draw = .ok pod := by
  obtain ⟨pod, -, hdraw⟩ := exists_drawn h draw
  exact ⟨pod, by simp [selectRandomPod, hdraw]⟩

lemma leastCount_mem {key : Pod → String} {count : String → ℤ} {draw : ℕ}
    (h : leastCount key count pods draw = some pod) : pod ∈ pods := by
  obtain ⟨k, -, hfind⟩ := Option.bind_eq_some_iff.mp h
  exact mem_of_find?_eq_some hfind

lemma foldl_min_mem {α : Type*} (f : α → ℤ) (l : List α) (m : ℤ) :
    (∃ x ∈ l, l.foldl (fun m x => if f x ≤ m then f x else m) m = f x) ∨
      l.foldl (fun m x => if f x ≤ m then f x else m) m = m ∧ ∀ x ∈ l, m < f x := by
  induction l generalizing m with
  | nil => exact .inr ⟨rfl, by simp⟩
  | cons a l ih =>
    rw [foldl_cons]
    by_cases hle : f a ≤ m
    · rw [if_pos hle]
      rcases ih (f a) with ⟨x, hx, h⟩ | ⟨h, -⟩
      · exact .inl ⟨x, mem_cons_of_mem _ hx, h⟩
      · exact .inl ⟨a, mem_cons_self, h⟩
    · rw [if_neg hle]
      rcases ih m with ⟨x, hx, h⟩ | ⟨h, hall⟩
      · exact .inl ⟨x, mem_cons_of_mem _ hx, h⟩
      · refine .inr ⟨h, ?_⟩
        rw [forall_mem_cons]
        exact ⟨by omega, hall⟩

lemma leastCount_isSome {key : Pod → String} {count : String → ℤ} (h : pods ≠ [])
    (hcount : ∀ k, count k ≤ 2 ^ 31 - 1) (draw : ℕ) :
    ∃ pod, leastCount key count pods draw = some pod := by
  unfold leastCount
  dsimp only
  generalize hcounts : pods.map (fun pod => (key pod, count (key pod))) = counts
  generalize hmin : counts.foldl (fun m c => if c.2 ≤ m then c.2 else m) (2 ^ 31 - 1) = minCount
  -- the minimum is the count of one of the pods
  have hmem : ∃ c ∈ counts, c.2 = minCount := by
    rcases foldl_min_mem Prod.snd counts (2 ^ 31 - 1) with ⟨c, hc, hval⟩ | ⟨-, habove⟩
    · exact ⟨c, hc, by rw [← hmin, hval]⟩
    · obtain ⟨pod, hpod⟩ := exists_mem_of_ne_nil pods h
      have hfirst := habove (key pod, count (key pod)) (hcounts ▸ mem_map_of_mem hpod)
      have hbound := hcount (key pod)
      omega
  obtain ⟨c, hc, hval⟩ := hmem
  have hne : (counts.filter fun c => c.2 = minCount).map Prod.fst ≠ [] :=
    ne_nil_of_mem (mem_map_of_mem (mem_filter.mpr ⟨hc, by simpa using hval⟩))
  -- the key that is drawn is the key of one of the pods
  obtain ⟨k, hk, hdraw⟩ := exists_drawn hne draw
  obtain ⟨c', hc', rfl⟩ := mem_map.mp hk
  obtain ⟨pod, hpod, hpair⟩ := mem_map.mp (hcounts ▸ mem_of_mem_filter hc')
  have hkey : key pod = c'.1 := congrArg Prod.fst hpair
  rw [hdraw]
  exact Option.isSome_iff_exists.mp (find?_isSome.mpr ⟨pod, hpod, by simpa using hkey⟩)

lemma represents_publishOrDraw (message : String) {selected : Option Pod}
    (h : ∀ pod, selected = some pod → pod ∈ pods) (draw : ℕ) :
    ∃ answer : RouterAnswer, answer.Represents pods (publishOrDraw message selected pods draw) := by
  unfold publishOrDraw
  cases selected with
  | some pod => exact represents_published (h pod rfl)
  | none =>
    cases hdraw : selectRandomPod pods draw with
    | error err => exact ⟨.error err, rfl⟩
    | ok pod => exact represents_published (selectRandomPod_mem hdraw)

lemma represents_error (message : String) :
    ∃ answer : RouterAnswer, answer.Represents pods (.error message) := ⟨.error message, rfl⟩

lemma podAt_mem {i : Option ℕ} (h : RouterCall.podAt pods i = some pod) : pod ∈ pods := by
  obtain ⟨n, -, hn⟩ := Option.bind_eq_some_iff.mp h
  exact mem_of_getElem? hn

lemma toOption_selectRandomPod_mem {draw : ℕ}
    (h : (selectRandomPod pods draw).toOption = some pod) : pod ∈ pods := by
  cases hdraw : selectRandomPod pods draw with
  | error err => simp [hdraw, Except.toOption] at h
  | ok pod' =>
    obtain rfl : pod' = pod := by simpa [hdraw, Except.toOption] using h
    exact selectRandomPod_mem hdraw

/-- **No router publishes a nil pointer**: on routable pods every call fails, panics, or
publishes one of the pods. -/
lemma represents_route {κ : Type} (hpods : pods ≠ []) (hroutable : filterRoutablePods pods = pods)
    (drawn : ℕ) (call : RouterCall κ) :
    ∃ answer : RouterAnswer, answer.Represents pods (call.route pods drawn) := by
  cases call with
  | random =>
    rw [RouterCall.route, if_neg hpods]
    exact represents_publishOrDraw _ (by simp) drawn
  | throughput le maxFloat64 metric =>
    rw [RouterCall.route, if_neg hpods, hroutable, if_neg hpods]
    exact represents_publishOrDraw _ (fun pod => selectBest_mem) drawn
  | leastKvCache | leastLatency | leastBusyTime =>
    rw [RouterCall.route, if_neg hpods]
    exact represents_publishOrDraw _ (fun pod => selectBest_mem) drawn
  | leastRequest count draw => exact represents_publishOrDraw _ (fun pod => leastCount_mem) drawn
  | leastPrefillTokens count draw =>
    exact represents_publishOrDraw _ (fun pod => leastCount_mem) drawn
  | prefixCache tokenizeError imbalanced matched count draw =>
    cases tokenizeError with
    | some err => exact represents_error err
    | none =>
      refine represents_publishRead fun pod hpod => ?_
      rcases Option.or_eq_some_iff.mp hpod with hpod | ⟨-, hpod⟩
      · split at hpod
        · simp at hpod
        · obtain ⟨i, -, hi⟩ := Option.bind_eq_some_iff.mp hpod
          exact podAt_mem hi
      · exact leastCount_mem hpod
  | flexiblePrefixCache tokenizeError subAlgorithm imbalanced matched count draw =>
    cases tokenizeError with
    | some err => exact represents_error err
    | none =>
      simp only [RouterCall.route]
      split
      · exact represents_publishRead fun pod => toOption_selectRandomPod_mem
      · split
        · cases matched with
          | none => exact represents_publishRead fun pod => leastCount_mem
          | some i =>
            dsimp only
            split
            · refine represents_publishRead fun pod hpod => ?_
              rcases Option.or_eq_some_iff.mp hpod with hpod | ⟨-, hpod⟩
              · exact leastCount_mem hpod
              · exact leastCount_mem hpod
            · exact represents_publishRead fun pod => podAt_mem
        · exact ⟨.panicked, rfl⟩
  | latencyPrediction tokenizeError best =>
    simp only [RouterCall.route]
    split
    · exact absurd rfl hpods
    · exact represents_published mem_cons_self
    · split
      · exact represents_error _
      · -- the fallback of the predictor is not checked
        obtain ⟨pod, hpod⟩ := selectRandomPod_isOk (hroutable.symm ▸ hpods) drawn
        rw [hpod]
        exact represents_published (selectRandomPod_mem hpod)
      · exact represents_publishRead fun pod => podAt_mem
  | rlOnline firstRequest running draw selected message =>
    simp only [RouterCall.route]
    split
    · -- neither is the target of the first request, but the counters have 32 bits
      have hbound : ∀ name, (running name).toInt ≤ 2 ^ 31 - 1 := by
        intro name
        have hlt := BitVec.toInt_lt (x := running name)
        omega
      obtain ⟨pod, hpod⟩ : ∃ pod, selectTargetPodWithLeastRequestCount
          (fun name => (running name).toInt) pods draw = some pod := leastCount_isSome hpods hbound draw
      rw [hpod]
      exact represents_published (leastCount_mem hpod)
    · split
      · exact represents_error _
      · exact represents_published mem_cons_self
      · split
        · exact represents_error _
        · rename_i pod hpod
          exact represents_published (podAt_mem hpod)

end Lodestar.Gateway
