import Lodestar.Agent.PodText
import Lodestar.Gateway.Request

/-!
# Answering an inference message

`handle_infer` of `agent_codes/routing_agent_service.py`.  The handler replaces the addresses of the
pods in the message by names, reads the fields, runs the model, and returns the address of the pod
that the model selects.  It looks at the request ID for the log only, but does so by `int`, and an
exception anywhere becomes a reply with status 500.

What the model computes from the fields is left open, and so are the decisions of the monitors; the
predicted rewards are rational numbers.
-/

namespace Lodestar.Agent

open Lib List

/-! ### The request ID -/

/-- What `int` takes for a space: unlike `str.strip`, it keeps U+001C to U+001F. -/
def intSpace (py : Characters) (c : Char) : Bool :=
  if c.toNat < 128 then c.toNat = 32 || 9 ≤ c.toNat && c.toNat ≤ 13 else py.isSpace c

def strip (py : Characters) (t : Text) : Text :=
  ((t.dropWhile (intSpace py)).reverse.dropWhile (intSpace py)).reverse

def signed : Text → Bool × Text
  | '-' :: t => (true, t)
  | '+' :: t => (false, t)
  | t => (false, t)

/-- `int` of a text: spaces around it, a sign, and underscores between digits are allowed, but
no more than 4300 digits. -/
def pyInt (py : Characters) (s : Text) : Option ℤ :=
  let (negative, digits) := signed (strip py s)
  let groups := digits.splitOn '_'
  if groups.any List.isEmpty || 4300 < groups.flatten.length then none
  else (natValue py.toDigits groups.flatten).map fun n => if negative then -(n : ℤ) else n

def beforeFirst (pattern : Text) : Text → Text
  | [] => []
  | c :: t => if pattern.isPrefixOf (c :: t) then [] else c :: beforeFirst pattern t

/-- The request ID that the handler takes from the message, between two occurrences of its title. -/
def requestIdOf (logMessage : Text) : Text :=
  match afterFirst "requestID@".toList logMessage with
  | none => "default".toList
  | some t => (beforeFirst "requestID@".toList t).takeWhile (· ≠ '@')

/-! ### The model -/

/-- What the model says; not every model predicts rewards. -/
structure Inference where
  selectedPodIndex : ℕ
  predictedRewards : Option (List ℚ)
  explored : Bool

/-- `preprocess_inference_fast`, `normalize_features_batch_inference`, and the models with the encoding
before them.  An exception is `none`. -/
structure Model (F : Type) where
  preprocess : Row → List GeneralPodId → Option F
  normalize : F → Option F
  latencyPredictor : F → List GeneralPodId → Option Inference
  rewardPredictor : F → List GeneralPodId → Option Inference

inductive PyError where
  | assertion
  | invalidLiteral (literal : Text)
  | unreadableMessage
  | notADictionary
  | model
  | noSuchPod
  deriving DecidableEq

/-- The parts of a successful reply that depend on the request. -/
structure Answer where
  selectedPod : PodIP
  selectedPodGeneralpodid : GeneralPodId
  exploration : Bool
  requestId : Text
  oodFallback : ℕ
  deriving DecidableEq

inductive Failure where
  | error (status : ℕ) (message : String)
  /-- An exception, with status 500. -/
  | raised (e : PyError)
  deriving DecidableEq

structure InferService (F : Type) where
  initDone : Bool
  routingStrategy : String
  lodestarPreloaded : Bool
  /-- `stats_instance`, by its count. -/
  stats : Option ℕ
  registry : PodRegistry
  targetGpuModel : Option Text
  model : Model F
  rewardSimilarityThreshold : ℚ
  loadPretrainedModel : Bool
  retrainAtStartup : Bool
  fixedRange : Bool
  numTrains : ℕ

structure InferEnv where
  gpuMap : GpuMap
  oodDetected : Bool
  /-- The hash of the prefix and the number of candidates, if the filter by prefix groups applies. -/
  prefixGroup : Option (ℤ × ℕ)
  hash : ℕ → ℤ → ℕ
  draw : ℕ

inductive Body where
  | text (message : Text)
  | object (members : List (Text × Text))

/-- The message in a body; an object must have a single member. -/
def Body.logMessage : Body → Option Text
  | .text message => some message
  | .object [(_, message)] => some message
  | .object _ => none

/-! ### Selecting a pod -/

/-- A free place on the ring, from `h` on. -/
def probe (n : ℕ) (selected : List ℕ) : ℕ → ℕ → ℕ
  | 0, h => h
  | fuel + 1, h => if h ∈ selected then probe n selected fuel ((h + 1) % n) else h

/-- `_select_candidate_pods`, as places in the list of pods. -/
def selectCandidatePods (hash : ℕ → ℤ → ℕ) (prefixHash : ℤ) (n k : ℕ) : List ℕ :=
  (List.range (min k n)).foldl
    (fun selected i => selected ++ [probe n selected n (hash i prefixHash % n)]) []

/-- The filter by prefix groups; its exceptions are caught. -/
def prefixFiltered (env : InferEnv) (n : ℕ) (inference : Inference) : ℕ :=
  match env.prefixGroup, inference.explored, inference.predictedRewards with
  | some (prefixHash, k), false, some rewards =>
    let candidates := selectCandidatePods env.hash prefixHash n k
    if n ≤ k ∨ ¬ candidates.all (· < rewards.length) then inference.selectedPodIndex
    else
      match candidates.argmax fun i => rewards.getD i 0 with
      | none => inference.selectedPodIndex
      | some best =>
        if inference.selectedPodIndex ∈ candidates then inference.selectedPodIndex else best
  | _, _, _ => inference.selectedPodIndex

def nearBest (threshold : ℚ) (rewards : List ℚ) : List ℕ :=
  match rewards.max? with
  | none => []
  | some best => (List.range rewards.length).filter fun i => best * (1 - threshold) ≤ rewards.getD i 0

/-- The draw among pods that are close to the best one. -/
def tieBreak (threshold : ℚ) (draw : ℕ) (rewards : Option (List ℚ)) : Option ℕ :=
  match rewards with
  | none => none
  | some rewards =>
    let near := nearBest threshold rewards
    if 1 < rewards.length ∧ 1 < near.length then near[draw % near.length]? else none

/-! ### The handler -/

def orRaise {α : Type} (e : PyError) : Option α → Except Failure α
  | none => .error (.raised e)
  | some a => .ok a

def rewardSubAlgorithms : List Text :=
  ["lodestar", "random", "least_latency", "least_request", "least_kv_cache", "least_prefill_tokens",
   "prefix_cache_1", "prefix_cache_2", "prefix_hit_threshold_or_least_request"].map String.toList

def podColumns : List Text :=
  ["allPodsKvCacheHitRatios", "numInflightRequestsAllPods", "vllmGPUKVCacheUsage",
   "vllmCPUKVCacheUsage", "vllmNumRequestsRunning", "vllmNumRequestsWaiting"].map String.toList

def columnKeys (row : Row) (column : Text) : Option (List Text) :=
  match row.lookup column with
  | none => some []
  | some (.json (.obj members)) => some (members.map Prod.fst)
  | some _ => none

/-- `get_sorted_all_pod_ids` for a single row. -/
def getSortedAllPodIds (row : Row) : Except Failure (List GeneralPodId) := do
  let keys ← orRaise .notADictionary (podColumns.mapM (columnKeys row))
  let sortedAllPodIds := sortedPodIps keys.flatten
  if sortedAllPodIds.isEmpty then .error (.raised .assertion) else .ok sortedAllPodIds

/-- `replace_pod_ip_with_generalpodid` for a message. -/
def replacePodIpWithGeneralpodid (py : Characters) (reg : PodRegistry) (gpuMap : GpuMap)
    (fallback : GpuModel) (message : Text) : PodRegistry × Except Failure Text :=
  let podIps := extractPodIps py message
  if podIps.isEmpty then (reg, .error (.raised .assertion))
  else
    match reg.registerPodIps podIps gpuMap fallback with
    | (reg', false) => (reg', .error (.raised .assertion))
    | (reg', true) => (reg', .ok (rewrite reg'.podIpToGeneralpodid podIps message))

section

variable {F : Type} (py : Characters) (json : PythonJson) (s : InferService F) (env : InferEnv)

def checkStats : Except Failure Unit :=
  match s.stats with
  | none => .error (.error 500 "No normalization statistics available")
  | some 0 => .error (.raised .assertion)
  | some _ => .ok ()

def runModel (subAlgorithm : Option Value) (features : F) (pods : List GeneralPodId) :
    Except Failure Inference :=
  match subAlgorithm with
  | some (.str sub) =>
    if sub = "latency_predictor".toList then orRaise .model (s.model.latencyPredictor features pods)
    else if sub ∈ rewardSubAlgorithms then orRaise .model (s.model.rewardPredictor features pods)
    else .error (.raised .assertion)
  | _ => .error (.raised .assertion)

def podAt (reg : PodRegistry) (pods : List GeneralPodId) (index : ℕ) :
    Except Failure (GeneralPodId × PodIP) := do
  let id ← orRaise .noSuchPod pods[index]?
  let ip ← orRaise .noSuchPod (reg.hyperparameters.generalpodidToPodIp.lookup id)
  .ok (id, ip)

/-- The code of the fallback that the gateway should use. -/
def fallbackCode (tie : Bool) : ℕ :=
  if s.numTrains = 0 ∧ (¬ s.loadPretrainedModel ∨ s.retrainAtStartup ∨ s.fixedRange) then 2
  else if tie then 3
  else if env.oodDetected then 1
  else 0

/-- The end of the handler: from what the model says to the answer. -/
def conclude (reg : PodRegistry) (pods : List GeneralPodId) (requestId : Text)
    (inference : Inference) : Except Failure Answer := do
  let selected ← podAt reg pods (prefixFiltered env pods.length inference)
  -- every tenth request is logged
  let _ ← orRaise (.invalidLiteral requestId) (pyInt py requestId)
  let tie := tieBreak s.rewardSimilarityThreshold env.draw inference.predictedRewards
  let selected ← match tie with
    | none => .ok selected
    | some index => podAt reg pods index
  .ok { selectedPod := selected.2
        selectedPodGeneralpodid := selected.1
        exploration := inference.explored
        requestId
        oodFallback := fallbackCode s env tie.isSome }

/-- The handler behind the replacement of the addresses. -/
def inferMessage (reg : PodRegistry) (message : Text) : Except Failure Answer := do
  let requestId := requestIdOf message
  let (row, _) ← orRaise .unreadableMessage (parseLogToDict py.toDigits json message)
  let pods ← getSortedAllPodIds row
  let features ← orRaise .model (s.model.preprocess (row.erase "requestID".toList) pods)
  checkStats s
  let features ← orRaise .model (s.model.normalize features)
  -- every hundredth request is logged
  let _ ← orRaise (.invalidLiteral requestId) (pyInt py requestId)
  let inference ← runModel s (row.lookup "subAlgorithm".toList) features pods
  conclude py s env reg pods requestId inference

def handleInfer (body : Body) : PodRegistry × Except Failure Answer :=
  if ¬ s.initDone then (s.registry, .error (.error 503 "init() was not done yet. return 503"))
  else if s.routingStrategy = "lodestar" ∧ ¬ s.lodestarPreloaded then
    (s.registry, .error (.error 503 "contextual bandit model not ready yet"))
  else
    match body.logMessage with
    | none => (s.registry, .error (.error 400 "Invalid request format"))
    | some message =>
      match replacePodIpWithGeneralpodid py s.registry env.gpuMap (.fallback s.targetGpuModel)
        message with
      | (reg, .error failure) => (reg, .error failure)
      | (reg, .ok message) => (reg, inferMessage py json s env reg message)

end

variable {F : Type} {py : Characters} {json : PythonJson} {env : InferEnv} {reg : PodRegistry}
  {r : InferenceRecord} {inference : Inference}

/-! ### What `int` accepts -/

variable {s id : Text}

/-- What stays of a request ID: a title at its end is taken for the next one. -/
def cutRequestID (id : Text) : Text :=
  if "requestID".toList <:+ id then id.take (id.length - 9) else id

lemma isSpace_of_intSpace {c : Char} (h : intSpace py c = true) : py.isSpace c = true := by
  unfold intSpace at h
  split at h
  · rename_i hascii
    rw [py.isSpace_ascii c hascii, h, Bool.true_or]
  · exact h

lemma strip_of_notSpace (h : ∀ c ∈ s, intSpace py c = false) : strip py s = s := by
  have hdrop : ∀ l : Text, (∀ c ∈ l, intSpace py c = false) → l.dropWhile (intSpace py) = l := by
    intro l hl
    cases l with
    | nil => rfl
    | cons c l => simp [hl c mem_cons_self]
  rw [strip, hdrop s h, hdrop _ fun c hc => h c (mem_reverse.mp hc), reverse_reverse]

lemma natValue_of_pyInt (h : isdigit py.toDigits s = true) (hint : (pyInt py s).isSome = true) :
    (natValue py.toDigits s).isSome = true := by
  simp only [isdigit, Bool.and_eq_true, Bool.not_eq_true', all_eq_true] at h
  have hne : ∀ c : Char, c.toNat < 128 → c.isDigit = false → c ∉ s := by
    intro c hascii hdigit hc
    rw [← py.isDigit_ascii c hascii, h.2 c hc] at hdigit
    exact Bool.noConfusion hdigit
  have hspace : ∀ c ∈ s, intSpace py c = false := by
    intro c hc
    rw [Bool.eq_false_iff]
    exact fun hs => Bool.false_ne_true
      ((py.isSpace_isDigit c (isSpace_of_intSpace hs)).symm.trans (h.2 c hc))
  have hsigned : signed s = (false, s) := by
    unfold signed
    split
    · exact absurd mem_cons_self (hne '-' (by decide) (by decide))
    · exact absurd mem_cons_self (hne '+' (by decide) (by decide))
    · rfl
  have hgroups : s.splitOn '_' = [s] := splitOn_eq_singleton (hne '_' (by decide) (by decide))
  have hnil : s.isEmpty = false := h.1
  simp only [pyInt, strip_of_notSpace hspace, hsigned, hgroups, flatten_singleton] at hint
  split at hint
  · simp at hint
  · cases hvalue : natValue py.toDigits s with
    | none => simp [hvalue] at hint
    | some n => rfl

lemma mem_strip {c : Char} (hc : c ∈ s) (hspace : intSpace py c = false) : c ∈ strip py s := by
  have hdrop : ∀ l : Text, c ∈ l → c ∈ l.dropWhile (intSpace py) := by
    intro l hl
    rw [← takeWhile_append_dropWhile (p := intSpace py) (l := l)] at hl
    rcases mem_append.mp hl with hl | hl
    · exact absurd (mem_takeWhile_imp hl) (by simp [hspace])
    · exact hl
  exact mem_reverse.mpr (hdrop _ (mem_reverse.mpr (hdrop s hc)))

lemma mem_flatten_splitOn {c d : Char} (hne : c ≠ d) {t : Text} (hc : c ∈ t) :
    c ∈ (t.splitOn d).flatten := by
  have hjoin : c ∈ [d].intercalate (t.splitOn d) := by rwa [intercalate_splitOn]
  rcases mem_of_mem_intercalate hjoin with hd | ⟨part, hpart, hc⟩
  · exact absurd (List.mem_singleton.mp hd) hne
  · exact mem_flatten.mpr ⟨part, hpart, hc⟩

lemma pyInt_eq_none {c : Char} (hc : c ∈ s) (hascii : c.toNat < 128) (hdigit : c.isDigit = false)
    (hother : c ∉ ['-', '+', '_', ' ']) (hcontrol : 32 < c.toNat) : pyInt py s = none := by
  simp only [mem_cons, not_or] at hother
  have hspace : intSpace py c = false := by
    rw [intSpace, if_pos hascii]
    simp
    omega
  have hrest : c ∈ (signed (strip py s)).2 := by
    have hmem := mem_strip hc hspace
    unfold signed
    split
    · rename_i heq
      rw [heq] at hmem
      exact (mem_cons.mp hmem).resolve_left hother.1
    · rename_i heq
      rw [heq] at hmem
      exact (mem_cons.mp hmem).resolve_left hother.2.1
    · exact hmem
  have hvalue : py.value c = none := by
    cases hv : py.value c with
    | none => rfl
    | some d =>
      have := py.isDigit_of_value c d hv
      rw [py.isDigit_ascii c hascii, hdigit] at this
      exact Bool.noConfusion this
  have hnone : ∀ l : Text, c ∈ l → natValue py.toDigits l = none := by
    intro l hl
    have hmap : l.mapM py.value = none := by
      induction l with
      | nil => simp at hl
      | cons d l ih =>
        rw [mapM_cons]
        rcases mem_cons.mp hl with rfl | hl
        · rw [hvalue]
          rfl
        · rw [ih hl]
          cases py.value d <;> rfl
    rw [natValue, hmap]
    rfl
  unfold pyInt
  dsimp only
  split
  · rfl
  · rw [hnone _ (mem_flatten_splitOn hother.2.2.1 hrest)]
    rfl

lemma mem_cutRequestID {c : Char} (hc : c ∈ id) (hnot : c ∉ "requestID".toList) :
    c ∈ cutRequestID id := by
  unfold cutRequestID
  split
  · rename_i hsuffix
    obtain ⟨t, rfl⟩ := hsuffix
    have ht : c ∈ t := (mem_append.mp hc).resolve_right hnot
    rwa [length_append, show "requestID".toList.length = 9 from rfl, Nat.add_sub_cancel, take_left]
  · exact hc

lemma takeWhile_beforeFirst (hsep : '@' ∉ id) (u : Text) :
    (beforeFirst "requestID@".toList (id ++ '@' :: u)).takeWhile (· ≠ '@') = cutRequestID id := by
  induction id with
  | nil => rfl
  | cons c id ih =>
    rw [mem_cons, not_or] at hsep
    have hstart : "requestID@".toList <+: c :: (id ++ '@' :: u) ↔ c :: id = "requestID".toList := by
      have hsplit : "requestID@".toList = "requestID".toList ++ ['@'] := rfl
      rw [← cons_append]
      constructor
      · rintro ⟨w, hw⟩
        rw [hsplit, append_assoc] at hw
        rcases append_eq_append_iff.mp hw with ⟨x, hx, hrest⟩ | ⟨x, hx, hrest⟩
        · cases x with
          | nil => simpa using hx
          | cons d x =>
            obtain rfl : '@' = d := (List.cons.inj hrest).1
            exact absurd (show '@' ∈ c :: id by rw [hx]; simp) (by simp [hsep])
        · cases x with
          | nil => simpa using hx.symm
          | cons d x =>
            obtain rfl : '@' = d := (List.cons.inj hrest).1
            exact absurd (show '@' ∈ "requestID".toList by rw [hx]; simp) (by decide)
      · rintro heq
        exact ⟨u, by rw [heq]; simp⟩
    rw [cons_append, beforeFirst]
    by_cases heq : c :: id = "requestID".toList
    · rw [if_pos ( isPrefixOf_iff_prefix.mpr (hstart.mpr heq)), heq]
      rfl
    · rw [if_neg fun h => heq (hstart.mp ( isPrefixOf_iff_prefix.mp h)),
        takeWhile_cons_of_pos (by simpa using Ne.symm hsep.1), ih hsep.2]
      have hsuffix : "requestID".toList <:+ c :: id ↔ "requestID".toList <:+ id := by
        rw [suffix_cons_iff]
        exact or_iff_right fun h => heq h.symm
      unfold cutRequestID
      by_cases hend : "requestID".toList <:+ id
      · have hlen : 9 ≤ id.length := hend.length_le
        rw [if_pos hend, if_pos (hsuffix.mpr hend), length_cons, Nat.succ_sub hlen, take_succ_cons]
      · rw [if_neg hend, if_neg (hsuffix.not.mpr hend)]

lemma requestIdOf_logMessage {r : InferenceRecord} (hsep : '@' ∉ r.requestID) :
    requestIdOf r.logMessage = cutRequestID r.requestID := by
  have hfields : r.fields = ("requestID".toList, .text r.requestID) :: r.fields.tail := rfl
  have hmore : (r.fields.tail.flatMap fun f => [f.1, f.2.written]) ≠ [] := by
    simp [InferenceRecord.fields]
  obtain ⟨q, parts, hparts⟩ := exists_cons_of_ne_nil hmore
  have hall : (r.fields.flatMap fun f => [f.1, f.2.written]) =
      "requestID".toList :: r.requestID :: q :: parts := by
    rw [hfields, flatMap_cons, hparts]
    rfl
  have htitle : ∀ t : Text, "**@latency_metrics@".toList ++ ("requestID".toList ++ '@' :: t) =
      "**@latency_metrics@requestID@".toList ++ t := fun t => rfl
  have hmessage : r.logMessage = "**@latency_metrics@requestID@".toList ++
      (r.requestID ++ '@' :: ['@'].intercalate (q :: parts)) :=
    calc r.logMessage
      _ = "**@latency_metrics@".toList ++
          ['@'].intercalate (r.fields.flatMap fun f => [f.1, f.2.written]) := rfl
      _ = "**@latency_metrics@".toList ++
          ['@'].intercalate ("requestID".toList :: r.requestID :: q :: parts) :=
        congrArg (fun parts => "**@latency_metrics@".toList ++ ['@'].intercalate parts) hall
      _ = "**@latency_metrics@".toList ++ ("requestID".toList ++ '@' ::
          (r.requestID ++ '@' :: ['@'].intercalate (q :: parts))) :=
        congrArg ("**@latency_metrics@".toList ++ ·)
          ((intercalate_cons_cons _ _ _ _).trans (by rw [intercalate_cons_cons]))
      _ = _ := htitle _
  exact takeWhile_beforeFirst hsep _

/-! ### Selections are in range -/

variable {n : ℕ}

section

variable {selected : List ℕ} {h : ℕ}

/-- A ring on which not all places are taken has a free one. -/
lemma exists_free (hlen : selected.length < n) (h : ℕ) : ∃ d < n, (h + d) % n ∉ selected := by
  by_contra! hno
  let places := (List.range n).map fun d => (h + d) % n
  have hnodup : places.Nodup := by
    refine nodup_range.map_on fun d hd d' hd' heq => ?_
    exact (Nat.ModEq.add_left_cancel' h heq).eq_of_lt_of_lt (mem_range.mp hd)
      (mem_range.mp hd')
  have hsub : places ⊆ selected := by
    intro i hi
    obtain ⟨d, hd, rfl⟩ := mem_map.mp hi
    exact hno d (mem_range.mp hd)
  have hle := (hnodup.subperm hsub).length_le
  simp only [places, length_map, length_range] at hle
  omega

lemma probe_eq {d fuel : ℕ} (hh : h < n) (hfree : (h + d) % n ∉ selected)
    (htaken : ∀ e < d, (h + e) % n ∈ selected) (hfuel : d ≤ fuel) :
    probe n selected fuel h = (h + d) % n := by
  induction d generalizing h fuel with
  | zero =>
    rw [Nat.add_zero, Nat.mod_eq_of_lt hh] at hfree ⊢
    cases fuel with
    | zero => rfl
    | succ fuel => rw [probe, if_neg hfree]
  | succ d ih =>
    obtain ⟨fuel, rfl⟩ : ∃ f, fuel = f + 1 := ⟨fuel - 1, by omega⟩
    have hnext : ∀ e, ((h + 1) % n + e) % n = (h + (e + 1)) % n := by
      intro e
      rw [Nat.mod_add_mod, Nat.add_right_comm, Nat.add_assoc]
    have hin : h ∈ selected := by simpa [Nat.mod_eq_of_lt hh] using htaken 0 (Nat.succ_pos d)
    rw [probe, if_pos hin, ← hnext d]
    refine ih (Nat.mod_lt _ (by omega)) (hnext d ▸ hfree) (fun e he => ?_) (by omega : d ≤ fuel)
    rw [hnext]
    exact htaken (e + 1) (by omega)

/-- **The probing ends** at a free place, however long it may take. -/
lemma probe_spec (hlen : selected.length < n) (hh : h < n) :
    ∃ p < n, p ∉ selected ∧ ∀ fuel, n ≤ fuel → probe n selected fuel h = p := by
  have hex := exists_free hlen h
  obtain ⟨hlt, hfree⟩ := Nat.find_spec hex
  refine ⟨(h + Nat.find hex) % n, Nat.mod_lt _ (by omega), hfree, fun fuel hfuel => ?_⟩
  refine probe_eq hh hfree (fun e he => ?_) (by omega)
  by_contra hmem
  exact Nat.find_min hex he ⟨by omega, hmem⟩

variable (hash : ℕ → ℤ → ℕ) (prefixHash : ℤ)

lemma selectCandidatePods_succ {k : ℕ} (hk : k < n) :
    selectCandidatePods hash prefixHash n (k + 1) = selectCandidatePods hash prefixHash n k ++
      [probe n (selectCandidatePods hash prefixHash n k) n (hash k prefixHash % n)] := by
  unfold selectCandidatePods
  rw [min_eq_left (by omega : k + 1 ≤ n), min_eq_left hk.le, range_succ, foldl_append]
  rfl

lemma selectCandidatePods_of_le {k : ℕ} (hk : n ≤ k) :
    selectCandidatePods hash prefixHash n (k + 1) = selectCandidatePods hash prefixHash n k := by
  unfold selectCandidatePods
  rw [min_eq_right hk, min_eq_right (by omega)]

lemma selectCandidatePods_spec (k : ℕ) : (selectCandidatePods hash prefixHash n k).length = min k n ∧
    (selectCandidatePods hash prefixHash n k).Nodup ∧
    ∀ i ∈ selectCandidatePods hash prefixHash n k, i < n := by
  induction k with
  | zero => simp [selectCandidatePods]
  | succ k ih =>
    by_cases hk : k < n
    · obtain ⟨hlen, hnodup, hlt⟩ := ih
      obtain ⟨p, hp, hfree, hprobe⟩ :=
        probe_spec (hlen.trans_lt (by omega)) (Nat.mod_lt (hash k prefixHash) (Nat.zero_lt_of_lt hk))
      rw [selectCandidatePods_succ hash prefixHash hk, hprobe n le_rfl]
      refine ⟨by simp; omega, nodup_append.mpr ⟨hnodup, by simp, ?_⟩, fun i hi => ?_⟩
      · rintro i hi j hj rfl
        exact hfree (List.mem_singleton.mp hj ▸ hi)
      · rcases mem_append.mp hi with hi | hi
        · exact hlt i hi
        · exact List.mem_singleton.mp hi ▸ hp
    · rw [selectCandidatePods_of_le hash prefixHash (not_lt.mp hk)]
      exact ⟨by omega, ih.2⟩

end

/-- What a model says about `n` pods. -/
structure Inference.Fits (n : ℕ) (inference : Inference) : Prop where
  selected : inference.selectedPodIndex < n
  rewards : ∀ rewards ∈ inference.predictedRewards, rewards.length = n

lemma prefixFiltered_lt (h : inference.Fits n) (env : InferEnv) :
    prefixFiltered env n inference < n := by
  unfold prefixFiltered
  split
  · dsimp only
    split
    · exact h.selected
    · split
      · exact h.selected
      · rename_i best hbest
        split
        · exact h.selected
        · exact (selectCandidatePods_spec _ _ _).2.2 best (argmax_mem hbest)
  · exact h.selected

lemma tieBreak_lt (h : inference.Fits n) {threshold : ℚ} {draw i : ℕ}
    (hi : tieBreak threshold draw inference.predictedRewards = some i) : i < n := by
  unfold tieBreak at hi
  split at hi
  · simp at hi
  · rename_i rewards hrewards
    dsimp only at hi
    split at hi
    · have hmem := mem_of_getElem? hi
      unfold nearBest at hmem
      split at hmem
      · simp at hmem
      · rw [← h.rewards rewards hrewards]
        exact mem_range.mp (mem_filter.mp hmem).1
    · simp at hi

/-! ### Messages that are well formed -/

structure Model.Succeeds {F : Type} (m : Model F) : Prop where
  preprocess : ∀ row pods, pods ≠ [] → ∃ features, m.preprocess row pods = some features
  normalize : ∀ features, ∃ features', m.normalize features = some features'
  latencyPredictor : ∀ features pods, pods ≠ [] →
    ∃ inference, m.latencyPredictor features pods = some inference ∧ inference.Fits pods.length
  rewardPredictor : ∀ features pods, pods ≠ [] →
    ∃ inference, m.rewardPredictor features pods = some inference ∧ inference.Fits pods.length

structure InferService.Ready {F : Type} (s : InferService F) : Prop where
  initDone : s.initDone = true
  preloaded : s.routingStrategy = "lodestar" → s.lodestarPreloaded = true
  stats : ∃ count ∈ s.stats, 0 < count

namespace InferenceRecord

def podMaps (r : InferenceRecord) : List PodMap :=
  [r.allPodsKvCacheHitRatios, r.numInflightRequestsAllPods, r.vllmGPUKVCacheUsage, ∅,
   r.vllmNumRequestsRunning, r.vllmNumRequestWaiting]

def pods (r : InferenceRecord) : List PodIP := r.podMaps.flatMap fun m => m.keys.map Subtype.val

/-- A message with a sub-algorithm that the agent knows, with maps by address, and with a pod. -/
structure WellFormed (py : Characters) (r : InferenceRecord) : Prop where
  subAlgorithm : r.subAlgorithm ∈ "latency_predictor".toList :: rewardSubAlgorithms
  maps : ∀ m ∈ r.maps, m.ByAddress py
  named : r.pods ≠ []

end InferenceRecord

section

lemma exists_parseValue {t : Text} (h : isdigit py.toDigits t = true →
    (natValue py.toDigits t).isSome = true) : ∃ v, parseValue py.toDigits json t = some v := by
  unfold parseValue fastParseValue
  split
  · dsimp only
    split <;> exact ⟨_, rfl⟩
  · split
    · exact ⟨_, rfl⟩
    · split
      · rename_i hdigit
        obtain ⟨n, hn⟩ := Option.isSome_iff_exists.mp (h hdigit)
        exact ⟨(.int n, false), by rw [hn]; rfl⟩
      · split
        · split <;> exact ⟨_, rfl⟩
        · exact ⟨_, rfl⟩

lemma exists_parseValue_of_mem {t : Text} {c : Char} (hc : c ∈ t) (hascii : c.toNat < 128)
    (hdigit : c.isDigit = false) : ∃ v, parseValue py.toDigits json t = some v :=
  exists_parseValue fun h => absurd h (by simp [isdigit_of_mem hc hdigit hascii])

lemma knownSubAlgorithm (py : Characters) (json : PythonJson) {sub : Text}
    (h : sub ∈ "latency_predictor".toList :: rewardSubAlgorithms) :
    ReadsAsText py.toDigits json sub ∧ '@' ∉ sub ∧ sub.count '.' = 0 := by
  have hall : ∀ sub ∈ "latency_predictor".toList :: rewardSubAlgorithms,
      inBraces sub = false ∧ 'a' ∈ sub ∧ '@' ∉ sub ∧ sub.count '.' = 0 := by decide +kernel
  obtain ⟨hbraces, ha, hsep, hcount⟩ := hall sub h
  refine ⟨?_, hsep, hcount⟩
  rw [ReadsAsText, if_neg (by simp [hbraces])]
  rintro (hdigit | ⟨hone, -⟩)
  · rw [isdigit_of_mem ha (by decide) (by decide)] at hdigit
    exact Bool.noConfusion hdigit
  · omega

/-- **A message is read** if its request ID is. -/
lemma exists_parseLogToDict (hsep : '@' ∉ r.requestID)
    (hsub : r.subAlgorithm ∈ "latency_predictor".toList :: rewardSubAlgorithms)
    (hid : ∃ v, parseValue py.toDigits json r.requestID = some v) :
    ∃ result, parseLogToDict py.toDigits json r.logMessage = some result ∧
      readParts py.toDigits json (messageParts r.fields) (∅, []) = some result := by
  have hknown := knownSubAlgorithm py json hsub
  have hfields : ∀ f ∈ r.fields, ∃ v, parseValue py.toDigits json f.2.written = some v := by
    have htexts : ∀ f ∈ r.fields, ∀ s, f.2 = .text s →
        s = r.requestID ∨ s = r.subAlgorithm ∨ s = "-9999".toList := by
      simp only [InferenceRecord.fields, InferenceRecord.unknown, forall_mem_cons,
        FieldValue.text.injEq, reduceCtorEq, false_imp_iff, implies_true, true_and,
        not_mem_nil]
      simp
    rintro ⟨key, v⟩ hf
    cases v with
    | text s =>
      rcases htexts _ hf s rfl with rfl | rfl | rfl
      · exact hid
      · obtain ⟨b, hb⟩ := (parseValue_text r.subAlgorithm).mpr hknown.1
        exact ⟨_, hb⟩
      · exact exists_parseValue_of_mem (c := '-') mem_cons_self (by decide) (by decide)
    | int n =>
      cases n with
      | ofNat n =>
        exact exists_parseValue fun _ => by
          rw [show (FieldValue.int (.ofNat n)).written = Nat.toDigits 10 n from rfl,
            natValue_of_ascii (isDigit_toDigits n)]
          rfl
      | negSucc n =>
        exact exists_parseValue_of_mem (c := '-') mem_cons_self (by decide) (by decide)
    | float negative micros =>
      obtain ⟨b, hb⟩ := parseValue_float negative micros
      exact ⟨_, hb⟩
    | map m =>
      refine exists_parseValue_of_mem (c := '{') ?_ (by decide) (by decide)
      show '{' ∈ m.jsonStringify
      unfold PodMap.jsonStringify PodMap.marshal
      split
      · exact mem_cons_self
      · exact mem_cons_self
  obtain ⟨result, hresult⟩ := (exists_readParts_iff (∅, [])).mpr hfields
  refine ⟨result, ?_, hresult⟩
  rw [InferenceRecord.parseLogToDict_logMessage, splitOn_intercalate _
    (InferenceRecord.separator_notMem hsep hknown.2.1) (by simp [messageParts, InferenceRecord.fields])]
  exact hresult

variable {result : Row × List Text}
  (h : readParts py.toDigits json (messageParts r.fields) (∅, []) = some result)
include h

lemma lookup_subAlgorithm
    (hsub : r.subAlgorithm ∈ "latency_predictor".toList :: rewardSubAlgorithms) :
    result.1.lookup "subAlgorithm".toList = some (.str r.subAlgorithm) := by
  obtain ⟨b, hb⟩ := (parseValue_text r.subAlgorithm).mpr (knownSubAlgorithm py json hsub).1
  exact lookup_of_parseValue r.nodup_fields h r.subAlgorithm_mem hb

/-- **The pods of a row** are the keys of the maps. -/
lemma getSortedAllPodIds_eq (hfinite : ∀ m ∈ r.maps, m.finite = true) (hnamed : r.pods ≠ []) :
    getSortedAllPodIds result.1 = .ok (sortedPodIps r.pods) := by
  have hcolumn : ∀ key m, (key, .map m) ∈ r.fields → columnKeys result.1 key =
      some (m.keys.map Subtype.val) := by
    intro key m hf
    have hm : m.finite = true := by
      rcases InferenceRecord.exists_field_iff.mp ⟨key, hf⟩ with rfl | hm
      · rfl
      · exact hfinite m hm
    obtain ⟨b, hb⟩ := (parseValue_map m).mpr hm
    have hlookup := lookup_of_parseValue r.nodup_fields h hf hb
    rw [columnKeys, hlookup]
    simp only [PodMap.json, map_map, AList.keys, List.keys]
    rfl
  have hkeys : podColumns.mapM (columnKeys result.1) =
      some (r.podMaps.map fun m => m.keys.map Subtype.val) := by
    simp only [podColumns, map_cons, mapM_cons,
      hcolumn _ r.allPodsKvCacheHitRatios (mem_of_getElem? (i := 11) rfl),
      hcolumn _ r.numInflightRequestsAllPods (mem_of_getElem? (i := 14) rfl),
      hcolumn _ r.vllmGPUKVCacheUsage (mem_of_getElem? (i := 17) rfl),
      hcolumn _ ∅ (mem_of_getElem? (i := 18) rfl),
      hcolumn _ r.vllmNumRequestsRunning (mem_of_getElem? (i := 19) rfl),
      hcolumn _ r.vllmNumRequestWaiting (mem_of_getElem? (i := 20) rfl)]
    rfl
  have hne : (sortedPodIps r.pods).isEmpty = false := by
    obtain ⟨pod, hpod⟩ := exists_mem_of_ne_nil _ hnamed
    rw [isEmpty_eq_false_iff]
    exact ne_nil_of_mem (mem_sortedPodIps.mpr hpod)
  rw [getSortedAllPodIds, hkeys]
  show (if (sortedPodIps r.pods).isEmpty = true then _ else _) = _
  rw [hne]
  rfl

end

/-! ### The handler on a message whose pods have names -/

variable {s : InferService F} {pods : List GeneralPodId} {id : Text}

lemma podAt_eq_ok {index : ℕ} {selected : GeneralPodId × PodIP} :
    podAt reg pods index = .ok selected ↔ pods[index]? = some selected.1 ∧
      reg.hyperparameters.generalpodidToPodIp.lookup selected.1 = some selected.2 := by
  obtain ⟨name, ip⟩ := selected
  unfold podAt
  cases hname : pods[index]? with
  | none => simp [orRaise, bind, Except.bind]
  | some name' =>
    cases hip : reg.hyperparameters.generalpodidToPodIp.lookup name' with
    | none =>
      simp only [orRaise, bind, Except.bind, hip, Option.some.injEq, reduceCtorEq, false_iff, not_and]
      rintro rfl
      simp [hip]
    | some ip' =>
      simp only [orRaise, bind, Except.bind, hip, Option.some.injEq, Except.ok.injEq, Prod.mk.injEq]
      constructor
      · rintro ⟨rfl, rfl⟩
        exact ⟨rfl, hip⟩
      · rintro ⟨rfl, hlookup⟩
        exact ⟨rfl, Option.some.inj (hip.symm.trans hlookup)⟩

def Published (reg : PodRegistry) (pods : List GeneralPodId) : Prop :=
  ∀ name ∈ pods, ∃ ip, reg.hyperparameters.generalpodidToPodIp.lookup name = some ip

lemma Published.podAt (h : Published reg pods) {index : ℕ} (hindex : index < pods.length) :
    ∃ selected, podAt reg pods index = .ok selected := by
  obtain ⟨ip, hip⟩ := h _ (getElem_mem hindex)
  exact ⟨(_, ip), podAt_eq_ok.mpr ⟨getElem?_eq_getElem hindex, hip⟩⟩

/-- **The answer** has the pod of the tie-break, or else that of the filter. -/
lemma conclude_ok (env : InferEnv) (hfits : inference.Fits pods.length) (hpods : Published reg pods)
    (hint : (pyInt py id).isSome = true) :
    ∃ answer, conclude py s env reg pods id inference = .ok answer ∧
      pods[(tieBreak s.rewardSimilarityThreshold env.draw inference.predictedRewards).getD
        (prefixFiltered env pods.length inference)]? = some answer.selectedPodGeneralpodid ∧
      reg.hyperparameters.generalpodidToPodIp.lookup answer.selectedPodGeneralpodid =
        some answer.selectedPod := by
  obtain ⟨first, hat⟩ := hpods.podAt (prefixFiltered_lt hfits env)
  obtain ⟨n, hn⟩ := Option.isSome_iff_exists.mp hint
  unfold conclude
  simp only [hat, hn]
  cases htie : tieBreak s.rewardSimilarityThreshold env.draw inference.predictedRewards with
  | none => exact ⟨_, rfl, podAt_eq_ok.mp hat⟩
  | some index =>
    obtain ⟨last, hat'⟩ := hpods.podAt (tieBreak_lt hfits htie)
    simp only [hat']
    exact ⟨_, rfl, podAt_eq_ok.mp hat'⟩

lemma lookup_of_conclude {answer : Answer} {name : GeneralPodId} {index : ℕ}
    (hname : pods[index]? = some name)
    (h : conclude py s env reg pods id ⟨index, none, true⟩ = .ok answer) :
    ∃ ip, reg.hyperparameters.generalpodidToPodIp.lookup name = some ip := by
  have hfilter : prefixFiltered env pods.length ⟨index, none, true⟩ = index := by
    unfold prefixFiltered
    split
    · rename_i heq _
      exact Bool.noConfusion heq
    · rfl
  unfold conclude at h
  rw [hfilter] at h
  cases hat : podAt reg pods index with
  | error failure =>
    rw [hat] at h
    simp [bind, Except.bind] at h
  | ok selected =>
    obtain ⟨hget, hlookup⟩ := podAt_eq_ok.mp hat
    exact ⟨_, Option.some.inj (hname.symm.trans hget) ▸ hlookup⟩

lemma isSome_of_inferMessage {message : Text} {answer : Answer}
    (h : inferMessage py json s env reg message = .ok answer) :
    (pyInt py (requestIdOf message)).isSome = true := by
  cases hint : pyInt py (requestIdOf message) with
  | some n => rfl
  | none =>
    unfold inferMessage at h
    simp only [hint, orRaise, bind, Except.bind] at h
    repeat' split at h
    all_goals simp at h

def Model.predict (m : Model F) (sub : Text) : F → List GeneralPodId → Option Inference :=
  if sub = "latency_predictor".toList then m.latencyPredictor else m.rewardPredictor

lemma Model.Succeeds.predict {m : Model F} (h : m.Succeeds) (sub : Text) (features : F)
    (hpods : pods ≠ []) :
    ∃ inference, m.predict sub features pods = some inference ∧ inference.Fits pods.length := by
  unfold Model.predict
  split
  · exact h.latencyPredictor features pods hpods
  · exact h.rewardPredictor features pods hpods

/-- **The handler on a message with a number**: the model answers, and the rest is `conclude`. -/
lemma inferMessage_logMessage (py : Characters) (json : PythonJson) (s : InferService F)
    (env : InferEnv) (reg : PodRegistry) {r : InferenceRecord} (hsep : '@' ∉ r.requestID)
    (hsub : r.subAlgorithm ∈ "latency_predictor".toList :: rewardSubAlgorithms)
    (hfinite : ∀ m ∈ r.maps, m.finite = true) (hnamed : r.pods ≠ []) (hready : s.Ready)
    (hmodel : s.model.Succeeds) (hint : (pyInt py (cutRequestID r.requestID)).isSome = true) :
    ∃ features inference,
      s.model.predict r.subAlgorithm features (sortedPodIps r.pods) = some inference ∧
      inference.Fits (sortedPodIps r.pods).length ∧
      inferMessage py json s env reg r.logMessage =
        conclude py s env reg (sortedPodIps r.pods) (cutRequestID r.requestID) inference := by
  have hreads : ∃ v, parseValue py.toDigits json r.requestID = some v := by
    refine exists_parseValue fun hdigit => ?_
    have hcut : cutRequestID r.requestID = r.requestID := by
      refine if_neg fun hsuffix => ?_
      rw [isdigit_of_mem (hsuffix.subset (show 'I' ∈ "requestID".toList by decide)) (by decide)
        (by decide)] at hdigit
      exact Bool.noConfusion hdigit
    rw [hcut] at hint
    exact natValue_of_pyInt hdigit hint
  obtain ⟨result, hparse, hparts⟩ := exists_parseLogToDict hsep hsub hreads
  have hpods : sortedPodIps r.pods ≠ [] := by
    obtain ⟨pod, hpod⟩ := exists_mem_of_ne_nil _ hnamed
    exact ne_nil_of_mem (mem_sortedPodIps.mpr hpod)
  obtain ⟨features, hfeatures⟩ := hmodel.preprocess (result.1.erase "requestID".toList) _ hpods
  obtain ⟨features', hfeatures'⟩ := hmodel.normalize features
  obtain ⟨inference, hinference, hfits⟩ := hmodel.predict r.subAlgorithm features' hpods
  have hrun : runModel s (some (.str r.subAlgorithm)) features' (sortedPodIps r.pods) =
      .ok inference := by
    unfold Model.predict at hinference
    unfold runModel
    dsimp only
    split_ifs at hinference ⊢ with hlatency hreward
    · rw [hinference]
      rfl
    · rw [hinference]
      rfl
    · exact absurd ((mem_cons.mp hsub).resolve_left hlatency) hreward
  have hstats : checkStats s = .ok () := by
    obtain ⟨count, hcount, hpos⟩ := hready.stats
    unfold checkStats
    rw [Option.mem_def.mp hcount]
    cases count with
    | zero => omega
    | succ count => rfl
  obtain ⟨n, hn⟩ := Option.isSome_iff_exists.mp hint
  refine ⟨features', inference, hinference, hfits, ?_⟩
  unfold inferMessage
  rw [requestIdOf_logMessage hsep, hparse]
  simp only [orRaise, bind, Except.bind, getSortedAllPodIds_eq hparts hfinite hnamed, hfeatures,
    hstats, hfeatures', hn, lookup_subAlgorithm hparts hsub, hrun]

/-! ### Which messages are answered -/

variable {podIps pods : List PodIP} {ip : PodIP}

lemma PodRegistry.Numbered.plainNames (h : reg.Numbered) : PlainNames reg.podIpToGeneralpodid := by
  have hletters : ∀ c ∈ "pod_".toList, plainChar c = true := all_eq_true.mp (by decide)
  intro ip id hid c hc
  obtain ⟨k, -, hk⟩ := (h.numbers ip id).mp hid
  rcases (formatGeneralpodid_chars hk).2 c hc with hc | hc
  · exact hletters c hc
  · exact plainChar_of_numberChar (by simp [numberChar, hc])

/-- The registry has a name for each address and knows the pod of each name: there is room for those
that are new, and without a new one all have been published before. -/
structure PodRegistry.Resolves (reg : PodRegistry) (podIps pods : List PodIP) : Prop where
  room : (reg.order ++ (sortedPodIps podIps).filter (· ∉ reg.order)).length ≤ 1000
  published : (∃ ip ∈ podIps, ip ∉ reg.order) ∨
    ∀ pod ∈ pods, ∃ name, reg.hyperparameters.generalpodidToPodIp.lookup name = some pod

lemma PodRegistry.Numbered.resolves_iff (h : reg.Numbered) (gpuMap : GpuMap) (fallback : GpuModel)
    (hpods : ∀ pod ∈ pods, pod ∈ podIps) :
    reg.Resolves podIps pods ↔ (reg.registerPodIps podIps gpuMap fallback).2 = true ∧
      ∀ pod ∈ pods, ∃ name, (reg.registerPodIps podIps gpuMap
        fallback).1.hyperparameters.generalpodidToPodIp.lookup name = some pod := by
  have hroom := h.registerPodIps_done podIps gpuMap fallback
  have hknown : ∀ hdone : (reg.registerPodIps podIps gpuMap fallback).2 = true,
      ((∀ pod ∈ pods, ∃ name, (reg.registerPodIps podIps gpuMap
        fallback).1.hyperparameters.generalpodidToPodIp.lookup name = some pod) ↔
      ((∃ ip ∈ podIps, ip ∉ reg.order) ∨
        ∀ pod ∈ pods, ∃ name, reg.hyperparameters.generalpodidToPodIp.lookup name = some pod)) := by
    intro hdone
    rw [h.published hdone]
    split
    · rename_i hnew
      refine iff_of_true (fun pod hpod => ?_) (.inl hnew)
      obtain ⟨id, hid⟩ := h.lookup_of_done podIps gpuMap fallback hdone (hpods pod hpod)
      exact ⟨id, (h.registerPodIps podIps gpuMap fallback).1.lookup_refresh.mpr hid⟩
    · rename_i hnew
      exact (or_iff_right hnew).symm
  constructor
  · rintro ⟨room, published⟩
    exact ⟨hroom.mpr room, (hknown (hroom.mpr room)).mpr published⟩
  · rintro ⟨hdone, hpublished⟩
    exact ⟨hroom.mp hdone, (hknown hdone).mp hpublished⟩

lemma InferenceRecord.podMaps_subset {m : PodMap} (hm : m ∈ r.podMaps) : m = ∅ ∨ m ∈ r.maps := by
  simp only [podMaps, maps, mem_cons, not_mem_nil] at hm ⊢
  tauto

lemma PodMap.keys_rename {f : PlainText → PlainText} {m : PodMap}
    (hinj : Set.InjOn f {k | k ∈ m.keys}) : (m.rename f).keys = m.keys.map f := by
  simp only [AList.keys, entries_rename hinj, List.keys, map_map]
  rfl

variable {ids : AList fun _ : PodIP => GeneralPodId} {hplain : PlainNames ids}

lemma InferenceRecord.pods_rewritten
    (hinj : ∀ m ∈ r.maps, Set.InjOn (podName ids hplain) {k | k ∈ m.keys}) :
    (r.rewritten ids hplain podIps).pods = r.pods.map fun ip => (ids.lookup ip).getD ip := by
  have hmaps : (r.rewritten ids hplain podIps).podMaps =
      r.podMaps.map (PodMap.rename (podName ids hplain)) := rfl
  rw [pods, pods, hmaps, flatMap_map, map_flatMap]
  refine flatMap_congr fun m hm => ?_
  have hinj' : Set.InjOn (podName ids hplain) {k | k ∈ m.keys} := by
    rcases podMaps_subset hm with rfl | hm
    · intro k hk
      exact absurd hk not_mem_nil
    · exact hinj m hm
  rw [PodMap.keys_rename hinj', map_map, map_map]
  rfl

/-- All names are published exactly if all pods are. -/
lemma listed_iff (hnum : reg.Numbered) (hsound : reg.Sound)
    (hnames : ∀ pod ∈ pods, ∃ id, reg.podIpToGeneralpodid.lookup pod = some id) :
    Published reg (sortedPodIps (pods.map fun ip => (reg.podIpToGeneralpodid.lookup ip).getD ip)) ↔
      ∀ pod ∈ pods, ∃ name, reg.hyperparameters.generalpodidToPodIp.lookup name = some pod := by
  constructor
  · intro h pod hpod
    obtain ⟨id, hid⟩ := hnames pod hpod
    have hmem : id ∈ pods.map fun ip => (reg.podIpToGeneralpodid.lookup ip).getD ip :=
      mem_map.mpr ⟨pod, hpod, by rw [hid]; rfl⟩
    obtain ⟨ip, hip⟩ := h id (mem_sortedPodIps.mpr hmem)
    exact ⟨id, hnum.lookup_inj (hsound id ip hip) hid ▸ hip⟩
  · intro h name hname
    obtain ⟨pod, hpod, rfl⟩ := mem_map.mp (mem_sortedPodIps.mp hname)
    obtain ⟨id, hid⟩ := h pod hpod
    rw [hsound id pod hid]
    exact ⟨pod, hid⟩

variable {podIps : List PodIP}

lemma rewrite_named (hr : r.WellFormed py) (hsep : '@' ∉ r.requestID) (hnum : reg.Numbered)
    (hips : ∀ ip ∈ podIps, IpText py ip) (hkeys : ∀ m ∈ r.maps, ∀ k ∈ m.keys, k.1 ∈ podIps)
    (hnames : ∀ ip ∈ podIps, ∃ id, reg.podIpToGeneralpodid.lookup ip = some id) :
    ∃ r' : InferenceRecord, rewrite reg.podIpToGeneralpodid podIps r.logMessage = r'.logMessage ∧
      '@' ∉ r'.requestID ∧ r'.subAlgorithm = r.subAlgorithm ∧ (∀ m ∈ r'.maps, m.finite = true) ∧
      r'.pods = r.pods.map (fun ip => (reg.podIpToGeneralpodid.lookup ip).getD ip) ∧
      (pyInt py (cutRequestID r'.requestID)).isSome = (pyInt py (cutRequestID r.requestID)).isSome := by
  have hinj : ∀ m ∈ r.maps, Set.InjOn (podName reg.podIpToGeneralpodid hnum.plainNames)
      {k | k ∈ m.keys} := by
    intro m hm k hk k' hk' heq
    obtain ⟨id, hid⟩ := hnames _ (hkeys m hm k hk)
    obtain ⟨id', hid'⟩ := hnames _ (hkeys m hm k' hk')
    have hval : id = id' := by simpa [podName, hid, hid'] using congrArg Subtype.val heq
    exact Subtype.ext (hnum.lookup_inj hid (hval ▸ hid'))
  have hchars : ∀ ip ∈ podIps, 'p' ∈ (reg.podIpToGeneralpodid.lookup ip).getD ip ∧
      '@' ∉ (reg.podIpToGeneralpodid.lookup ip).getD ip := by
    intro ip hip
    obtain ⟨id, hid⟩ := hnames ip hip
    obtain ⟨k, -, hk⟩ := (hnum.numbers ip id).mp hid
    obtain ⟨hp, hall⟩ := formatGeneralpodid_chars hk
    rw [hid]
    refine ⟨hp, fun hat => ?_⟩
    rcases hall '@' hat with h | h
    · exact absurd h (by decide)
    · exact absurd h (by decide)
  refine ⟨r.rewritten reg.podIpToGeneralpodid hnum.plainNames podIps,
    InferenceRecord.rewrite_logMessage hips hr.maps hkeys hinj, ?_, ?_, ?_,
    InferenceRecord.pods_rewritten hinj, ?_⟩
  · intro hat
    rcases mem_of_mem_rewrite hat with hat | ⟨ip, hip, hat⟩
    · exact hsep hat
    · exact (hchars ip hip).2 hat
  · have hcount := (knownSubAlgorithm py .flat hr.subAlgorithm).2.2
    exact rewrite_of_count_lt hips (by omega)
  · have hmaps : (r.rewritten reg.podIpToGeneralpodid hnum.plainNames podIps).maps =
        r.maps.map (PodMap.rename (podName reg.podIpToGeneralpodid hnum.plainNames)) := rfl
    rw [hmaps]
    intro m' hm'
    obtain ⟨m, hm, rfl⟩ := mem_map.mp hm'
    rw [PodMap.finite_rename (hinj m hm)]
    exact (hr.maps m hm).finite
  · show (pyInt py (cutRequestID (rewrite _ _ r.requestID))).isSome = _
    have hcases : rewrite reg.podIpToGeneralpodid podIps r.requestID = r.requestID ∨ _ :=
      rewrite_eq_or_infix
    rcases hcases with heq | ⟨ip, hip, hsublist, hsub⟩
    · rw [heq]
    · -- neither an address nor a name is part of a number
      have hpoint : '.' ∈ ip := count_pos_iff.mp (by rw [(hips ip hip).points]; omega)
      have hold : pyInt py (cutRequestID r.requestID) = none :=
        pyInt_eq_none (mem_cutRequestID (hsublist.subset hpoint) (by decide)) (by decide) (by decide)
          (by decide) (by decide)
      have hnew : pyInt py (cutRequestID (rewrite reg.podIpToGeneralpodid podIps r.requestID)) = none :=
        pyInt_eq_none (mem_cutRequestID (hsub (hchars ip hip).1) (by decide)) (by decide) (by decide)
          (by decide) (by decide)
      rw [hold, hnew]

lemma handleInfer_ready (json : PythonJson) (hready : s.Ready) {body : Body} {message : Text}
    (hbody : body.logMessage = some message) (hips : extractPodIps py message ≠ [])
    {reg : PodRegistry} {done : Bool}
    (hreg : s.registry.registerPodIps (extractPodIps py message) env.gpuMap
      (.fallback s.targetGpuModel) = (reg, done)) :
    handleInfer py json s env body = (reg, if done = true then inferMessage py json s env reg
        (rewrite reg.podIpToGeneralpodid (extractPodIps py message) message)
      else .error (.raised .assertion)) := by
  have hne : (extractPodIps py message).isEmpty = false := isEmpty_eq_false_iff.mpr hips
  have hmodel : ¬ (s.routingStrategy = "lodestar" ∧ ¬ s.lodestarPreloaded = true) :=
    fun h => h.2 (hready.preloaded h.1)
  unfold handleInfer replacePodIpWithGeneralpodid
  rw [if_neg (by simp [hready.initDone]), if_neg hmodel, hbody]
  simp only [hne, hreg]
  cases done <;> rfl

/-- The handler answers with a pod of the message, whatever the model says. -/
def Answers (py : Characters) (json : PythonJson) (s : InferService F) (env : InferEnv) (body : Body)
    (pods : List PodIP) : Prop :=
  ∀ model : Model F, model.Succeeds → ∃ answer,
    (handleInfer py json { s with model } env body).2 = .ok answer ∧ answer.selectedPod ∈ pods

/-- A model that selects a fixed place if there is one. -/
def Model.always [Inhabited F] (index : ℕ) : Model F where
  preprocess _ _ := some default
  normalize := some
  latencyPredictor _ pods := some ⟨if index < pods.length then index else 0, none, true⟩
  rewardPredictor _ pods := some ⟨if index < pods.length then index else 0, none, true⟩

lemma Model.always_succeeds [Inhabited F] (index : ℕ) : (Model.always index : Model F).Succeeds := by
  have hfits : ∀ pods : List GeneralPodId, pods ≠ [] →
      (⟨if index < pods.length then index else 0, none, true⟩ : Inference).Fits pods.length := by
    intro pods hpods
    refine ⟨?_, by simp⟩
    have := length_pos_of_ne_nil hpods
    split <;> omega
  exact ⟨fun _ _ _ => ⟨_, rfl⟩, fun features => ⟨_, rfl⟩, fun _ pods h => ⟨_, rfl, hfits pods h⟩,
    fun _ pods h => ⟨_, rfl, hfits pods h⟩⟩

lemma of_inferMessage_ok [Inhabited F] (hsep : '@' ∉ r.requestID)
    (hsub : r.subAlgorithm ∈ "latency_predictor".toList :: rewardSubAlgorithms)
    (hfinite : ∀ m ∈ r.maps, m.finite = true) (hnamed : r.pods ≠ []) (hready : s.Ready)
    (h : ∀ model : Model F, model.Succeeds → ∃ answer,
      inferMessage py json { s with model } env reg r.logMessage = .ok answer) :
    (pyInt py (cutRequestID r.requestID)).isSome = true ∧ Published reg (sortedPodIps r.pods) := by
  obtain ⟨answer, hanswer⟩ := h (.always 0) (Model.always_succeeds 0)
  have hint := isSome_of_inferMessage hanswer
  rw [requestIdOf_logMessage hsep] at hint
  refine ⟨hint, fun name hname => ?_⟩
  obtain ⟨index, hindex⟩ := mem_iff_getElem?.mp hname
  obtain ⟨answer, hanswer⟩ := h (.always index) (Model.always_succeeds index)
  obtain ⟨features, inference, hpredict, -, heq⟩ := inferMessage_logMessage py json
    { s with model := (.always index : Model F) } env reg hsep hsub hfinite hnamed
    ⟨hready.initDone, hready.preloaded, hready.stats⟩ (Model.always_succeeds index) hint
  obtain rfl : inference = ⟨index, none, true⟩ := by
    have hvalue := Option.some.inj (hpredict.symm.trans (by
      unfold Model.predict
      split <;> rfl))
    rw [hvalue, if_pos (List.getElem?_eq_some_iff.mp hindex).1]
  exact lookup_of_conclude hindex (heq.symm.trans hanswer)

/-- **When an inference message is answered.**  The request ID must be a number, although it only
decides what is logged. -/
theorem answers_iff [Inhabited F] (py : Characters) (json : PythonJson) (s : InferService F)
    (env : InferEnv) (calls : List (List PodIP × GpuMap × GpuModel))
    (headers : List Gateway.HeaderValue) (r : InferenceRecord) (body : Body)
    (hid : (Gateway.getRequestID headers).toList = r.requestID) (hsep : '@' ∉ r.requestID)
    (hr : r.WellFormed py) (hbody : body.logMessage = some r.logMessage) (hready : s.Ready)
    (hreg : s.registry = .after calls) :
    Answers py json s env body r.pods ↔
      (pyInt py (cutRequestID (Gateway.getRequestID headers).toList)).isSome = true ∧
        s.registry.Resolves (extractPodIps py r.logMessage) r.pods := by
  obtain ⟨hnum, hsound⟩ := PodRegistry.after_spec calls
  rw [← hreg] at hnum hsound
  have hkeys : ∀ m ∈ r.maps, ∀ k ∈ m.keys, k.1 ∈ extractPodIps py r.logMessage :=
    fun m hm k hk => InferenceRecord.mem_extractPodIps hm (hr.maps m hm) hk
  have hpods : ∀ pod ∈ r.pods, pod ∈ extractPodIps py r.logMessage := by
    intro pod hpod
    simp only [InferenceRecord.pods, mem_flatMap, mem_map] at hpod
    obtain ⟨m, hm, k, hk, rfl⟩ := hpod
    rcases InferenceRecord.podMaps_subset hm with rfl | hm
    · exact absurd hk not_mem_nil
    · exact hkeys m hm k hk
  have hfound : extractPodIps py r.logMessage ≠ [] := by
    obtain ⟨pod, hpod⟩ := exists_mem_of_ne_nil _ hr.named
    exact ne_nil_of_mem (hpods pod hpod)
  have hnum' := (hnum.registerPodIps (extractPodIps py r.logMessage) env.gpuMap
    (.fallback s.targetGpuModel)).1
  have hsound' := hsound.registerPodIps hnum (extractPodIps py r.logMessage) env.gpuMap
    (.fallback s.targetGpuModel)
  have hnames := fun ip (hip : ip ∈ extractPodIps py r.logMessage) hdone =>
    hnum.lookup_of_done _ env.gpuMap (.fallback s.targetGpuModel) hdone hip
  rw [hid, hnum.resolves_iff env.gpuMap (.fallback s.targetGpuModel) hpods]
  cases hregister : s.registry.registerPodIps (extractPodIps py r.logMessage) env.gpuMap
    (.fallback s.targetGpuModel) with
  | mk reg done =>
    rw [hregister] at hnum' hsound' hnames
    have hhandle := fun model : Model F => congrArg Prod.snd
      (handleInfer_ready json (s := { s with model })
        ⟨hready.initDone, hready.preloaded, hready.stats⟩ hbody hfound hregister)
    cases done with
    | false =>
      refine iff_of_false (fun h => ?_) (fun h => Bool.noConfusion h.2.1)
      obtain ⟨answer, hanswer, -⟩ := h (.always 0) (Model.always_succeeds 0)
      simp [hhandle] at hanswer
    | true =>
      have hnames : ∀ ip ∈ extractPodIps py r.logMessage,
          ∃ id, reg.podIpToGeneralpodid.lookup ip = some id := fun ip hip => hnames ip hip rfl
      obtain ⟨r', hmessage, hsep', hsub, hfinite, hpods', hint⟩ :=
        rewrite_named hr hsep hnum' (fun ip hip => ipText_of_mem hip) hkeys hnames
      have hpublished := listed_iff hnum' hsound' fun pod hpod => hnames pod (hpods pod hpod)
      rw [← hpods'] at hpublished
      have hnamed : r'.pods ≠ [] := by
        rw [hpods']
        simpa using hr.named
      have hsub' := hsub ▸ hr.subAlgorithm
      simp only [hmessage] at hhandle
      rw [← hint, ← hpublished]
      constructor
      · intro h
        obtain ⟨hint, hall⟩ := of_inferMessage_ok hsep' hsub' hfinite hnamed hready fun model hmodel => by
          obtain ⟨answer, hanswer, -⟩ := h model hmodel
          exact ⟨answer, (hhandle model).symm.trans hanswer⟩
        exact ⟨hint, rfl, hall⟩
      · rintro ⟨hint, -, hall⟩ model hmodel
        obtain ⟨features, inference, -, hfits, heq⟩ :=
          inferMessage_logMessage py json { s with model } env reg hsep' hsub' hfinite hnamed
            ⟨hready.initDone, hready.preloaded, hready.stats⟩ hmodel hint
        obtain ⟨answer, hanswer, hindex, hlookup⟩ := conclude_ok env hfits hall hint
        refine ⟨answer, (hhandle model).trans (heq.trans hanswer), ?_⟩
        have hname := mem_sortedPodIps.mp (mem_of_getElem? hindex)
        rw [hpods'] at hname
        obtain ⟨pod, hpod, hname⟩ := mem_map.mp hname
        obtain ⟨id, hid⟩ := hnames pod (hpods pod hpod)
        rw [← hname, hid] at hlookup
        rwa [hnum'.lookup_inj (hsound' id _ hlookup) hid]

def started : InferService Unit where
  initDone := true
  routingStrategy := "lodestar"
  lodestarPreloaded := true
  stats := some 1
  registry := .after []
  targetGpuModel := none
  model := .always 0
  rewardSimilarityThreshold := 0
  loadPretrainedModel := true
  retrainAtStartup := false
  fixedRange := false
  numTrains := 1

def quietEnv : InferEnv where
  gpuMap := ∅
  oodDetected := false
  prefixGroup := none
  hash _ _ := 0
  draw := 0

lemma onePod_wellFormed (id : Text) : (InferenceRecord.onePod id).WellFormed .ascii := by
  have hpod : PodAddress .ascii "10.0.0.7".toList := ⟨by decide +kernel, by decide +kernel⟩
  have hsingle : ∀ (v : Scalar), v.text.count '.' < 3 →
      PodMap.finite (AList.singleton ⟨"10.0.0.7".toList, all_eq_true.mp (by decide)⟩ v) = true →
      PodMap.ByAddress .ascii (AList.singleton ⟨"10.0.0.7".toList, all_eq_true.mp (by decide)⟩ v) := by
    intro v hv hfinite
    refine ⟨hfinite, fun k hk => ?_, fun e he => ?_⟩
    · obtain rfl := List.mem_singleton.mp hk
      exact hpod
    · obtain rfl := List.mem_singleton.mp he
      exact hv
  have hempty : PodMap.ByAddress .ascii ∅ :=
    ⟨rfl, fun k hk => absurd hk not_mem_nil, fun e he => absurd he not_mem_nil⟩
  refine ⟨mem_cons_of_mem _ mem_cons_self, ?_, cons_ne_nil _ _⟩
  simp only [InferenceRecord.maps, forall_mem_cons, not_mem_nil,
    false_imp_iff, implies_true, and_true]
  refine ⟨hsingle _ ?_ ?_, hsingle _ ?_ ?_, hsingle _ ?_ ?_, hsingle _ ?_ ?_, hempty, hsingle _ ?_ ?_,
    hsingle _ ?_ ?_, hsingle _ ?_ ?_, hsingle _ ?_ ?_, hsingle _ ?_ ?_, hsingle _ ?_ ?_, hsingle _ ?_ ?_⟩
  all_goals decide +kernel

theorem answers_number : (InferenceRecord.onePod "42".toList).pods ≠ [] ∧
    Answers .ascii .flat started quietEnv (.text (InferenceRecord.onePod "42".toList).logMessage)
      (InferenceRecord.onePod "42".toList).pods := by
  refine ⟨(onePod_wellFormed _).named, (answers_iff .ascii .flat started quietEnv []
    [⟨"request-id", "", "42"⟩] _ _ ?_ ?_ (onePod_wellFormed _) rfl
    ⟨rfl, fun _ => rfl, 1, rfl, Nat.one_pos⟩ rfl).mpr ⟨?_, ?_, .inl ?_⟩⟩
  · decide +kernel
  · decide +kernel
  · decide +kernel
  · decide +kernel
  · exact ⟨"10.0.0.7".toList, by decide +kernel, by decide +kernel⟩

/-- An empty ID, or one with a letter, makes the handler fail. -/
theorem invalid_literal : (handleInfer .ascii .flat started quietEnv
        (.text (InferenceRecord.onePod "".toList).logMessage)).2 =
      .error (.raised (.invalidLiteral "".toList)) ∧
    (handleInfer .ascii .flat started quietEnv
        (.text (InferenceRecord.onePod "abc".toList).logMessage)).2 =
      .error (.raised (.invalidLiteral "abc".toList)) := by
  decide +kernel

end Lodestar.Agent
