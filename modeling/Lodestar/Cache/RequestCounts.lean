import Lodestar.Lib.Run
import Lodestar.Cache.Store

/-!
# The request counters of pods and models

The counter of running requests is a field of the record of a pod, and the counter of
pending requests one of the record of a model.  A request that starts is added to the
records it finds, and taken off the records it finds when it completes.  So the counters
are exact as long as records keep their name for the lifetime of the requests: a record
that is stored while a request for its name is active starts from 0 and misses that
request, and goes below 0 when the request completes.

`requestCounters_run_iff` says that this is all that can go wrong.  An update of a pod
always drops the record and stores a fresh one.
-/

namespace Lodestar.Cache

open Lib List

namespace Store

def running (c : Store) (podName : String) : Option ℤ :=
  (c.metaPods.lookup podName).map PodRecord.runningRequests

def waiting (c : Store) (modelName : String) : Option ℤ :=
  (c.metaModels.lookup modelName).map ModelRecord.pendingRequests

/-! ### What an action does to the counters -/

section

variable (c : Store)

@[simp]
lemma running_addPending (modelName podName : String) (n : ℤ) :
    (c.addPending modelName n).running podName = c.running podName := by
  unfold addPending
  split <;> rfl

@[simp]
lemma waiting_addRunning (target : Option String) (modelName : String) (n : ℤ) :
    (c.addRunning target n).waiting modelName = c.waiting modelName := by
  unfold addRunning
  split
  · rfl
  · split <;> rfl

lemma running_addRunning (target : Option String) (podName : String) (n : ℤ) :
    (c.addRunning target n).running podName =
      if target = some podName then (c.running podName).map (· + n) else c.running podName := by
  unfold addRunning running
  cases target with
  | none => simp
  | some name =>
    dsimp only
    by_cases h : name = podName
    · subst h
      cases hl : c.metaPods.lookup name <;> simp [hl]
    · cases hl : c.metaPods.lookup name with
      | none => simp [h]
      | some record => simp [h, Ne.symm h]

lemma waiting_addPending (modelName name : String) (n : ℤ) :
    (c.addPending modelName n).waiting name =
      if modelName = name then (c.waiting name).map (· + n) else c.waiting name := by
  unfold addPending waiting
  by_cases h : modelName = name
  · subst h
    cases hl : c.metaModels.lookup modelName <;> simp [hl]
  · cases hl : c.metaModels.lookup modelName with
    | none => simp [h]
    | some record => simp [h, Ne.symm h]

lemma running_addPodLocked (pod : PodObject) (podName : String) :
    (c.addPodLocked pod).running podName =
      if podName = pod.name ∧ c.metaPods.lookup podName = none then some 0
      else c.running podName := by
  unfold addPodLocked running
  cases hl : c.metaPods.lookup pod.name with
  | none =>
    by_cases h : podName = pod.name
    · subst h
      simp [hl]
    · simp [h]
  | some record =>
    rw [if_neg]
    rintro ⟨rfl, hn⟩
    simp [hl] at hn

lemma waiting_addPodLocked (pod : PodObject) (modelName : String) :
    (c.addPodLocked pod).waiting modelName = c.waiting modelName := by
  unfold addPodLocked
  split <;> rfl

lemma running_addPodAndModelMapping (podName modelName name : String) :
    (c.addPodAndModelMapping podName modelName).running name = c.running name := by
  unfold addPodAndModelMapping running
  cases hl : c.metaPods.lookup podName with
  | none => rfl
  | some pod =>
    rw [lookup_insert]
    split
    · rename_i h
      subst h
      simp [hl]
    · rfl

lemma waiting_addPodAndModelMapping (podName modelName name : String) :
    (c.addPodAndModelMapping podName modelName).waiting name =
      if name = modelName ∧ (c.metaPods.lookup podName).isSome = true ∧
        c.metaModels.lookup modelName = none then some 0 else c.waiting name := by
  unfold addPodAndModelMapping waiting
  cases hp : c.metaPods.lookup podName with
  | none => simp
  | some pod =>
    by_cases h : name = modelName
    · subst h
      cases hl : c.metaModels.lookup name <;> simp
    · simp [h]

lemma running_deletePodLocked (podName name : String) :
    (c.deletePodLocked podName).running name = if name = podName then none else c.running name := by
  unfold deletePodLocked running
  rw [lookup_erase]
  split <;> rfl

lemma running_deletePodAndModelMapping (podName modelName name : String) (ignoreMapping : ℤ) :
    (c.deletePodAndModelMapping podName modelName ignoreMapping).running name = c.running name := by
  have hpod : ∀ c : Store, (c.forgetPod podName modelName).running name = c.running name := by
    intro c
    unfold forgetPod
    split
    · rfl
    · dsimp only
      split <;> rfl
  have hmodel : (c.forgetModel podName modelName).running name = c.running name := by
    unfold forgetModel running
    cases hl : c.metaPods.lookup podName with
    | none => rfl
    | some pod =>
      rw [lookup_insert]
      split
      · rename_i h
        subst h
        simp [hl]
      · rfl
  unfold deletePodAndModelMapping
  split <;> split <;> simp only [hpod, hmodel]

lemma waiting_deletePodAndModelMapping (podName modelName name : String) (ignoreMapping : ℤ) :
    (c.deletePodAndModelMapping podName modelName ignoreMapping).waiting name = none ∨
      (c.deletePodAndModelMapping podName modelName ignoreMapping).waiting name = c.waiting name := by
  have hpod : ∀ c : Store, (c.forgetPod podName modelName).waiting name = none ∨
      (c.forgetPod podName modelName).waiting name = c.waiting name := by
    intro c
    unfold forgetPod waiting
    cases hl : c.metaModels.lookup modelName with
    | none => exact .inr rfl
    | some model =>
      dsimp only
      split
      · rw [lookup_erase]
        split
        · exact .inl rfl
        · exact .inr rfl
      · right
        rw [lookup_insert]
        split
        · rename_i h
          subst h
          simp [hl]
        · rfl
  have hmodel : (c.forgetModel podName modelName).waiting name = c.waiting name := by
    unfold forgetModel
    split <;> rfl
  unfold deletePodAndModelMapping
  dsimp only
  split <;> split
  · rw [← hmodel]
    exact hpod _
  · exact hpod c
  · exact .inr hmodel
  · exact .inr rfl

end
end Store

/-! ### Exact counters -/

def runningOn (active : List Request) (podName : String) : ℕ :=
  active.countP fun r => r.target = some podName

def waitingFor (active : List Request) (modelName : String) : ℕ :=
  active.countP fun r => r.model = modelName

/-- **The counters are exact**: each one is the number of active requests. -/
structure Exact (σ : System) : Prop where
  running : ∀ podName v, σ.store.running podName = some v → v = runningOn σ.active podName
  waiting : ∀ modelName v, σ.store.waiting modelName = some v → v = waitingFor σ.active modelName

/-- What has to hold before an event for it to keep the counters exact: a record that is
stored is one for a pod without running requests, or for a model without pending ones. -/
def Fresh (σ : System) : Event → Prop
  | .act => match σ.pending with
    | .addPodLocked pod :: _ =>
      σ.store.metaPods.lookup pod.name = none → ∀ r ∈ σ.active, r.target ≠ some pod.name
    | .addPodAndModelMapping podName modelName :: _ =>
      (σ.store.metaPods.lookup podName).isSome = true → σ.store.metaModels.lookup modelName = none →
        ∀ r ∈ σ.active, r.model ≠ modelName
    | _ => True
  | _ => True

variable {σ : System}

lemma runningOn_eq_zero {active : List Request} {podName : String} :
    runningOn active podName = 0 ↔ ∀ r ∈ active, r.target ≠ some podName := by
  simp [runningOn]

lemma waitingFor_eq_zero {active : List Request} {modelName : String} :
    waitingFor active modelName = 0 ↔ ∀ r ∈ active, r.model ≠ modelName := by
  simp [waitingFor]

lemma countP_erase_add_of_mem {P : Request → Bool} {active : List Request} {r : Request}
    (h : r ∈ active) : ((active.erase r).countP P : ℤ) = active.countP P + if P r then -1 else 0 := by
  have hperm := (perm_cons_erase h).countP_eq P
  rw [countP_cons] at hperm
  split at hperm <;> rename_i hp <;> simp only [hp] <;> push_cast [hperm] <;> simp

lemma count_move {v w : Option ℤ} {c c' n : ℤ} {hit : Prop} [Decidable hit]
    (hw : w = if hit then v.map (· + n) else v) (hc : c' = c + if hit then n else 0)
    (h : ∀ x, v = some x → x = c) (x : ℤ) (hx : w = some x) : x = c' := by
  rw [hw] at hx
  split at hx
  · rename_i ht
    obtain ⟨y, hy, rfl⟩ := Option.map_eq_some_iff.mp hx
    rw [hc, if_pos ht, h y hy]
  · rename_i ht
    rw [hc, if_neg ht, add_zero, h x hx]

lemma Exact.move (h : Exact σ) {r : Request} {n : ℤ} {store : Store} {active : List Request}
    (hrun : ∀ podName, store.running podName = if r.target = some podName then
      (σ.store.running podName).map (· + n) else σ.store.running podName)
    (hwait : ∀ modelName, store.waiting modelName = if r.model = modelName then
      (σ.store.waiting modelName).map (· + n) else σ.store.waiting modelName)
    (hcount : ∀ P : Request → Bool, (active.countP P : ℤ) =
      σ.active.countP P + if P r then n else 0) :
    Exact { σ with store := store, active := active } := by
  constructor
  · intro podName
    exact count_move (hrun podName) (by simpa [runningOn] using hcount fun r => r.target = some podName)
      (h.running podName)
  · intro modelName
    exact count_move (hwait modelName) (by simpa [waitingFor] using hcount fun r => r.model = modelName)
      (h.waiting modelName)

lemma Exact.start (h : Exact σ) (r : Request) : Exact (σ.step (.start r)) := by
  refine h.move (r := r) (n := 1) (fun podName => ?_) (fun modelName => ?_) fun P => ?_
  · rw [Store.addRequestCount, Store.running_addRunning, Store.running_addPending]
  · rw [Store.addRequestCount, Store.waiting_addRunning, Store.waiting_addPending]
  · rw [countP_cons]
    push_cast
    rfl

lemma Exact.complete (h : Exact σ) (r : Request) : Exact (σ.step (.complete r)) := by
  unfold System.step
  dsimp only
  split
  · rename_i hr
    refine h.move (fun podName => ?_) (fun modelName => ?_) fun P =>
      countP_erase_add_of_mem hr
    · rw [Store.doneRequestCount, Store.running_addPending, Store.running_addRunning]
    · rw [Store.doneRequestCount, Store.waiting_addPending, Store.waiting_addRunning]
  · exact h

lemma Exact.of_dropped (h : Exact σ) {σ' : System} (ha : σ'.active = σ.active)
    (hrun : ∀ podName, σ'.store.running podName = none ∨
      σ'.store.running podName = σ.store.running podName)
    (hwait : ∀ modelName, σ'.store.waiting modelName = none ∨
      σ'.store.waiting modelName = σ.store.waiting modelName) : Exact σ' := by
  constructor
  · intro podName v hv
    rw [ha]
    rcases hrun podName with hn | he
    · simp [hn] at hv
    · exact h.running podName v (he ▸ hv)
  · intro modelName v hv
    rw [ha]
    rcases hwait modelName with hn | he
    · simp [hn] at hv
    · exact h.waiting modelName v (he ▸ hv)

/-- **One event**: the counters stay exact exactly when no record is stored under the name
of an active request. -/
lemma exact_step_iff (h : Exact σ) (e : Event) : Exact (σ.step e) ↔ Fresh σ e := by
  cases e with
  | start r => exact ⟨fun _ => trivial, fun _ => h.start r⟩
  | complete r => exact ⟨fun _ => trivial, fun _ => h.complete r⟩
  | notice notice =>
    refine ⟨fun _ => trivial, fun _ => ?_⟩
    unfold System.step
    dsimp only
    split <;> exact ⟨h.running, h.waiting⟩
  | act =>
    unfold System.step Fresh
    cases hp : σ.pending with
    | nil => simpa using h
    | cons action rest =>
      dsimp only
      cases action with
      | addPodLocked pod =>
        have hrun := σ.store.running_addPodLocked pod
        constructor
        · intro h' hnone
          have hzero := h'.running pod.name 0 (by rw [Store.act, hrun, if_pos ⟨rfl, hnone⟩])
          exact runningOn_eq_zero.mp (by exact_mod_cast hzero.symm)
        · intro hfresh
          refine ⟨fun podName v hv => ?_, fun modelName v hv => ?_⟩
          · rw [Store.act, hrun] at hv
            split at hv
            · rename_i hnew
              obtain ⟨rfl, hnone⟩ := hnew
              obtain rfl := Option.some.inj hv
              simp [runningOn_eq_zero.mpr (hfresh hnone)]
            · exact h.running podName v hv
          · rw [Store.act, Store.waiting_addPodLocked] at hv
            exact h.waiting modelName v hv
      | addPodAndModelMapping podName modelName =>
        have hwait := σ.store.waiting_addPodAndModelMapping podName modelName
        constructor
        · intro h' htracked hnone
          have hzero := h'.waiting modelName 0
            (by rw [Store.act, hwait, if_pos ⟨rfl, htracked, hnone⟩])
          exact waitingFor_eq_zero.mp (by exact_mod_cast hzero.symm)
        · intro hfresh
          refine ⟨fun name v hv => ?_, fun name v hv => ?_⟩
          · rw [Store.act, Store.running_addPodAndModelMapping] at hv
            exact h.running name v hv
          · rw [Store.act, hwait] at hv
            split at hv
            · rename_i hnew
              obtain ⟨rfl, htracked, hnone⟩ := hnew
              obtain rfl := Option.some.inj hv
              simp [waitingFor_eq_zero.mpr (hfresh htracked hnone)]
            · exact h.waiting name v hv
      | deletePodLocked podName =>
        have hrun := σ.store.running_deletePodLocked podName
        refine ⟨fun _ => trivial, fun _ => h.of_dropped rfl (fun name => ?_) fun name => .inr rfl⟩
        by_cases hname : name = podName
        · exact .inl ((hrun name).trans (if_pos hname))
        · exact .inr ((hrun name).trans (if_neg hname))
      | deletePodAndModelMapping podName modelName ignoreMapping =>
        refine ⟨fun _ => trivial, fun _ => h.of_dropped rfl (fun name => .inr ?_) fun name => ?_⟩
        · exact σ.store.running_deletePodAndModelMapping podName modelName name ignoreMapping
        · exact σ.store.waiting_deletePodAndModelMapping podName modelName name ignoreMapping

instance (σ : System) : ∀ e, Decidable (Fresh σ e)
  | .act => by
    unfold Fresh
    dsimp only
    split <;> infer_instance
  | .start _ | .complete _ | .notice _ => isTrue trivial

/-- **The counters over whole runs**: in every state of a run the counter of every
tracked pod is the number of active requests routed to it and that of every known model the number
of those for it, exactly when no record is stored under the name of an active request. -/
theorem requestCounters_run_iff (es : List Event) :
    (∀ es', es' <+: es → Exact (System.run {} es')) ↔ Along System.step Fresh {} es := by
  have hstart : Exact {} := by
    constructor <;> intro name v hv <;> simp [Store.running, Store.waiting] at hv
  exact along_iff_invariant hstart fun σ e h => exact_step_iff h e

/-- An update of a pod with a running request: its counter and that of its model miss the
request, and go below 0 when it completes. -/
theorem requestCounters_run_update : let pod : PodObject := ⟨"p", some "m", none⟩
    let r : Request := ⟨"r", some "p", "m"⟩
    let es := [.notice (.addPod pod), .act, .act, .start r, .notice (.updatePod pod pod), .act, .act,
      .act, .act]
    let σ := System.run {} es
    σ.active = [r] ∧ σ.store.running "p" = some 0 ∧ σ.store.waiting "m" = some 0 ∧
      (σ.step (.complete r)).store.running "p" = some (-1) ∧
      (σ.step (.complete r)).store.waiting "m" = some (-1) := by
  decide +kernel

/-- Two pods of one model, one of which is updated while only the other has a request. -/
theorem requestCounters_run_other : let p : PodObject := ⟨"p", some "m", none⟩
    let q : PodObject := ⟨"q", some "m", none⟩
    Exact (System.run {} [.notice (.addPod p), .act, .act, .notice (.addPod q), .act, .act,
      .start ⟨"r", some "p", "m"⟩, .notice (.updatePod q q), .act, .act, .act, .act]) := by
  intro p q
  exact (requestCounters_run_iff _).mpr (by decide +kernel) _ (prefix_refl _)

end Lodestar.Cache
