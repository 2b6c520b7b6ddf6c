import Lodestar.Lib.Run

/-!
# The hand-over of a trained model

A round of online training ends by raising the flag `MODEL_UPDATED`
(`online_train_routine` of `agent_codes/routing_agent_service.py`).  A request reads the flag, passes
it to `infer_from_tensor` of `agent_codes/reward_predictor.py`, which may reload the agent, and
clears the flag afterwards.  The flag is not protected by a lock.  A second variable says that an
update was consumed, a third one that a reload is in progress, and the reload is skipped if the lock
of the agent is taken.

Requests, reloads and the training run in threads.  An event is one step of one thread; a thread that
waits for the lock does not move.
-/

namespace Lodestar.Agent

open Lib List

/-! ### The program -/

/-- `current_config_key`. -/
structure ConfigKey where
  podFeatures : ℕ
  kvHitRatios : ℕ
  requestFeatures : ℕ
  numPods : ℕ
  deriving DecidableEq

/-- Where a request is.  The argument is `model_updated`, and from `decided` on
`model_updated_effective`. -/
inductive RequestPc where
  /-- The flag was read. -/
  | entered (modelUpdated : Bool)
  /-- `_model_updated_consumed` was reset if the flag was not set. -/
  | marked (modelUpdated : Bool)
  | decided (effective : Bool)
  /-- A synchronous reload is needed: the request waits for the lock. -/
  | awaitLock (effective : Bool)
  /-- With the lock, before the second check. -/
  | doubleCheck (effective : Bool)
  /-- With the lock, in the reload. -/
  | reloading (effective : Bool)
  /-- Before the asynchronous reload. -/
  | checked (effective : Bool)
  | tryLock
  /-- With the lock, before the look at `_reload_in_progress`. -/
  | acquired
  /-- With the lock, before the start of the thread. -/
  | starting
  | releasing
  | inferring
  /-- The flag was seen; it will be cleared. -/
  | clearing
  deriving DecidableEq

/-- The request will begin a reload if none of the checks before it stops it. -/
def RequestPc.willReload : RequestPc → Bool
  | .entered b | .marked b | .decided b | .awaitLock b | .doubleCheck b | .reloading b
  | .checked b => b
  | .tryLock | .acquired | .starting => true
  | .releasing | .inferring | .clearing => false

structure Request where
  config : ConfigKey
  pc : RequestPc
  deriving DecidableEq

inductive ReloaderPc where
  | loading
  | awaitLock
  /-- With the lock. -/
  | swapping
  | finishing
  deriving DecidableEq

structure Reloader where
  config : ConfigKey
  pc : ReloaderPc
  deriving DecidableEq

/-- The holder of `_agent_lock`. -/
inductive LockOwner where
  | request (id : ℕ)
  | reloader (id : ℕ)
  deriving DecidableEq

inductive Mark where
  | raised
  | begun
  | cleared
  deriving DecidableEq

/-- The state of the two modules; the history has the newest mark first. -/
structure Handover where
  modelUpdated : Bool := true
  cachedAgent : Bool := false
  cachedConfigKey : Option ConfigKey := none
  modelUpdatedConsumed : Bool := false
  reloadInProgress : Bool := false
  agentLock : Option LockOwner := none
  requests : AList fun _ : ℕ => Request := ∅
  reloaders : AList fun _ : ℕ => Reloader := ∅
  nextReloader : ℕ := 0
  history : List Mark := []

namespace Handover

/-- The start of the service, with the agent that `preload_agent_from_metadata` loaded, if any. -/
def initial : Option ConfigKey → Handover
  | none => {}
  | some config =>
    { cachedAgent := true, cachedConfigKey := some config, modelUpdatedConsumed := true }

def needsSyncReload (s : Handover) (config : ConfigKey) : Bool :=
  !s.cachedAgent || s.cachedConfigKey ≠ some config

def moveTo (s : Handover) (id : ℕ) (req : Request) (pc : RequestPc) : Handover :=
  { s with requests := s.requests.insert id { req with pc } }

def advance (s : Handover) (id : ℕ) (req : Request) : Handover :=
  match req.pc with
  | .entered modelUpdated =>
    let s := if modelUpdated then s else { s with modelUpdatedConsumed := false }
    s.moveTo id req (.marked modelUpdated)
  | .marked modelUpdated => s.moveTo id req (.decided (modelUpdated && !s.modelUpdatedConsumed))
  | .decided effective =>
    s.moveTo id req (if s.needsSyncReload req.config then .awaitLock effective else .checked effective)
  | .awaitLock effective =>
    if s.agentLock.isSome then s
    else { s with agentLock := some (.request id) }.moveTo id req (.doubleCheck effective)
  | .doubleCheck effective =>
    if s.needsSyncReload req.config then
      { s with history := .begun :: s.history }.moveTo id req (.reloading effective)
    else { s with agentLock := none }.moveTo id req (.checked effective)
  | .reloading effective =>
    { s with
      cachedAgent := true
      cachedConfigKey := some req.config
      modelUpdatedConsumed := s.modelUpdatedConsumed || effective
      agentLock := none }.moveTo id req (.checked effective)
  | .checked effective =>
    s.moveTo id req (if effective && s.cachedAgent then .tryLock else .inferring)
  | .tryLock =>
    if s.agentLock.isSome then s.moveTo id req .inferring
    else { s with agentLock := some (.request id) }.moveTo id req .acquired
  | .acquired =>
    if s.reloadInProgress then s.moveTo id req .releasing
    else
      { s with reloadInProgress := true, modelUpdatedConsumed := true }.moveTo id req .starting
  | .starting =>
    { s with
      reloaders := s.reloaders.insert s.nextReloader ⟨req.config, .loading⟩
      nextReloader := s.nextReloader + 1
      history := .begun :: s.history }.moveTo id req .releasing
  | .releasing => { s with agentLock := none }.moveTo id req .inferring
  | .inferring =>
    if s.modelUpdated then s.moveTo id req .clearing else { s with requests := s.requests.erase id }
  | .clearing =>
    { s with
      modelUpdated := false
      requests := s.requests.erase id
      history := .cleared :: s.history }

/-- An exception in a request: in the synchronous reload, at the start of the thread or in the
inference.  The request ends without clearing the flag. -/
def raiseIn (s : Handover) (id : ℕ) (req : Request) : Handover :=
  match req.pc with
  | .reloading _ | .starting => { s with agentLock := none, requests := s.requests.erase id }
  | .inferring => { s with requests := s.requests.erase id }
  | _ => s

def advanceReloader (s : Handover) (id : ℕ) (t : Reloader) : Handover :=
  match t.pc with
  | .loading => { s with reloaders := s.reloaders.insert id { t with pc := .awaitLock } }
  | .awaitLock =>
    if s.agentLock.isSome then s
    else
      { s with
        agentLock := some (.reloader id)
        reloaders := s.reloaders.insert id { t with pc := .swapping } }
  | .swapping =>
    { s with
      cachedAgent := true
      cachedConfigKey := some t.config
      agentLock := none
      reloaders := s.reloaders.insert id { t with pc := .finishing } }
  | .finishing => { s with reloadInProgress := false, reloaders := s.reloaders.erase id }

def raiseInReloader (s : Handover) (id : ℕ) (t : Reloader) : Handover :=
  match t.pc with
  | .loading =>
    { s with
      modelUpdatedConsumed := false
      reloaders := s.reloaders.insert id { t with pc := .finishing } }
  | _ => s

inductive Event where
  /-- A new request, which reads the flag. -/
  | request (id : ℕ) (config : ConfigKey)
  | requestStep (id : ℕ)
  | requestFails (id : ℕ)
  | reloaderStep (id : ℕ)
  | reloaderFails (id : ℕ)
  /-- `train` makes an agent if there is none. -/
  | trainAgent
  /-- A round of training is finished. -/
  | trained

def step (s : Handover) : Event → Handover
  | .request id config =>
    if id ∈ s.requests then s
    else { s with requests := s.requests.insert id ⟨config, .entered s.modelUpdated⟩ }
  | .requestStep id =>
    match s.requests.lookup id with
    | none => s
    | some req => s.advance id req
  | .requestFails id =>
    match s.requests.lookup id with
    | none => s
    | some req => s.raiseIn id req
  | .reloaderStep id =>
    match s.reloaders.lookup id with
    | none => s
    | some t => s.advanceReloader id t
  | .reloaderFails id =>
    match s.reloaders.lookup id with
    | none => s
    | some t => s.raiseInReloader id t
  | .trainAgent => { s with cachedAgent := true }
  | .trained => { s with modelUpdated := true, history := .raised :: s.history }

def run (preloaded : Option ConfigKey) (events : List Event) : Handover :=
  events.foldl step (initial preloaded)

/-! ### Lost updates -/

/-- Between a raise of the flag and the next time it is cleared a reload begins. -/
def NoneLost (history : List Mark) : Prop :=
  ∀ newer between older, history = newer ++ Mark.cleared :: between ++ Mark.raised :: older →
    Mark.cleared ∉ between → Mark.begun ∈ between

/-- The flag was raised, and since then no reload has begun and the flag was not cleared. -/
def Pending (s : Handover) : Prop := s.history.head? = some .raised

instance (s : Handover) : Decidable s.Pending := inferInstanceAs (Decidable (_ = _))

/-- The check that the request is about to make does not keep it from a reload. -/
def passes (s : Handover) : RequestPc → Bool
  | .marked _ => !s.modelUpdatedConsumed
  | .tryLock => s.agentLock.isNone
  | .acquired => !s.reloadInProgress
  | _ => true

/-- The flag is raised only when every request on its way will begin a reload, and while the update
waits for a reload, no request skips it. -/
def Undisturbed (s : Handover) : Event → Prop
  | .trained => ∀ e ∈ s.requests.entries, e.2.pc.willReload = true
  | .requestStep id => s.Pending → ∀ req ∈ s.requests.lookup id, s.passes req.pc = true
  | _ => True

instance (s : Handover) (e : Event) : Decidable (s.Undisturbed e) := by
  cases e <;> unfold Undisturbed <;> infer_instance

lemma noneLost_cons {history : List Mark} {m : Mark} (h : NoneLost history)
    (hm : m = .cleared → history.head? ≠ some .raised) : NoneLost (m :: history) := by
  intro newer between older heq hcleared
  cases newer with
  | cons m' newer =>
    rw [cons_append, cons_append, List.cons.injEq] at heq
    exact h newer between older heq.2 hcleared
  | nil =>
    obtain ⟨rfl, rfl⟩ := heq
    cases between with
    | nil => exact absurd rfl (hm rfl)
    | cons m between =>
      cases m with
      | raised => exact absurd rfl (hm rfl)
      | begun => exact mem_cons_self
      | cleared => exact absurd mem_cons_self hcleared

/-- While an update waits for its reload, the flag is set and every request on its way will begin a
reload. -/
structure Safe (s : Handover) : Prop where
  noneLost : NoneLost s.history
  flag : s.Pending → s.modelUpdated = true
  ready : s.Pending → ∀ id req, s.requests.lookup id = some req → req.pc.willReload = true
  cached : ∀ id req effective, s.requests.lookup id = some req → req.pc = .checked effective →
    s.cachedAgent = true

variable {s s' : Handover}

lemma Safe.frame (h : s.Safe) (hhistory : s'.history = s.history)
    (hflag : s'.modelUpdated = s.modelUpdated) (hcached : s.cachedAgent = true → s'.cachedAgent = true)
    (hreq : ∀ id req, s'.requests.lookup id = some req → s.requests.lookup id = some req ∨
      (s.Pending → req.pc.willReload = true) ∧
        ∀ effective, req.pc = .checked effective → s'.cachedAgent = true) : s'.Safe := by
  have hpending : s'.Pending ↔ s.Pending := by rw [Pending, hhistory, Pending]
  refine ⟨hhistory ▸ h.noneLost, fun hp => ?_, fun hp id req hl => ?_, fun id req eff hl hpc => ?_⟩
  · rw [hflag]
    exact h.flag (hpending.mp hp)
  · rcases hreq id req hl with hold | hnew
    · exact h.ready (hpending.mp hp) id req hold
    · exact hnew.1 (hpending.mp hp)
  · rcases hreq id req hl with hold | hnew
    · exact hcached (h.cached id req eff hold hpc)
    · exact hnew.2 eff hpc

lemma lookup_moveTo {id id' : ℕ} {req req' : Request} {pc : RequestPc}
    (h : (s.moveTo id req pc).requests.lookup id' = some req') :
    s.requests.lookup id' = some req' ∨ req' = { req with pc } := by
  unfold moveTo at h
  by_cases hid : id' = id
  · subst hid
    rw [AList.lookup_insert, Option.some.injEq] at h
    exact .inr h.symm
  · rw [AList.lookup_insert_ne hid] at h
    exact .inl h

lemma Safe.moveTo (h : s.Safe) (id : ℕ) (req : Request) {pc : RequestPc}
    (hready : s.Pending → pc.willReload = true)
    (hchecked : ∀ effective, pc = .checked effective → s'.cachedAgent = true)
    (hhistory : s'.history = s.history := by rfl)
    (hflag : s'.modelUpdated = s.modelUpdated := by rfl)
    (hcached : s.cachedAgent = true → s'.cachedAgent = true := by exact fun hc => hc)
    (hrequests : s'.requests = s.requests := by rfl) : (s'.moveTo id req pc).Safe := by
  refine h.frame hhistory hflag hcached fun id' req' hl => ?_
  rcases lookup_moveTo hl with hold | rfl
  · exact .inl (hrequests ▸ hold)
  · exact .inr ⟨hready, hchecked⟩

attribute [local simp] Pending

lemma Safe.begin (h : s.Safe) : ({ s with history := .begun :: s.history } : Handover).Safe where
  noneLost := noneLost_cons h.noneLost (by simp)
  flag hp := by simp at hp
  ready hp := by simp at hp
  cached := h.cached

lemma Safe.erase (h : s.Safe) (hhistory : s'.history = s.history)
    (hflag : s'.modelUpdated = s.modelUpdated) (hcached : s'.cachedAgent = s.cachedAgent) {id : ℕ}
    (hrequests : s'.requests = s.requests.erase id) : s'.Safe := by
  refine h.frame hhistory hflag (hcached ▸ ·) fun id' req' hl => .inl ?_
  rw [hrequests] at hl
  by_cases hid : id' = id
  · subst hid
    simp at hl
  · rwa [AList.lookup_erase_ne hid] at hl

lemma Safe.clear (h : s.Safe) (hp : ¬ s.Pending) (id : ℕ) :
    ({ s with modelUpdated := false, requests := s.requests.erase id,
              history := .cleared :: s.history } : Handover).Safe where
  noneLost := noneLost_cons h.noneLost fun _ => hp
  flag hp := by simp at hp
  ready hp := by simp at hp
  cached id' req effective hl hpc := by
    by_cases hid : id' = id
    · subst hid
      simp at hl
    · rw [AList.lookup_erase_ne hid] at hl
      exact h.cached id' req effective hl hpc

lemma cachedAgent_of_not_needsSyncReload {config : ConfigKey}
    (h : ¬ s.needsSyncReload config = true) : s.cachedAgent = true := by
  simp only [needsSyncReload, Bool.or_eq_true, not_or] at h
  simpa using h.1

lemma Safe.advance (h : s.Safe) {id : ℕ} {req : Request} (hl : s.requests.lookup id = some req)
    (hpass : s.Pending → s.passes req.pc = true) : (s.advance id req).Safe := by
  have hready := fun hp => h.ready hp id req hl
  unfold Handover.advance
  cases hpc : req.pc with
  | entered modelUpdated =>
    rw [hpc] at hready
    cases modelUpdated <;> exact h.moveTo id req hready (by simp)
  | marked modelUpdated =>
    rw [hpc] at hready hpass
    refine h.moveTo id req (fun hp => ?_) (by simp)
    have hmarked : modelUpdated = true := hready hp
    have hconsumed : (!s.modelUpdatedConsumed) = true := hpass hp
    simp [RequestPc.willReload, hmarked, hconsumed]
  | decided effective =>
    rw [hpc] at hready
    dsimp only
    split
    · exact h.moveTo id req hready (by simp)
    · rename_i hneeds
      exact h.moveTo id req hready fun _ _ => cachedAgent_of_not_needsSyncReload hneeds
  | awaitLock effective =>
    rw [hpc] at hready
    dsimp only
    split
    · exact h
    · exact h.moveTo id req hready (by simp)
  | doubleCheck effective =>
    rw [hpc] at hready
    dsimp only
    split
    · exact h.begin.moveTo id req (by simp) (by simp)
    · rename_i hneeds
      exact h.moveTo id req hready fun _ _ => cachedAgent_of_not_needsSyncReload hneeds
  | reloading effective =>
    rw [hpc] at hready
    exact h.moveTo id req hready (fun _ _ => rfl) rfl rfl (fun _ => rfl)
  | checked effective =>
    rw [hpc] at hready
    refine h.moveTo id req (fun hp => ?_) fun effective' => ?_
    · have heffective : effective = true := hready hp
      rw [heffective, h.cached id req effective hl hpc]
      rfl
    · split <;> simp
  | tryLock =>
    rw [hpc] at hpass
    dsimp only
    split
    · rename_i hlock
      refine h.moveTo id req (fun hp => ?_) (by simp)
      have hfree : s.agentLock.isNone = true := hpass hp
      rw [Option.isNone_iff_eq_none.mp hfree] at hlock
      simp at hlock
    · exact h.moveTo id req (fun _ => rfl) (by simp)
  | acquired =>
    rw [hpc] at hpass
    dsimp only
    split
    · rename_i hprogress
      refine h.moveTo id req (fun hp => ?_) (by simp)
      have hidle : (!s.reloadInProgress) = true := hpass hp
      simp [hprogress] at hidle
    · exact h.moveTo id req (fun _ => rfl) (by simp)
  | starting => exact h.begin.moveTo id req (by simp) (by simp)
  | releasing =>
    rw [hpc] at hready
    exact h.moveTo id req hready (by simp)
  | inferring =>
    rw [hpc] at hready
    dsimp only
    split
    · exact h.moveTo id req hready (by simp)
    · exact h.erase rfl rfl rfl rfl
  | clearing =>
    rw [hpc] at hready
    exact h.clear (fun hp => Bool.false_ne_true (hready hp)) id

lemma Safe.raiseIn (h : s.Safe) (id : ℕ) (req : Request) : (s.raiseIn id req).Safe := by
  unfold Handover.raiseIn
  split
  · exact h.erase rfl rfl rfl rfl
  · exact h.erase rfl rfl rfl rfl
  · exact h.erase rfl rfl rfl rfl
  · exact h

lemma Safe.advanceReloader (h : s.Safe) (id : ℕ) (t : Reloader) :
    (s.advanceReloader id t).Safe := by
  unfold Handover.advanceReloader
  cases t.pc with
  | loading | finishing => exact h.frame rfl rfl (fun hc => hc) fun _ _ hl => .inl hl
  | awaitLock =>
    dsimp only
    split
    · exact h
    · exact h.frame rfl rfl (fun hc => hc) fun _ _ hl => .inl hl
  | swapping => exact h.frame rfl rfl (fun _ => rfl) fun _ _ hl => .inl hl

lemma Safe.raiseInReloader (h : s.Safe) (id : ℕ) (t : Reloader) :
    (s.raiseInReloader id t).Safe := by
  unfold Handover.raiseInReloader
  split
  · exact h.frame rfl rfl (fun hc => hc) fun _ _ hl => .inl hl
  · exact h

lemma Safe.trained (h : s.Safe) (hready : ∀ e ∈ s.requests.entries, e.2.pc.willReload = true) :
    (s.step .trained).Safe where
  noneLost := noneLost_cons h.noneLost (by simp)
  flag _ := rfl
  ready _ id req hl := hready ⟨id, req⟩ (AList.mem_lookup_iff.mp hl)
  cached := h.cached

lemma Safe.step (h : s.Safe) (e : Event) (he : s.Undisturbed e) : (s.step e).Safe := by
  cases e with
  | request id config =>
    rw [Handover.step]
    split
    · exact h
    · refine h.frame rfl rfl (fun hc => hc) fun id' req hl => ?_
      by_cases hid : id' = id
      · subst hid
        rw [AList.lookup_insert, Option.some.injEq] at hl
        subst hl
        exact .inr ⟨h.flag, by simp⟩
      · rw [AList.lookup_insert_ne hid] at hl
        exact .inl hl
  | requestStep id =>
    rw [Handover.step]
    cases hl : s.requests.lookup id with
    | none => exact h
    | some req => exact h.advance hl fun hp => he hp req hl
  | requestFails id =>
    rw [Handover.step]
    cases s.requests.lookup id with
    | none => exact h
    | some req => exact h.raiseIn id req
  | reloaderStep id =>
    rw [Handover.step]
    cases s.reloaders.lookup id with
    | none => exact h
    | some t => exact h.advanceReloader id t
  | reloaderFails id =>
    rw [Handover.step]
    cases s.reloaders.lookup id with
    | none => exact h
    | some t => exact h.raiseInReloader id t
  | trainAgent => exact h.frame rfl rfl (fun _ => rfl) fun _ _ hl => .inl hl
  | trained => exact h.trained he

lemma safe_initial (preloaded : Option ConfigKey) : (initial preloaded).Safe := by
  have hnone : NoneLost [] := fun _ _ _ heq => by simp at heq
  cases preloaded with
  | none | some => exact ⟨hnone, by simp [initial], by simp [initial], by simp [initial]⟩

/-- **No update is lost** in a run in which the flag is raised only when every request on its way
will begin a reload, and in which no request skips the reload of an update that waits. -/
theorem noneLost_run (preloaded : Option ConfigKey) (events : List Event)
    (h : Along step Undisturbed (initial preloaded) events) :
    ∀ es, es <+: events → NoneLost (run preloaded es).history := fun _ hes =>
  ((h.of_prefix hes).invariant (safe_initial preloaded) fun _ e hs he => hs.step e he).noneLost

def sampleConfig : ConfigKey := ⟨8, 1, 4, 2⟩

def requestRun (id steps : ℕ) : List Event :=
  .request id sampleConfig :: List.replicate steps (.requestStep id)

/-- The four ways to lose an update: a request on its way has read the flag before; an earlier marker
was not reset; an earlier reload is in progress; or it holds the lock. -/
theorem noneLost_run_races : ¬ NoneLost (run (some sampleConfig)
        (requestRun 0 6 ++ [.request 1 sampleConfig, .trained] ++
          List.replicate 6 (.requestStep 1))).history ∧
      ¬ NoneLost (run (some sampleConfig) (.trained :: requestRun 0 6)).history ∧
      ¬ NoneLost (run none
        (requestRun 0 14 ++ requestRun 1 5 ++ .trained :: requestRun 2 9)).history ∧
      ¬ NoneLost (run none
        (requestRun 0 14 ++ requestRun 1 5 ++ [.reloaderStep 0, .reloaderStep 0] ++
          .trained :: requestRun 2 7)).history := by
  have hlost : ∀ {history : List Mark}, history.take 2 = [.cleared, .raised] → ¬ NoneLost history := by
    intro history htake h
    rw [← take_append_drop 2 history, htake] at h
    exact absurd (h [] [] _ rfl (by simp)) (by simp)
  exact ⟨hlost (by decide +kernel), hlost (by decide +kernel), hlost (by decide +kernel),
    hlost (by decide +kernel)⟩

/-- The first reload is over and its marker is reset before the flag is raised. -/
theorem noneLost_run_quiet :
    NoneLost (run none (requestRun 0 14 ++ requestRun 1 5 ++ List.replicate 4 (.reloaderStep 0) ++
      .trained :: requestRun 2 10)).history :=
  noneLost_run none _ (by decide +kernel) _ (prefix_refl _)

end Handover
end Lodestar.Agent
