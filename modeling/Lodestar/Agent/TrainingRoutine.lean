import Lodestar.Agent.OnlineStore
import Lodestar.Lib.Routine

/-!
# One call of the training routine

`online_train_routine` of `agent_codes/routing_agent_service.py` as one routine, with all its exits.
The flag `TRAINING_RIGHT_NOW` is set at the beginning and cleared by hand before each return, in the
handler of the exceptions and at the end.

The work between the exits calls pandas, the normalizer, the encoder and the models.  It is cut into
stages, and each stage may raise; what it computes does not decide about the exits.
-/

namespace Lodestar.Agent

open Lib (Routine Called)
open Lib.Routine

/-! ### Configuration and globals -/

/-- A raised exception: one that `except Exception` catches, or another one, such as
`KeyboardInterrupt`. -/
inductive Raised where
  | exception
  | other
  deriving DecidableEq

/-- What `except Exception` catches. -/
def Raised.isException : Raised → Bool
  | .exception => true
  | .other => false

inductive Bandit where
  | perpodmodelAdvanced
  | policygradient
  | perpodmodelCheckpoint
  deriving DecidableEq

def banditOf (routingStrategy : Text) : Option Bandit :=
  if "perpodmodel_advanced".toList <:+: routingStrategy then some .perpodmodelAdvanced
  else if "policygradient".toList <:+: routingStrategy then some .policygradient
  else if "perpodmodel_checkpoint".toList <:+: routingStrategy then some .perpodmodelCheckpoint
  else none

/-- The model type that `MODEL_TYPE` names. -/
def ModelType.ofText (modelType : Text) : ModelType :=
  if modelType = "latency_predictor".toList then .latencyPredictor
  else if "contextual_bandit".toList <:+: modelType then .contextualBandit
  else .other

/-- The variables of the environment, with the names of the model type and of the routing
strategy. -/
structure RoutineConfig extends TrainingConfig where
  modelTypeName : Text
  routingStrategy : Text
  modelType_eq : modelType = ModelType.ofText modelTypeName

/-- The entries of `HYPERPARAMETERS` that a round overrides or reads for that. -/
structure Hyperparameters where
  onlineTrainFromScratch : Bool
  cbResetLrPerRound : Bool
  clTrainingEpochs : ℤ
  trainingEpochs : Option ℤ
  deriving DecidableEq

structure Trainer where
  store : OnlineStore
  hyperparameters : Hyperparameters
  modelUpdated : Bool := false

inductive Stage where
  | setup
  | modelType
  | copyStores
  | select
  | compose
  | weights
  | shuffle
  | missingValues
  | normalize
  | podIds
  | encode
  | metadata
  | replayBuffer
  | train
  | reload
  | oldTransfer
  | saveStats
  | monitors
  deriving DecidableEq

/-- What a call is told: the exception that a stage raises, if it is reached, and the historical
rows that are selected. -/
structure RoundEnv where
  fault : Stage → Option Raised
  historical : List DataRow

/-! ### The routine -/

namespace Trainer

variable (config : RoutineConfig) (sorting : Sorting) (env : RoundEnv)

def release (t : Trainer) : Trainer :=
  { t with store := { t.store with trainingRightNow := false, phase := .idle } }

/-- The override of the hyperparameters in the mode of continual learning: the first round trains
from scratch, later ones do not. -/
def overrideHyperparameters (t : Trainer) : Trainer :=
  let h := t.hyperparameters
  if config.onlineTrainFromScratch then t
  else if t.store.numTrains = 0 then
    { t with hyperparameters := { h with onlineTrainFromScratch := true, cbResetLrPerRound := true } }
  else
    { t with hyperparameters := { h with
        onlineTrainFromScratch := false
        cbResetLrPerRound := false
        trainingEpochs := if 0 < h.clTrainingEpochs then some h.clTrainingEpochs
          else h.trainingEpochs } }

/-- The training data is chosen and the stores are shortened. -/
def choose (t : Trainer) : Trainer :=
  match t.store.phase with
  | .copied copies =>
    let trainingDf := t.store.trainingData config.toTrainingConfig sorting copies env.historical
    { t with store := { t.store.writeBack config.toTrainingConfig sorting copies with
        phase := .training copies trainingDf } }
  | _ => t

def noTrainingData (t : Trainer) : Bool :=
  match t.store.phase with
  | .training _ [] => true
  | _ => false

abbrev Run := Routine Raised Trainer Unit

def checks : Run := do
  let t ← get
  if 0 ≤ config.maxNumOnlineTrains ∧ config.maxNumOnlineTrains ≤ t.store.numTrains then ret
  if t.store.trainingRightNow then ret
  if t.store.totalNumNewData < config.minNumTrainingData then ret
  if t.store.numNewData < config.minNumUpdateData then ret

/-- The copy of the stores and the choice of the training data, which both models begin with. -/
def selectTrainingData : Run := do
  stages env.fault [.copyStores]
  let t ← get
  if t.store.offlineDf = [] ∧ t.store.onlineDf = [] then
    modify release
    ret
  modify fun t => { t with store := { t.store with
    phase := .copied ⟨t.store.offlineDf, t.store.onlineDf⟩ } }
  stages env.fault [.select]
  modify (choose config sorting env)
  stages env.fault [.compose]
  let t ← get
  if t.noTrainingData then
    modify release
    ret

def trainLatencyPredictor : Run := do
  stages env.fault [.shuffle]
  tryExcept Raised.isException (stages env.fault [.missingValues]) (pure ())
  stages env.fault
    [.normalize, .podIds, .encode, .metadata, .train, .reload, .saveStats, .monitors]

def trainContextualBandit : Run := do
  stages env.fault [.weights, .shuffle, .missingValues, .normalize, .podIds, .encode, .metadata]
  if 0 < config.replaySize then
    tryExcept Raised.isException (stages env.fault [.replayBuffer]) (pure ())
  match banditOf config.routingStrategy with
  | none =>
    -- the flag stays set
    modify fun t => { t with store := t.store.leaveRound }
    ret
  | some _ => stages env.fault [.train]
  tryExcept Raised.isException (stages env.fault [.oldTransfer]) (pure ())
  stages env.fault [.saveStats, .monitors]

/-- The body of the `try` statement. -/
def body : Run := do
  stages env.fault [.modelType]
  match config.modelType with
  | .latencyPredictor =>
    selectTrainingData config sorting env
    trainLatencyPredictor env
  | .contextualBandit =>
    selectTrainingData config sorting env
    trainContextualBandit config env
  | .other =>
    modify release
    ret

def onlineTrainRoutine : Run := do
  checks config
  modify fun t => { t with store := { t.store with trainingRightNow := true, phase := .started } }
  stages env.fault [.setup]
  modify (overrideHyperparameters config)
  tryExcept Raised.isException (body config sorting env) do
    modify release
    ret
  modify fun t => { t with modelUpdated := true, store := t.store.finishRound config.toTrainingConfig }

def callRoutine (t : Trainer) : Called Raised Trainer := call (onlineTrainRoutine config sorting env) t

end Trainer

/-! ### Where a call can be -/

section

variable (config : RoutineConfig) (sorting : Sorting) (env : RoundEnv) (s : OnlineStore)

/-- One of the checks at the beginning makes the call return. -/
def TrainingConfig.Skips (config : TrainingConfig) (s : OnlineStore) : Prop :=
  (0 ≤ config.maxNumOnlineTrains ∧ config.maxNumOnlineTrains ≤ s.numTrains) ∨
    s.trainingRightNow = true ∨ s.totalNumNewData < config.minNumTrainingData ∨
    s.numNewData < config.minNumUpdateData

namespace OnlineStore

def begun : OnlineStore := { s with trainingRightNow := true, phase := .started }

def copied : OnlineStore := { s.begun with phase := .copied ⟨s.offlineDf, s.onlineDf⟩ }

def chosenDf : List DataRow :=
  s.trainingData config.toTrainingConfig sorting ⟨s.offlineDf, s.onlineDf⟩ env.historical

def chosen : OnlineStore :=
  { s.copied.writeBack config.toTrainingConfig sorting ⟨s.offlineDf, s.onlineDf⟩ with
    phase := .training ⟨s.offlineDf, s.onlineDf⟩ (s.chosenDf config sorting env) }

def released : OnlineStore := { s with trainingRightNow := false, phase := .idle }

/-- Where a call is when it stops: it has begun, it has its copies, or it has its training data. -/
inductive Reached : OnlineStore → Prop where
  | begun : Reached s.begun
  | copied (hmodel : config.modelType ≠ .other) (hrows : ¬ (s.offlineDf = [] ∧ s.onlineDf = [])) :
      Reached s.copied
  | chosen (hmodel : config.modelType ≠ .other) (hrows : ¬ (s.offlineDf = [] ∧ s.onlineDf = [])) :
      Reached (s.chosen config sorting env)

def selectStages : List Stage := [.copyStores, .select, .compose]

/-- The stages from there to the training of a contextual bandit whose exceptions end the call. -/
def banditStages : List Stage :=
  [.weights, .shuffle, .missingValues, .normalize, .podIds, .encode, .metadata]

/-- The call gets to the return for an unknown routing strategy: it is not skipped, the
strategy of the bandit is unknown, there are rows and training data, and no stage raises. -/
structure LeavesFlag : Prop where
  begins : ¬ config.Skips s
  bandit : config.modelType = .contextualBandit
  unknown : banditOf config.routingStrategy = none
  rows : ¬ (s.offlineDf = [] ∧ s.onlineDf = [])
  data : s.chosenDf config sorting env ≠ []
  runs : ∀ stage ∈ .modelType :: (selectStages ++ banditStages), env.fault stage = none

/-- **The ends of a call.** -/
inductive RoutineCase : Called Raised Trainer → Prop where
  | skipped (t : Trainer) (ht : t.store = s) (h : config.Skips s) : RoutineCase (.returned t)
  | interrupted (e : Raised) (t : Trainer)
      (h : env.fault .setup = some e ∨ e = .other ∧ ∃ stage, env.fault stage = some e) :
      RoutineCase (.raised e t)
  | released (t : Trainer) (s' : OnlineStore) (hs' : Reached config sorting env s s')
      (ht : t.store = s'.released) (hbegins : ¬ config.Skips s)
      (h : ¬ LeavesFlag config sorting env s) : RoutineCase (.returned t)
  | left (t : Trainer) (ht : t.store = (s.chosen config sorting env).leaveRound)
      (h : LeavesFlag config sorting env s) : RoutineCase (.returned t)
  | finished (t : Trainer)
      (ht : t.store = (s.chosen config sorting env).finishRound config.toTrainingConfig)
      (hbegins : ¬ config.Skips s) (hmodel : config.modelType ≠ .other)
      (hrows : ¬ (s.offlineDf = [] ∧ s.onlineDf = [])) (hdata : s.chosenDf config sorting env ≠ [])
      (h : ¬ LeavesFlag config sorting env s) : RoutineCase (.returned t)

end OnlineStore
end

variable {config : RoutineConfig} {sorting : Sorting} {env : RoundEnv}

/-! ### The parts of the routine -/

namespace Trainer

variable {t : Trainer} {post : Post Raised Trainer Unit}

lemma wp_checks (hskip : config.Skips t.store → post.returned t)
    (hnext : ¬ config.Skips t.store → post.next () t) : wp (checks config) post t := by
  apply wp_get
  refine wp_ite (fun h₁ => hskip (.inl h₁)) fun h₁ => ?_
  refine wp_ite (fun h₂ => hskip (.inr (.inl h₂))) fun h₂ => ?_
  refine wp_ite (fun h₃ => hskip (.inr (.inr (.inl h₃)))) fun h₃ => ?_
  refine wp_ite (fun h₄ => hskip (.inr (.inr (.inr h₄)))) fun h₄ => ?_
  exact hnext (by rintro (h | h | h | h) <;> contradiction)

open OnlineStore (selectStages banditStages Reached LeavesFlag RoutineCase)

lemma noTrainingData_iff {s : OnlineStore} (ht : t.store = s.chosen config sorting env) :
    t.noTrainingData = true ↔ s.chosenDf config sorting env = [] := by
  rw [noTrainingData, ht]
  show (match RoundPhase.training _ (s.chosenDf config sorting env) with
    | .training _ [] => true
    | _ => false) = true ↔ _
  cases s.chosenDf config sorting env <;> simp

lemma wp_selectTrainingData {s : OnlineStore} (ht : t.store = s.begun)
    (hmodel : config.modelType ≠ .other)
    (hraised : ∀ e u s', u.store = s' → Reached config sorting env s s' →
      (∃ stage ∈ selectStages, env.fault stage = some e) → post.raised e u)
    (hempty : ∀ u, u.store = s.begun.released → (s.offlineDf = [] ∧ s.onlineDf = []) → post.returned u)
    (hnone : ∀ u, u.store = (s.chosen config sorting env).released →
      ¬ (s.offlineDf = [] ∧ s.onlineDf = []) → s.chosenDf config sorting env = [] → post.returned u)
    (hnext : ∀ u, u.store = s.chosen config sorting env → ¬ (s.offlineDf = [] ∧ s.onlineDf = []) →
      s.chosenDf config sorting env ≠ [] →
      (∀ stage ∈ selectStages, env.fault stage = none) → post.next () u) :
    wp (selectTrainingData config sorting env) post t := by
  apply wp_bind
  refine wp_stages (fun hcopy => ?_) fun x hx e he => ?_
  · apply wp_get
    refine wp_ite (fun h => ?_) fun hrows => ?_
    · apply wp_modify
      apply wp_ret_bind
      rw [ht] at h
      exact hempty _ (by rw [release, ht]; rfl) h
    · rw [ht] at hrows
      apply wp_modify
      have hcopied : ({ t.store with
          phase := .copied ⟨t.store.offlineDf, t.store.onlineDf⟩ } : OnlineStore) = s.copied := by
        rw [ht]
        rfl
      rw [hcopied]
      apply wp_bind
      refine wp_stages (fun hselect => ?_) fun x hx e he => ?_
      · apply wp_modify
        apply wp_bind
        refine wp_stages (fun hcompose => ?_) fun x hx e he => ?_
        · apply wp_get
          refine wp_ite (fun h => ?_) fun h => ?_
          · apply wp_modify
            apply wp_ret
            exact hnone _ rfl hrows ((noTrainingData_iff rfl).mp h)
          · apply wp_pure
            refine hnext _ rfl hrows (fun hnil => h ((noTrainingData_iff rfl).mpr hnil))
              fun stage hstage => ?_
            rcases List.mem_cons.mp hstage with rfl | hstage
            · exact hcopy _ List.mem_cons_self
            rcases List.mem_cons.mp hstage with rfl | hstage
            · exact hselect _ List.mem_cons_self
            · exact hcompose _ hstage
        · exact hraised e _ _ rfl (.chosen hmodel hrows) ⟨x, by simp_all [selectStages], he⟩
      · exact hraised e _ _ rfl (.copied hmodel hrows) ⟨x, by simp_all [selectStages], he⟩
  · exact hraised e _ _ ht .begun ⟨x, by simp_all [selectStages], he⟩

lemma wp_trainLatencyPredictor
    (hraised : ∀ e, (∃ stage, env.fault stage = some e) → post.raised e t) (hnext : post.next () t) :
    wp (trainLatencyPredictor env) post t := by
  apply wp_bind
  refine wp_stages (fun _ => ?_) fun x _ e he => hraised e ⟨x, he⟩
  apply wp_bind
  refine wp_tryExcept_stages ?_ fun x _ e he _ => hraised e ⟨x, he⟩
  exact wp_stages (fun _ => hnext) fun x _ e he => hraised e ⟨x, he⟩

lemma wp_trainContextualBandit
    (hraised : ∀ e : Raised, (∃ stage, env.fault stage = some e) →
      (e.isException = true → ¬ (banditOf config.routingStrategy = none ∧
        ∀ stage ∈ banditStages, env.fault stage = none)) → post.raised e t)
    (hleft : banditOf config.routingStrategy = none → (∀ stage ∈ banditStages, env.fault stage = none) →
      post.returned { t with store := t.store.leaveRound })
    (hnext : banditOf config.routingStrategy ≠ none → post.next () t) :
    wp (trainContextualBandit config env) post t := by
  have htrain : (∀ stage ∈ banditStages, env.fault stage = none) → wp (do
      match banditOf config.routingStrategy with
      | none =>
        modify fun t => { t with store := t.store.leaveRound }
        ret
      | some _ => stages env.fault [.train]
      tryExcept Raised.isException (stages env.fault [.oldTransfer]) (pure ())
      stages env.fault [.saveStats, .monitors]) post t := by
    intro hstages
    cases hbandit : banditOf config.routingStrategy with
    | none =>
      apply wp_modify
      apply wp_ret_bind
      exact hleft hbandit hstages
    | some bandit =>
      have hknown : ∀ e : Raised, (∃ stage, env.fault stage = some e) → post.raised e t :=
        fun e he => hraised e he fun _ h => absurd h.1 (by simp [hbandit])
      apply wp_bind
      refine wp_stages (fun _ => ?_) fun x _ e he => hknown e ⟨x, he⟩
      apply wp_bind
      refine wp_tryExcept_stages ?_ fun x _ e he _ => hknown e ⟨x, he⟩
      exact wp_stages (fun _ => hnext (by simp [hbandit])) fun x _ e he => hknown e ⟨x, he⟩
  apply wp_bind
  refine wp_stages (fun hstages => ?_) fun x hx e he => ?_
  · refine wp_ite (fun _ => ?_) fun _ => htrain hstages
    apply wp_bind
    refine wp_tryExcept_stages (htrain hstages) fun x hx e he hcaught => ?_
    exact hraised e ⟨x, he⟩ fun h => absurd h (by simp [hcaught])
  · refine hraised e ⟨x, he⟩ fun _ h => ?_
    simp [h.2 x hx] at he

lemma wp_body {s : OnlineStore} (ht : t.store = s.begun) (hbegins : ¬ config.Skips s)
    (hraised : ∀ (e : Raised) u s', u.store = s' → Reached config sorting env s s' →
      (∃ stage, env.fault stage = some e) →
      (e.isException = true → ¬ LeavesFlag config sorting env s) → post.raised e u)
    (hreleased : ∀ u s', u.store = s'.released → Reached config sorting env s s' →
      ¬ LeavesFlag config sorting env s → post.returned u)
    (hleft : ∀ u, u.store = (s.chosen config sorting env).leaveRound →
      LeavesFlag config sorting env s → post.returned u)
    (hnext : ∀ u, u.store = s.chosen config sorting env → config.modelType ≠ .other →
      ¬ (s.offlineDf = [] ∧ s.onlineDf = []) → s.chosenDf config sorting env ≠ [] →
      ¬ LeavesFlag config sorting env s → post.next () u) :
    wp (body config sorting env) post t := by
  apply wp_bind
  refine wp_stages (fun htype => ?_) fun x hx e he => ?_
  · cases hmodel : config.modelType with
    | latencyPredictor =>
      have hother : config.modelType ≠ .other := by simp [hmodel]
      have hno : ¬ LeavesFlag config sorting env s := fun h => absurd h.bandit (by simp [hmodel])
      apply wp_bind
      refine wp_selectTrainingData ht hother
        (fun e u s' hu hs' ⟨x, _, he⟩ => hraised e u s' hu hs' ⟨x, he⟩ fun _ => hno)
        (fun u hu _ => hreleased u _ hu .begun hno)
        (fun u hu hrows _ => hreleased u _ hu (.chosen hother hrows) hno) fun u hu hrows hdata _ => ?_
      exact wp_trainLatencyPredictor
        (fun e he => hraised e u _ hu (.chosen hother hrows) he fun _ => hno)
        (hnext u hu hother hrows hdata hno)
    | contextualBandit =>
      have hother : config.modelType ≠ .other := by simp [hmodel]
      apply wp_bind
      refine wp_selectTrainingData ht hother (fun e u s' hu hs' ⟨x, hx, he⟩ => ?_)
        (fun u hu hnil => hreleased u _ hu .begun fun h => h.rows hnil)
        (fun u hu hrows hnil => hreleased u _ hu (.chosen hother hrows) fun h => h.data hnil)
        fun u hu hrows hdata hselect => ?_
      · refine hraised e u s' hu hs' ⟨x, he⟩ fun _ h => ?_
        rw [h.runs x (List.mem_cons_of_mem _ (List.mem_append_left _ hx))] at he
        simp at he
      · refine wp_trainContextualBandit
          (fun e he hfault => hraised e u _ hu (.chosen hother hrows) he ?_)
          (fun hunknown hstages => ?_) fun hknown => ?_
        · refine fun hcaught h => hfault hcaught ⟨h.unknown, fun stage hstage => h.runs stage ?_⟩
          exact List.mem_cons_of_mem _ (List.mem_append_right _ hstage)
        · refine hleft _ (by rw [hu]) ⟨hbegins, hmodel, hunknown, hrows, hdata, ?_⟩
          rw [List.forall_mem_cons, List.forall_mem_append]
          exact ⟨htype _ List.mem_cons_self, hselect, hstages⟩
        · exact hnext u hu hother hrows hdata fun h => hknown h.unknown
    | other =>
      show wp (modify release >>= fun _ => ret) post t
      apply wp_modify
      apply wp_ret
      refine hreleased _ _ (by rw [release, ht]; rfl) .begun fun h => ?_
      exact absurd h.bandit (by simp [hmodel])
  · refine hraised e t _ ht .begun ⟨x, he⟩ fun _ h => ?_
    rw [List.mem_singleton.mp hx, h.runs _ List.mem_cons_self] at he
    simp at he

lemma callRoutine_cases (config : RoutineConfig) (sorting : Sorting) (env : RoundEnv) (t : Trainer) :
    RoutineCase config sorting env t.store (callRoutine config sorting env t) := by
  apply call_of_wp
  apply wp_bind
  refine wp_checks (fun hskip => .skipped t rfl hskip) fun hbegins => ?_
  apply wp_modify
  apply wp_bind
  refine wp_stages (fun _ => ?_) fun x hx e he =>
    .interrupted e _ (.inl (List.mem_singleton.mp hx ▸ he))
  apply wp_modify
  have hbegun : ∀ u : Trainer, (overrideHyperparameters config u).store = u.store := by
    intro u
    unfold overrideHyperparameters
    split
    · rfl
    · split <;> rfl
  apply wp_bind
  apply wp_tryExcept
  refine wp_body (hbegun _) hbegins (fun e u s' hu hs' he hno => ?_)
    (fun u s' hu hs' hno => .released u s' hs' hu hbegins hno) (fun u hu h => .left u hu h)
    fun u hu hmodel hrows hdata hno => ?_
  · cases e with
    | exception => exact .released _ s' hs' (by rw [release, hu]; rfl) hbegins (hno rfl)
    | other => exact .interrupted _ u (.inr ⟨rfl, he⟩)
  · exact .finished _ (by rw [← hu]) hbegins hmodel hrows hdata hno

end Trainer

/-! ### The flag -/

/-- There are enough rounds left and enough data for a round. -/
def TrainingConfig.Enough (config : TrainingConfig) (s : OnlineStore) : Prop :=
  ¬ (0 ≤ config.maxNumOnlineTrains ∧ config.maxNumOnlineTrains ≤ s.numTrains) ∧
    config.minNumTrainingData ≤ s.totalNumNewData ∧ config.minNumUpdateData ≤ s.numNewData

instance (config : TrainingConfig) (s : OnlineStore) : Decidable (config.Enough s) := by
  unfold TrainingConfig.Enough
  infer_instance

instance (config : TrainingConfig) (s : OnlineStore) : Decidable (config.Skips s) := by
  unfold TrainingConfig.Skips
  infer_instance

namespace Trainer

open OnlineStore (selectStages banditStages Reached LeavesFlag RoutineCase)
variable {t t' : Trainer}

/-- The flag is false, so that a later call with enough data is not skipped. -/
def Released (config : RoutineConfig) (t : Trainer) : Prop :=
  t.store.trainingRightNow = false ∧ ∀ s : OnlineStore,
    s.trainingRightNow = t.store.trainingRightNow → config.Enough s → ¬ config.Skips s

lemma released_iff_flag : Released config t ↔ t.store.trainingRightNow = false := by
  refine ⟨fun h => h.1, fun h => ⟨h, fun s hs henough hskip => ?_⟩⟩
  obtain ⟨hrounds, htotal, hnew⟩ := henough
  rcases hskip with hskip | hskip | hskip | hskip
  · exact hrounds hskip
  · rw [hs, h] at hskip
    exact absurd hskip (by decide)
  · omega
  · omega

/-- **A call that returns** leaves the flag false exactly if it was false before and the call does
not get to the return for an unknown routing strategy. -/
theorem released_iff (hret : callRoutine config sorting env t = .returned t') : Released config t' ↔
      t.store.trainingRightNow = false ∧ ¬ LeavesFlag config sorting env t.store := by
  have hcase := callRoutine_cases config sorting env t
  rw [hret] at hcase
  rw [released_iff_flag]
  have hclear : ¬ config.Skips t.store → t.store.trainingRightNow = false := fun h => by
    by_contra hflag
    exact h (Or.inr (Or.inl (by simpa using hflag)))
  cases hcase with
  | skipped _ ht hskip =>
    rw [ht]
    exact ⟨fun h => ⟨h, fun hleaves => hleaves.begins hskip⟩, fun h => h.1⟩
  | released _ _ _ ht hbegins hno | finished _ ht hbegins _ _ _ hno =>
    rw [ht]
    exact ⟨fun _ => ⟨hclear hbegins, hno⟩, fun _ => rfl⟩
  | left _ ht hleaves =>
    have hset : t'.store.trainingRightNow = true := by
      rw [ht]
      show (t.store.copied.writeBack config.toTrainingConfig sorting _).trainingRightNow = true
      unfold OnlineStore.writeBack
      split <;> rfl
    exact ⟨fun h => by simp [hset] at h, fun h => absurd hleaves h.2⟩

/-- A contextual bandit with the given strategy and no pools. -/
def banditConfig (routingStrategy : Text) : RoutineConfig where
  enableOnlineLearning := true
  ttftThreshold := none
  modelType := .contextualBandit
  onlineTrainFromScratch := true
  fifoSize := 0
  replaySize := 0
  maxTotalData := 10
  maxNumOnlineTrains := -1
  minNumTrainingData := 1
  minNumUpdateData := 1
  modelTypeName := "contextual_bandit_perpodmodel_checkpoint".toList
  routingStrategy := routingStrategy
  modelType_eq := by decide +kernel

def oneRow : Trainer where
  store := { offlineDf := [], onlineDf := [⟨⟨"a".toList, 0, 1⟩, some 0, some 0⟩], totalNumNewData := 1,
             numNewData := 1 }
  hyperparameters := ⟨true, true, 0, none⟩

def noFault : RoundEnv := ⟨fun _ => none, []⟩

/-- With the strategy `lodestar` the call returns with the flag set, and the next call is skipped. -/
theorem released_lodestar : ∃ t', callRoutine (banditConfig "lodestar".toList) .stable noFault oneRow =
    .returned t' ∧ ¬ Released (banditConfig "lodestar".toList) t' ∧
    (banditConfig "lodestar".toList).Enough t'.store ∧
    (banditConfig "lodestar".toList).Skips t'.store :=
  ⟨_, rfl, fun h => absurd h.1 (by decide +kernel), by decide +kernel, by decide +kernel⟩

/-- With a strategy that names a bandit the flag is cleared. -/
theorem released_checkpoint :
    ∃ t', callRoutine (banditConfig "perpodmodel_checkpoint".toList) .stable noFault oneRow =
      .returned t' ∧ Released (banditConfig "perpodmodel_checkpoint".toList) t' := by
  have hret : callRoutine (banditConfig "perpodmodel_checkpoint".toList) .stable noFault oneRow =
    .returned _ := rfl
  exact ⟨_, hret, (released_iff hret).mpr ⟨rfl, fun h => absurd h.unknown (by decide +kernel)⟩⟩

end Trainer
end Lodestar.Agent
