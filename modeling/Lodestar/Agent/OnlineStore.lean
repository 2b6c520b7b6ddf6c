import Lodestar.Agent.Json
import Lodestar.Lib.Run

/-!
# The rows of the online training

A flush appends its rows to the online store (`handle_flush` of
`agent_codes/routing_agent_service.py`).  A round of training copies the two stores, chooses
its training data from the copies and, if there are too many rows, writes shortened copies back
(`online_train_routine`, `_split_new_and_historical`, `_evict_global_data`).  The lock of the stores
is held for the append, for the copy and for the write-back, but not between them.

An event is one section under the lock, or one step of a round.  Which historical rows a round
adds to its training data is left open, and so is the order in which rows of the same time are
sorted.
-/

namespace Lodestar.Agent

/-! ### Rows -/

/-- A row that `preprocess.main` makes. -/
structure ProcessedRow where
  requestId : Text
  requestStartTime : ℤ
  ttft : ℚ
  deriving DecidableEq

/-- A row of a store.  A row of the offline data has neither `_online_seq` nor
`_collection_round`. -/
structure DataRow extends ProcessedRow where
  onlineSeq : Option ℕ := none
  collectionRound : Option ℕ := none
  deriving DecidableEq

/-- `sort_values` by a column; rows with the same value come in any order. -/
structure Sorting where
  sortValues : (DataRow → ℤ) → List DataRow → List DataRow
  perm : ∀ key rows, (sortValues key rows).Perm rows
  sorted : ∀ key rows, (sortValues key rows).Pairwise fun r r' => key r ≤ key r'

def Sorting.stable : Sorting where
  sortValues key := List.insertionSort fun r r' => key r ≤ key r'
  perm key rows := List.perm_insertionSort _ rows
  sorted key rows := by
    have : Std.Total fun r r' : DataRow => key r ≤ key r' := ⟨fun r r' => le_total (key r) (key r')⟩
    have : IsTrans DataRow fun r r' => key r ≤ key r' := ⟨fun _ _ _ => le_trans⟩
    exact List.pairwise_insertionSort _ rows

/-! ### Configuration -/

inductive ModelType where
  | latencyPredictor
  | contextualBandit
  | other
  deriving DecidableEq

structure TrainingConfig where
  enableOnlineLearning : Bool
  ttftThreshold : Option ℚ
  modelType : ModelType
  onlineTrainFromScratch : Bool
  fifoSize : ℤ
  replaySize : ℤ
  maxTotalData : ℤ
  maxNumOnlineTrains : ℤ
  minNumTrainingData : ℕ
  minNumUpdateData : ℕ

inductive Selection where
  | newDataOnly
  | twoPool
  | original
  deriving DecidableEq

def TrainingConfig.selection (config : TrainingConfig) (numTrains : ℕ) : Selection :=
  let pools := config.fifoSize > 0 ∨ config.replaySize > 0
  if config.modelType = .contextualBandit ∧ config.onlineTrainFromScratch = false ∧ 0 < numTrains ∧
      config.fifoSize = 0 ∧ config.replaySize = 0 then .newDataOnly
  else if pools then .twoPool
  else .original

/-! ### Selection and eviction -/

structure Copies where
  offline : List DataRow
  online : List DataRow

/-- `_split_new_and_historical`, the online rows. -/
def splitNewAndHistorical (online : List DataRow) (currentRound : ℕ) :
    List DataRow × List DataRow :=
  online.partition fun row => currentRound ≤ row.collectionRound.getD 0

/-- `drop_duplicates` by request ID. -/
def dropDuplicates : List DataRow → List DataRow
  | [] => []
  | row :: rows => row :: (dropDuplicates rows).filter fun r => r.requestId ≠ row.requestId

/-- What a write-back stores, and the online rows that it removes. -/
structure Trimmed where
  offline : List DataRow
  online : List DataRow
  removed : List DataRow

/-- The shortening of the copies to `maxKeep` rows, if they have more: offline rows first, and then
the online rows that are first in the order of `key`. -/
def trim (sorting : Sorting) (key : DataRow → ℤ) (copies : Copies) (maxKeep : ℤ) : Option Trimmed :=
  let total : ℤ := copies.offline.length + copies.online.length
  if total ≤ maxKeep then none
  else
    let overflow := (total - maxKeep).toNat
    let offlineRemove := min overflow copies.offline.length
    let overflow := overflow - offlineRemove
    let offline := copies.offline.drop offlineRemove
    if 0 < overflow ∧ copies.online ≠ [] then
      let sorted := sorting.sortValues key copies.online
      some ⟨offline, sorted.drop overflow, sorted.take overflow⟩
    else some ⟨offline, copies.online, []⟩

/-- The size limit of a round and the order in which its rows are old, if it writes back. -/
def TrainingConfig.limit (config : TrainingConfig) (numTrains : ℕ) : Option ((DataRow → ℤ) × ℤ) :=
  match config.selection numTrains with
  | .newDataOnly => none
  | .twoPool => some (fun row => row.onlineSeq.getD 0, config.fifoSize + config.replaySize)
  | .original => some (fun row => row.requestStartTime, config.maxTotalData)

/-- The write-back of a round: `_evict_global_data` with the sizes of the pools, or the same with
`MAX_TOTAL_DATA` and by the start of the requests. -/
def TrainingConfig.eviction (config : TrainingConfig) (sorting : Sorting) (numTrains : ℕ)
    (copies : Copies) : Option Trimmed := do
  let (key, maxKeep) ← config.limit numTrains
  trim sorting key copies maxKeep

/-! ### The store -/

inductive RoundPhase where
  | idle
  | started
  | copied (copies : Copies)
  | training (copies : Copies) (trainingDf : List DataRow)

/-- A round that was completed: its number and the online rows of its copy. -/
structure RoundRecord where
  number : ℕ
  online : List DataRow
  classified : Option (List DataRow × List DataRow)

/-- The stores and counters.  The last three fields record all rows that were appended, the online
rows that the size limits removed, and the completed rounds, the newest first. -/
structure OnlineStore where
  offlineDf : List DataRow
  onlineDf : List DataRow := []
  onlineSeq : ℕ := 0
  numTrains : ℕ := 0
  numNewData : ℕ := 0
  totalNumNewData : ℕ
  trainingRightNow : Bool := false
  phase : RoundPhase := .idle
  appended : List DataRow := []
  removed : List DataRow := []
  rounds : List RoundRecord := []

namespace OnlineStore

variable (config : TrainingConfig) (sorting : Sorting)

section

variable (s : OnlineStore)

/-- The rows that a flush appends, numbered and stamped with the round. -/
def onlineBatch (processed : List ProcessedRow) : List DataRow :=
  let kept := match config.ttftThreshold with
    | none => processed
    | some threshold => processed.filter fun row => row.ttft ≤ threshold
  kept.mapIdx fun i row =>
    { row with onlineSeq := some (s.onlineSeq + i), collectionRound := some s.numTrains }

/-- The section of `handle_flush` under the lock. -/
def handleFlush (processed : List ProcessedRow) : OnlineStore :=
  if config.enableOnlineLearning then
    let batch := s.onlineBatch config processed
    { s with
      onlineDf := s.onlineDf ++ batch
      onlineSeq := s.onlineSeq + batch.length
      appended := s.appended ++ batch }
  else s

/-- The checks at the beginning of `online_train_routine`. -/
def beginRound : OnlineStore :=
  if 0 ≤ config.maxNumOnlineTrains ∧ config.maxNumOnlineTrains ≤ s.numTrains then s
  else if s.trainingRightNow then s
  else if s.totalNumNewData < config.minNumTrainingData then s
  else if s.numNewData < config.minNumUpdateData then s
  else { s with trainingRightNow := true, phase := .started }

def copyStores : OnlineStore :=
  match s.phase with
  | .started =>
    if config.modelType = .other then { s with trainingRightNow := false, phase := .idle }
    else if s.offlineDf = [] ∧ s.onlineDf = [] then
      { s with trainingRightNow := false, phase := .idle }
    else { s with phase := .copied ⟨s.offlineDf, s.onlineDf⟩ }
  | _ => s

/-- The training data of a round; `historical` are the rows from the pools. -/
def trainingData (copies : Copies) (historical : List DataRow) : List DataRow :=
  let newBatch := (splitNewAndHistorical copies.online s.numTrains).1
  match config.selection s.numTrains with
  | .newDataOnly => dropDuplicates newBatch
  | .twoPool => dropDuplicates (newBatch ++ historical)
  | .original =>
    match config.eviction sorting s.numTrains copies with
    | none => copies.offline ++ copies.online
    | some trimmed => trimmed.offline ++ trimmed.online

def writeBack (copies : Copies) : OnlineStore :=
  match config.eviction sorting s.numTrains copies with
  | none => s
  | some trimmed =>
    { s with
      offlineDf := trimmed.offline
      onlineDf := trimmed.online
      removed := s.removed ++ trimmed.removed }

/-- The choice of the training data, with the write-back. -/
def selectData (historical : List DataRow) : OnlineStore :=
  match s.phase with
  | .copied copies =>
    let trainingDf := s.trainingData config sorting copies historical
    let s := s.writeBack config sorting copies
    if trainingDf = [] then { s with trainingRightNow := false, phase := .idle }
    else { s with phase := .training copies trainingDf }
  | _ => s

/-- The online rows as the round has classified them; without pools it does not. -/
def classify (copies : Copies) : Option (List DataRow × List DataRow) :=
  if config.selection s.numTrains = .original then none
  else some (splitNewAndHistorical copies.online s.numTrains)

def finishRound : OnlineStore :=
  match s.phase with
  | .training copies _ =>
    { s with
      trainingRightNow := false
      numTrains := s.numTrains + 1
      numNewData := 0
      phase := .idle
      rounds := ⟨s.numTrains, copies.online, s.classify config copies⟩ :: s.rounds }
  | _ => s

def failRound : OnlineStore :=
  match s.phase with
  | .idle => s
  | _ => { s with trainingRightNow := false, phase := .idle }

/-- The return for an unknown routing strategy, which leaves the flag set. -/
def leaveRound : OnlineStore :=
  match s.phase with
  | .training _ _ => { s with phase := .idle }
  | _ => s

end

inductive Event where
  | flush (processed : List ProcessedRow)
  /-- The counters at the end of a flush. -/
  | counted (entries : ℕ)
  | beginRound
  | copyStores
  | selectData (historical : List DataRow)
  | finishRound
  | failRound
  | leaveRound

def step (s : OnlineStore) : Event → OnlineStore
  | .flush processed => s.handleFlush config processed
  | .counted entries =>
    { s with numNewData := s.numNewData + entries, totalNumNewData := s.totalNumNewData + entries }
  | .beginRound => s.beginRound config
  | .copyStores => s.copyStores config
  | .selectData historical => s.selectData config sorting historical
  | .finishRound => s.finishRound config
  | .failRound => s.failRound
  | .leaveRound => s.leaveRound

def initial (offlineDf : List DataRow) : OnlineStore where
  offlineDf := offlineDf
  totalNumNewData := offlineDf.length

def run (offlineDf : List DataRow) (events : List Event) : OnlineStore :=
  events.foldl (step config sorting) (initial offlineDf)

end OnlineStore

variable {sorting : Sorting} {key : DataRow → ℤ} {copies : Copies} {maxKeep : ℤ} {trimmed : Trimmed}

/-- The online rows of a copy that are too many for the limit, when all offline rows are gone. -/
def Copies.overflow (copies : Copies) (maxKeep : ℤ) : ℕ :=
  min ((copies.offline.length + copies.online.length - maxKeep).toNat - copies.offline.length)
    copies.online.length

lemma Copies.overflow_eq_zero (h : trim sorting key copies maxKeep = none) :
    copies.overflow maxKeep = 0 := by
  unfold trim at h
  dsimp only at h
  split at h
  · unfold Copies.overflow
    omega
  · split at h <;> simp at h

/-- **A write-back** keeps the online rows of the copy but the overflow, which are the oldest
ones. -/
lemma trim_spec (h : trim sorting key copies maxKeep = some trimmed) :
    (trimmed.removed ++ trimmed.online).Perm copies.online ∧
      trimmed.removed.length = copies.overflow maxKeep ∧
      ∀ row ∈ trimmed.removed, ∀ row' ∈ trimmed.online, key row ≤ key row' := by
  unfold trim at h
  unfold Copies.overflow
  dsimp only at h
  split at h
  · simp at h
  split at h
  · rw [← Option.some.inj h]
    have hsorted := sorting.sorted key copies.online
    have hlength := (sorting.perm key copies.online).length_eq
    rw [List.take_append_drop]
    refine ⟨sorting.perm key copies.online, ?_, fun row hrow row' hrow' => ?_⟩
    · rw [List.length_take, hlength]
      omega
    · rw [← List.take_append_drop _ (sorting.sortValues key copies.online)] at hsorted
      exact (List.pairwise_append.mp hsorted).2.2 row hrow row' hrow'
  · rename_i hnone
    rw [← Option.some.inj h]
    refine ⟨List.Perm.refl _, ?_, by simp⟩
    rw [← List.length_pos_iff] at hnone
    simp only [List.length_nil]
    omega

namespace OnlineStore

variable {config : TrainingConfig} {s : OnlineStore}

lemma eviction_spec {numTrains : ℕ} {copies : Copies} {trimmed : Trimmed}
    (h : config.eviction sorting numTrains copies = some trimmed) :
    (trimmed.removed ++ trimmed.online).Perm copies.online := by
  obtain ⟨limit, -, htrim⟩ := Option.bind_eq_some_iff.mp h
  exact (trim_spec htrim).1

end OnlineStore
end Lodestar.Agent
