import Lodestar.Agent.OnlineStore

/-!
# Rounds that do not overlap with flushes

A history of whole flushes and whole rounds of training, one after the other.  A round that is not
held back by its checks copies the stores, chooses its data, shortens the stores and trains.
-/

namespace Lodestar.Agent

open Lib

/-- The bound on the rows of both stores: the sizes of the pools if there is one, or else
`MAX_TOTAL_DATA`. -/
def TrainingConfig.bound (config : TrainingConfig) : ℤ :=
  if config.fifoSize > 0 ∨ config.replaySize > 0 then config.fifoSize + config.replaySize
  else config.maxTotalData

namespace OnlineStore

inductive Operation where
  | flush (processed : List ProcessedRow) (entries : ℕ)
  | round (historical : List DataRow)

def Operation.events : Operation → List Event
  | .flush processed entries => [.flush processed, .counted entries]
  | .round historical => [.beginRound, .copyStores, .selectData historical, .finishRound]

variable (config : TrainingConfig) (sorting : Sorting)

def perform (s : OnlineStore) (op : Operation) : OnlineStore :=
  op.events.foldl (step config sorting) s

def after (offlineDf : List DataRow) (ops : List Operation) : OnlineStore :=
  ops.foldl (perform config sorting) (initial offlineDf)

def size (s : OnlineStore) : ℤ := s.offlineDf.length + s.onlineDf.length

lemma writeBack_spec (s : OnlineStore) (copies : Copies) :
    (s.writeBack config sorting copies).numTrains = s.numTrains ∧
      (s.writeBack config sorting copies).size = ((config.eviction sorting s.numTrains copies).map
        fun trimmed => (trimmed.offline.length + trimmed.online.length : ℤ)).getD s.size := by
  unfold writeBack
  split <;> rename_i h <;> rw [h] <;> exact ⟨rfl, rfl⟩

/-- The two ways that a round can go: it ends early, or the stores are shortened. -/
lemma perform_round {s : OnlineStore} (h : s.phase = .idle) (historical : List DataRow) :
    let s' := s.perform config sorting (.round historical)
    s'.phase = .idle ∧ (s'.numTrains = s.numTrains ∨ s'.numTrains = s.numTrains + 1 ∧
      s'.size = (s.writeBack config sorting ⟨s.offlineDf, s.onlineDf⟩).size) := by
  have hend : ∀ s : OnlineStore, s.phase = .idle → s.finishRound config = s := by
    intro s h
    simp [finishRound, h]
  have hskip : ∀ s : OnlineStore, s.phase = .idle →
      (s.selectData config sorting historical).finishRound config = s := by
    intro s h
    have hselect : s.selectData config sorting historical = s := by simp [selectData, h]
    rw [hselect, hend s h]
  have hbegin : s.beginRound config = s ∨
      s.beginRound config = { s with trainingRightNow := true, phase := .started } := by
    unfold beginRound
    split_ifs <;> simp
  simp only [perform, Operation.events, List.foldl_cons, step]
  rcases hbegin with hbegin | hbegin
  · have hcopy : s.copyStores config = s := by simp [copyStores, h]
    rw [hbegin, hcopy, hskip s h]
    exact ⟨h, .inl rfl⟩
  · rw [hbegin, copyStores]
    dsimp only
    split
    · rw [hskip _ rfl]
      exact ⟨rfl, .inl rfl⟩
    split
    · rw [hskip _ rfl]
      exact ⟨rfl, .inl rfl⟩
    generalize hs : ({ s with trainingRightNow := true, phase := .copied ⟨s.offlineDf, s.onlineDf⟩ } :
      OnlineStore) = s₁
    obtain ⟨htrains, hsize⟩ := writeBack_spec config sorting s₁ ⟨s.offlineDf, s.onlineDf⟩
    have hphase : s₁.phase = .copied ⟨s.offlineDf, s.onlineDf⟩ := hs ▸ rfl
    rw [selectData, hphase]
    dsimp only
    split
    · rw [hend _ rfl]
      exact ⟨rfl, .inl (htrains.trans (hs ▸ rfl))⟩
    · refine ⟨rfl, .inr ⟨congrArg (· + 1) (htrains.trans (hs ▸ rfl)), ?_⟩⟩
      refine (hsize.trans ?_).trans (writeBack_spec config sorting s _).2.symm
      rw [← hs]
      rfl

lemma phase_after (offlineDf : List DataRow) (ops : List Operation) :
    (after config sorting offlineDf ops).phase = .idle := by
  refine foldl_invariant (I := fun s : OnlineStore => s.phase = .idle) rfl (fun s op h => ?_) ops
  cases op with
  | flush processed entries =>
    simp only [perform, Operation.events, List.foldl_cons, step, handleFlush]
    split <;> exact h
  | round historical => exact (perform_round config sorting h historical).1

/-- What is left of copies with too many rows is as much as the bound allows. -/
lemma trim_size (key : DataRow → ℤ) (copies : Copies) (maxKeep : ℤ) :
    (trim sorting key copies maxKeep = none ↔
        (copies.offline.length + copies.online.length : ℤ) ≤ maxKeep) ∧
      ∀ trimmed, trim sorting key copies maxKeep = some trimmed →
        (trimmed.offline.length + trimmed.online.length : ℤ) = max maxKeep 0 := by
  have hperm := (sorting.perm key copies.online).length_eq
  unfold trim
  dsimp only
  split
  · simp_all
  · rename_i htotal
    refine ⟨by split <;> simp [htotal], fun trimmed htrimmed => ?_⟩
    split at htrimmed <;> obtain rfl := Option.some.inj htrimmed
    · rw [List.length_drop, List.length_drop, hperm]
      omega
    · rename_i hover
      have hfit : (copies.offline.length + copies.online.length - maxKeep : ℤ).toNat ≤
          copies.offline.length ∨ copies.online.length = 0 := by
        rw [not_and_or, not_lt, not_not] at hover
        exact hover.imp (by omega) (by simp +contextual)
      simp only [List.length_drop]
      omega

lemma eviction_eq (numTrains : ℕ) (copies : Copies) : ∃ key,
    config.eviction sorting numTrains copies = if config.selection numTrains = .newDataOnly then none
      else trim sorting key copies config.bound := by
  unfold TrainingConfig.eviction TrainingConfig.limit TrainingConfig.bound
  by_cases hpools : config.fifoSize > 0 ∨ config.replaySize > 0
  · have hsel : config.selection numTrains = .twoPool := by
      unfold TrainingConfig.selection
      rw [if_neg (by omega), if_pos hpools]
    refine ⟨fun row => row.onlineSeq.getD 0, ?_⟩
    simp [hsel, hpools]
  · have hsel : config.selection numTrains ≠ .twoPool := by
      unfold TrainingConfig.selection
      simp only [hpools]
      split <;> simp
    refine ⟨fun row => row.requestStartTime, ?_⟩
    rw [if_neg hpools]
    cases h : config.selection numTrains with
    | newDataOnly | original => simp
    | twoPool => exact absurd h hsel

/-- **The stores fit the bound after a round** exactly if the bound is not negative and, where the
round trains on new data only, they fitted it before. -/
theorem size_round_iff (offlineDf : List DataRow) (ops : List Operation)
    (historical : List DataRow) :
    let s := after config sorting offlineDf ops
    let s' := after config sorting offlineDf (ops ++ [.round historical])
    s'.numTrains = s.numTrains + 1 → (s'.size ≤ config.bound ↔ 0 ≤ config.bound ∧
        (config.selection s.numTrains = .newDataOnly → s.size ≤ config.bound)) := by
  intro s s' hcompleted
  obtain ⟨-, hround⟩ :=
    perform_round config sorting (phase_after config sorting offlineDf ops) historical
  have hs' : s' = s.perform config sorting (.round historical) := by simp [s', s, after]
  rw [show (after config sorting offlineDf ops) = s from rfl, ← hs'] at hround
  obtain hround | ⟨-, hsize⟩ := hround
  · omega
  obtain ⟨key, heviction⟩ := eviction_eq config sorting s.numTrains ⟨s.offlineDf, s.onlineDf⟩
  obtain ⟨hfits, hleft⟩ := trim_size sorting key ⟨s.offlineDf, s.onlineDf⟩ config.bound
  have hpos : 0 ≤ s.size := by unfold size; omega
  rw [hsize, (writeBack_spec config sorting s _).2, heviction]
  split
  · rename_i hnew
    simp only [hnew, true_implies]
    exact ⟨fun hle => ⟨hpos.trans hle, hle⟩, fun h => h.2⟩
  · rename_i hnew
    simp only [hnew, false_implies, and_true]
    cases htrim : trim sorting key ⟨s.offlineDf, s.onlineDf⟩ config.bound with
    | none =>
      have hle : s.size ≤ config.bound := hfits.mp htrim
      exact iff_of_true hle (hpos.trans hle)
    | some trimmed =>
      rw [Option.map_some, Option.getD_some, hleft trimmed htrim]
      omega

/-- Continual learning without pools, and room for one row. -/
def withoutPools : TrainingConfig :=
  ⟨true, none, .contextualBandit, false, 0, 0, 1, -1, 0, 0⟩

def rowAt (time : ℤ) : ProcessedRow := ⟨[], time, 0⟩

/-- The first round shortens the stores. -/
theorem size_round_first :
    (after withoutPools .stable [{ rowAt 0 with }] [.flush [rowAt 1] 1, .round []]).size ≤
      withoutPools.bound :=
  (size_round_iff withoutPools .stable [{ rowAt 0 with }] [.flush [rowAt 1] 1] []
    (by decide +kernel)).mpr (by decide +kernel)

/-- The second one does not. -/
theorem size_round_later :
    let s := after withoutPools .stable [{ rowAt 0 with }]
      [.flush [rowAt 1] 1, .round [], .flush [rowAt 2] 1, .round []]
    s.numTrains = 2 ∧ withoutPools.bound < s.size := by
  decide +kernel

end OnlineStore
end Lodestar.Agent
