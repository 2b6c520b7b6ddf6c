import Lodestar.Agent.OnlineStore

/-!
# What a write-back loses

A round that finds too many rows replaces the online store by its own copy, shortened.  A row that a
flush appended after the copy is not in it.  The size limit did not remove the row, and it is gone
(`nothingLost_run_during`).  Otherwise nothing is lost (`nothingLost_run_iff`).

The rows are told apart by their numbers, which are never used twice (`Numbered`).
-/

namespace Lodestar.Agent.OnlineStore

open Lib List

/-- Every row that was appended is in the store or was removed by a size limit. -/
def NothingLost (s : OnlineStore) : Prop :=
  ∀ row ∈ s.appended, row ∈ s.onlineDf ∨ row ∈ s.removed

/-- The copy of the round, if it has not yet chosen its data. -/
def openCopy (s : OnlineStore) : Option Copies :=
  match s.phase with
  | .copied copies => some copies
  | _ => none

/-- A round that writes back finds no row that is not in its copy. -/
def FindsItsCopy (config : TrainingConfig) (sorting : Sorting) (s : OnlineStore) : Event → Prop
  | .selectData _ => ∀ copies ∈ s.openCopy,
      (config.eviction sorting s.numTrains copies).isSome = true →
        ∀ row ∈ s.onlineDf, row ∈ copies.online
  | _ => True

instance (config : TrainingConfig) (sorting : Sorting) (s : OnlineStore) (e : Event) :
    Decidable (s.FindsItsCopy config sorting e) := by
  cases e <;> unfold FindsItsCopy <;> infer_instance

/-- A round that writes back removes as many online rows as are too many, and none that is kept is
older than one that is removed; nothing else removes a row. -/
def RemovesOldest (config : TrainingConfig) (sorting : Sorting) (s : OnlineStore) (e : Event) : Prop :=
  let s' := s.step config sorting e
  match e with
  | .selectData _ => ∀ copies ∈ s.openCopy, ∀ limit ∈ config.limit s.numTrains, ∃ rows,
      s'.removed = s.removed ++ rows ∧ rows.length = copies.overflow limit.2 ∧
        ∀ row ∈ rows, ∀ row' ∈ s'.onlineDf, limit.1 row ≤ limit.1 row'
  | _ => s'.removed = s.removed

/-- The rows of the store and of an open copy are numbered, without repetition, and no
row of the store was removed. -/
structure Numbered (s : OnlineStore) : Prop where
  seq : ∀ row ∈ s.appended, ∃ n < s.onlineSeq, row.onlineSeq = some n
  online : ∀ row ∈ s.onlineDf, row ∈ s.appended ∧ row ∉ s.removed
  removed : ∀ row ∈ s.removed, row ∈ s.appended
  nodup : s.onlineDf.Nodup
  copied : ∀ copies ∈ s.openCopy, copies.online.Nodup ∧ ∀ row ∈ copies.online, row ∈ s.onlineDf

variable {config : TrainingConfig} {sorting : Sorting} {s s' : OnlineStore}

/-! ### Flushes -/

lemma seq_onlineBatch {processed : List ProcessedRow} {row : DataRow}
    (h : row ∈ s.onlineBatch config processed) :
    ∃ i < (s.onlineBatch config processed).length, row.onlineSeq = some (s.onlineSeq + i) := by
  unfold onlineBatch at h ⊢
  obtain ⟨i, hi, rfl⟩ := mem_mapIdx.mp h
  exact ⟨i, by simpa using hi, rfl⟩

lemma nodup_onlineBatch (s : OnlineStore) (config : TrainingConfig)
    (processed : List ProcessedRow) : (s.onlineBatch config processed).Nodup := by
  unfold onlineBatch
  refine pairwise_iff_getElem.mpr fun i j hi hj hij heq => ?_
  rw [getElem_mapIdx, getElem_mapIdx, DataRow.mk.injEq, Option.some.injEq] at heq
  omega

lemma Numbered.handleFlush (h : s.Numbered) (processed : List ProcessedRow) :
    (s.handleFlush config processed).Numbered := by
  unfold OnlineStore.handleFlush
  split
  · set batch := s.onlineBatch config processed with hbatch
    have hnew : ∀ row ∈ batch, row ∉ s.appended := by
      intro row hrow hold
      obtain ⟨i, -, hi⟩ := seq_onlineBatch hrow
      obtain ⟨n, hn, hseq⟩ := h.seq row hold
      have : s.onlineSeq + i = n := Option.some.inj (hi.symm.trans hseq)
      omega
    refine ⟨fun row hrow => ?_, fun row hrow => ?_, fun row hrow => ?_, ?_, fun copies hc => ?_⟩
    · rcases mem_append.mp hrow with hrow | hrow
      · obtain ⟨n, hn, hseq⟩ := h.seq row hrow
        exact ⟨n, by simp only; omega, hseq⟩
      · obtain ⟨i, hi, hseq⟩ := seq_onlineBatch hrow
        have hi : i < batch.length := hi
        exact ⟨s.onlineSeq + i, by simp only; omega, hseq⟩
    · rcases mem_append.mp hrow with hrow | hrow
      · exact ⟨mem_append_left _ (h.online row hrow).1, (h.online row hrow).2⟩
      · exact ⟨mem_append_right _ hrow, fun hr => hnew row hrow (h.removed row hr)⟩
    · exact mem_append_left _ (h.removed row hrow)
    · refine nodup_append.mpr ⟨h.nodup, nodup_onlineBatch s config processed, ?_⟩
      rintro row hrow row' hrow' rfl
      exact hnew row hrow' (h.online row hrow).1
    · obtain ⟨hnodup, hsub⟩ := h.copied copies hc
      exact ⟨hnodup, fun row hrow => mem_append_left _ (hsub row hrow)⟩
  · exact h

/-! ### Rounds -/

lemma Numbered.frame (h : s.Numbered) (honline : s'.onlineDf = s.onlineDf)
    (hseq : s'.onlineSeq = s.onlineSeq) (happended : s'.appended = s.appended)
    (hremoved : s'.removed = s.removed)
    (hcopy : ∀ copies ∈ s'.openCopy, copies ∈ s.openCopy ∨ copies.online = s.onlineDf) :
    s'.Numbered := by
  refine ⟨?_, ?_, ?_, ?_, fun copies hc => ?_⟩
  · rw [happended, hseq]
    exact h.seq
  · rw [honline, happended, hremoved]
    exact h.online
  · rw [hremoved, happended]
    exact h.removed
  · rw [honline]
    exact h.nodup
  · rw [honline]
    rcases hcopy copies hc with hold | hnew
    · exact h.copied copies hold
    · rw [hnew]
      exact ⟨h.nodup, fun _ hrow => hrow⟩

attribute [local simp] openCopy

lemma Numbered.copyStores (h : s.Numbered) : (s.copyStores config).Numbered := by
  unfold OnlineStore.copyStores
  split
  · split
    · exact h.frame rfl rfl rfl rfl (by simp)
    split
    · exact h.frame rfl rfl rfl rfl (by simp)
    · exact h.frame rfl rfl rfl rfl (by simp)
  · exact h

lemma mem_of_eviction {copies : Copies} {trimmed : Trimmed}
    (h : config.eviction sorting s.numTrains copies = some trimmed) (row : DataRow) :
    row ∈ trimmed.removed ∨ row ∈ trimmed.online ↔ row ∈ copies.online := by
  rw [← mem_append, (eviction_spec h).mem_iff]

lemma Numbered.writeBack (h : s.Numbered) {copies : Copies} (hc : copies ∈ s.openCopy) :
    ({ s.writeBack config sorting copies with phase := .idle } : OnlineStore).Numbered := by
  obtain ⟨hnodup, hsub⟩ := h.copied copies hc
  unfold OnlineStore.writeBack
  split
  · exact h.frame rfl rfl rfl rfl (by simp)
  · rename_i trimmed heviction
    have hmem := mem_of_eviction heviction
    obtain ⟨-, hnodup', hdisjoint⟩ :=
      nodup_append.mp ((eviction_spec heviction).nodup_iff.mpr hnodup)
    refine ⟨h.seq, fun row hrow => ?_, fun row hrow => ?_, hnodup', by simp⟩
    · have hold := h.online row (hsub row ((hmem row).mp (.inr hrow)))
      refine ⟨hold.1, fun hr => ?_⟩
      rcases mem_append.mp hr with hr | hr
      · exact hold.2 hr
      · exact hdisjoint row hr row hrow rfl
    · rcases mem_append.mp hrow with hr | hr
      · exact h.removed row hr
      · exact (h.online row (hsub row ((hmem row).mp (.inl hr)))).1

lemma Numbered.selectData (h : s.Numbered) (historical : List DataRow) :
    (s.selectData config sorting historical).Numbered := by
  unfold OnlineStore.selectData
  split
  · rename_i copies hphase
    have hc : copies ∈ s.openCopy := by simp [hphase]
    have hback : ({ s.writeBack config sorting copies with phase := .idle } :
        OnlineStore).Numbered := h.writeBack hc
    dsimp only
    split
    · exact hback.frame rfl rfl rfl rfl (by simp)
    · exact hback.frame rfl rfl rfl rfl (by simp)
  · exact h

lemma Numbered.step (h : s.Numbered) (e : Event) : (s.step config sorting e).Numbered := by
  cases e with
  | flush processed => exact h.handleFlush processed
  | counted entries => exact h.frame rfl rfl rfl rfl fun _ hc => .inl hc
  | beginRound =>
    rw [OnlineStore.step, OnlineStore.beginRound]
    split_ifs
    · exact h
    · exact h
    · exact h
    · exact h
    · exact h.frame rfl rfl rfl rfl (by simp)
  | copyStores => exact h.copyStores
  | selectData historical => exact h.selectData historical
  | finishRound =>
    rw [OnlineStore.step, OnlineStore.finishRound]
    split
    · exact h.frame rfl rfl rfl rfl (by simp)
    · exact h
  | failRound =>
    rw [OnlineStore.step, OnlineStore.failRound]
    split
    · exact h
    · exact h.frame rfl rfl rfl rfl (by simp)
  | leaveRound =>
    rw [OnlineStore.step, OnlineStore.leaveRound]
    split
    · exact h.frame rfl rfl rfl rfl (by simp)
    · exact h

lemma numbered_initial (offlineDf : List DataRow) : (initial offlineDf).Numbered := by
  refine ⟨?_, ?_, ?_, ?_, ?_⟩ <;> simp [initial]

/-! ### Lost rows -/

/-- **The write-back** loses nothing exactly if the round finds its copy. -/
lemma nothingLost_selectData_iff (hn : s.Numbered) (h : s.NothingLost) (historical : List DataRow) :
    (s.selectData config sorting historical).NothingLost ↔
      s.FindsItsCopy config sorting (.selectData historical) := by
  unfold OnlineStore.selectData FindsItsCopy
  cases hphase : s.phase with
  | idle | started | training => exact iff_of_true h (by simp [hphase])
  | copied copies =>
    have hopen : s.openCopy = some copies := by simp [hphase]
    have hback : (s.writeBack config sorting copies).NothingLost ↔
        ((config.eviction sorting s.numTrains copies).isSome = true →
          ∀ row ∈ s.onlineDf, row ∈ copies.online) := by
      unfold OnlineStore.writeBack
      cases heviction : config.eviction sorting s.numTrains copies with
      | none => exact iff_of_true h (by simp)
      | some trimmed =>
        have hmem := mem_of_eviction heviction
        constructor
        · intro hlost _ row hrow
          rcases hlost row (hn.online row hrow).1 with hin | hin
          · exact (hmem row).mp (.inr hin)
          · rcases mem_append.mp hin with hin | hin
            · exact absurd hin (hn.online row hrow).2
            · exact (hmem row).mp (.inl hin)
        · intro hcopy row hrow
          rcases h row hrow with hin | hin
          · rcases (hmem row).mpr (hcopy rfl row hin) with hin | hin
            · exact .inr (mem_append_right _ hin)
            · exact .inl hin
          · exact .inr (mem_append_left _ hin)
    have hcopies : (∀ copies' ∈ s.openCopy,
        (config.eviction sorting s.numTrains copies').isSome = true →
          ∀ row ∈ s.onlineDf, row ∈ copies'.online) ↔
        ((config.eviction sorting s.numTrains copies).isSome = true →
          ∀ row ∈ s.onlineDf, row ∈ copies.online) := by
      rw [hopen]
      simp
    dsimp only
    rw [hcopies, ← hback]
    split <;> exact Iff.rfl

lemma nothingLost_step_iff (hn : s.Numbered) (h : s.NothingLost) (e : Event) :
    (s.step config sorting e).NothingLost ↔ s.FindsItsCopy config sorting e := by
  cases e with
  | flush processed =>
    refine iff_of_true ?_ trivial
    rw [OnlineStore.step, OnlineStore.handleFlush]
    split
    · intro row hrow
      rcases mem_append.mp hrow with hrow | hrow
      · exact (h row hrow).imp_left (mem_append_left _)
      · exact .inl (mem_append_right _ hrow)
    · exact h
  | counted entries => exact iff_of_true h trivial
  | beginRound =>
    refine iff_of_true ?_ trivial
    rw [OnlineStore.step, OnlineStore.beginRound]
    split_ifs <;> exact h
  | copyStores =>
    refine iff_of_true ?_ trivial
    rw [OnlineStore.step, OnlineStore.copyStores]
    split
    · split_ifs <;> exact h
    · exact h
  | selectData historical => exact nothingLost_selectData_iff hn h historical
  | finishRound =>
    refine iff_of_true ?_ trivial
    rw [OnlineStore.step, OnlineStore.finishRound]
    split <;> exact h
  | failRound =>
    refine iff_of_true ?_ trivial
    rw [OnlineStore.step, OnlineStore.failRound]
    split <;> exact h
  | leaveRound =>
    refine iff_of_true ?_ trivial
    rw [OnlineStore.step, OnlineStore.leaveRound]
    split <;> exact h

variable (config sorting) in
lemma selectData_writes (historical : List DataRow) {copies : Copies}
    (hphase : s.phase = .copied copies) :
    (s.selectData config sorting historical).removed =
        (s.writeBack config sorting copies).removed ∧
      (s.selectData config sorting historical).onlineDf =
        (s.writeBack config sorting copies).onlineDf := by
  unfold OnlineStore.selectData
  rw [hphase]
  dsimp only
  split <;> exact ⟨rfl, rfl⟩

/-- **A write-back** removes exactly the overflow, the oldest rows first. -/
lemma removesOldest_selectData (historical : List DataRow) :
    s.RemovesOldest config sorting (.selectData historical) := by
  intro copies hc limit hlimit
  have hphase : s.phase = .copied copies := by
    revert hc
    unfold openCopy
    split <;> simp_all
  have heviction : config.eviction sorting s.numTrains copies =
      trim sorting limit.1 copies limit.2 := by
    rw [TrainingConfig.eviction, Option.mem_def.mp hlimit]
    rfl
  obtain ⟨hremoved, honline⟩ := selectData_writes config sorting historical hphase
  rw [OnlineStore.step, hremoved, honline, OnlineStore.writeBack, heviction]
  cases htrim : trim sorting limit.1 copies limit.2 with
  | none => exact ⟨[], by simp, (Copies.overflow_eq_zero htrim).symm, by simp⟩
  | some trimmed => exact ⟨trimmed.removed, rfl, (trim_spec htrim).2⟩

/-- **Nothing but the oldest overflow**: in all states of a run every appended row is in the store
or was removed by a size limit, exactly if every round that writes back finds the rows of its copy
and no others.  What a size limit removes is the overflow, and these are the oldest rows. -/
theorem nothingLost_run_iff (config : TrainingConfig) (sorting : Sorting) (offlineDf : List DataRow)
    (events : List Event) :
    ((∀ es, es <+: events → (run config sorting offlineDf es).NothingLost) ↔
      Along (step config sorting) (FindsItsCopy config sorting) (initial offlineDf) events) ∧
    Along (step config sorting) (RemovesOldest config sorting) (initial offlineDf) events := by
  refine ⟨along_iff_of_invariant (numbered_initial offlineDf) (by simp [NothingLost, initial])
    (fun _ e hn => hn.step e) fun _ e hn h => nothingLost_step_iff hn h e,
    along_of_mem fun s e _ => ?_⟩
  cases e with
  | selectData historical => exact removesOldest_selectData historical
  | flush processed =>
    show (s.handleFlush config processed).removed = s.removed
    unfold OnlineStore.handleFlush
    split <;> rfl
  | counted => rfl
  | beginRound =>
    show (s.beginRound config).removed = s.removed
    unfold OnlineStore.beginRound
    split_ifs <;> rfl
  | copyStores =>
    show (s.copyStores config).removed = s.removed
    unfold OnlineStore.copyStores
    split
    · split_ifs <;> rfl
    · rfl
  | finishRound =>
    show (s.finishRound config).removed = s.removed
    unfold OnlineStore.finishRound
    split <;> rfl
  | failRound =>
    show s.failRound.removed = s.removed
    unfold OnlineStore.failRound
    split <;> rfl
  | leaveRound =>
    show s.leaveRound.removed = s.removed
    unfold OnlineStore.leaveRound
    split <;> rfl

def smallPools : TrainingConfig where
  enableOnlineLearning := true
  ttftThreshold := some 1000
  modelType := .contextualBandit
  onlineTrainFromScratch := true
  fifoSize := 1
  replaySize := 1
  maxTotalData := 20000
  maxNumOnlineTrains := -1
  minNumTrainingData := 1
  minNumUpdateData := 1

def sampleRows (ids : List String) : List ProcessedRow :=
  ids.map fun id => ⟨id.toList, 0, 40⟩

/-- A row arrives between the copy and the write-back of a round that has three rows for two places.
The size limit removes the oldest row, and the new row is gone as well. -/
theorem nothingLost_run_during :
    let s := run smallPools .stable [] [.flush (sampleRows ["a", "b", "c"]), .counted 3, .beginRound,
      .copyStores, .flush (sampleRows ["d"]), .counted 1, .selectData [], .finishRound]
    s.removed.map DataRow.onlineSeq = [some 0] ∧
      s.onlineDf.map DataRow.onlineSeq = [some 1, some 2] ∧
      s.appended.map DataRow.onlineSeq = [some 0, some 1, some 2, some 3] ∧ ¬ s.NothingLost := by
  unfold NothingLost
  decide +kernel

/-- The row arrives after the write-back. -/
theorem nothingLost_run_after :
    (run smallPools .stable [] [.flush (sampleRows ["a", "b", "c"]), .counted 3, .beginRound,
      .copyStores, .selectData [], .flush (sampleRows ["d"]), .counted 1, .finishRound]).NothingLost :=
  (nothingLost_run_iff smallPools .stable [] _).1.mpr (by decide +kernel) _ (prefix_refl _)

end Lodestar.Agent.OnlineStore
