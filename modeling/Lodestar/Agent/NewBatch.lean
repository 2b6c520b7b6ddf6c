import Lodestar.Agent.WriteBack

/-!
# When is a row new?

A flush stamps its rows with the number of rounds so far.  A round takes the rows of its copy whose
stamp is at least its own number for new.  The number of rounds grows only at the end of a round, so a
row that arrives between the copy and the end of a round has the stamp of this round, and when
the next round copies it for the first time, it is historical already
(`classifiedOnce_run_during`).
-/

namespace Lodestar.Agent.OnlineStore

open Lib

def CopiedBy (rounds : List RoundRecord) (row : DataRow) : Prop :=
  ∃ r ∈ rounds, row ∈ r.online

instance (rounds : List RoundRecord) (row : DataRow) : Decidable (CopiedBy rounds row) :=
  inferInstanceAs (Decidable (∃ r ∈ rounds, row ∈ r.online))

/-- Every round takes those rows of its copy for new that no earlier round has copied, and the
others for historical. -/
def ClassifiedOnce : List RoundRecord → Prop
  | [] => True
  | r :: earlier =>
    (∀ split ∈ r.classified, ∀ row ∈ r.online,
      (row ∈ split.1 ↔ ¬ CopiedBy earlier row) ∧ (row ∈ split.2 ↔ CopiedBy earlier row)) ∧
    ClassifiedOnce earlier

instance ClassifiedOnce.decidable : ∀ rounds : List RoundRecord, Decidable (ClassifiedOnce rounds)
  | [] => isTrue trivial
  | r :: earlier => by
    have := ClassifiedOnce.decidable earlier
    unfold ClassifiedOnce
    infer_instance

def currentCopy (s : OnlineStore) : Option Copies :=
  match s.phase with
  | .copied copies => some copies
  | .training copies _ => some copies
  | _ => none

/-- At the end of a round the store has no row that came after its copy. -/
def FinishedInTime (s : OnlineStore) : Event → Prop
  | .finishRound => ∀ copies ∈ s.currentCopy, ∀ row ∈ s.onlineDf, row ∈ copies.online
  | _ => True

instance (s : OnlineStore) : (e : Event) → Decidable (s.FinishedInTime e)
  | .finishRound => inferInstanceAs
      (Decidable (∀ copies ∈ s.currentCopy, ∀ row ∈ s.onlineDf, row ∈ copies.online))
  | .flush _ | .counted _ | .beginRound | .copyStores | .selectData _ | .failRound | .leaveRound =>
    inferInstanceAs (Decidable True)

/-- The stamp of a row says whether an earlier round has copied it. -/
def StampTells (s : OnlineStore) (row : DataRow) : Prop :=
  ∃ c, row.collectionRound = some c ∧ c ≤ s.numTrains ∧ (c < s.numTrains → CopiedBy s.rounds row)

/-- The stamps of the rows in the store and in the copy of the round in progress, and those of the
rows of earlier rounds. -/
structure Stamped (s : OnlineStore) : Prop where
  online : ∀ row ∈ s.onlineDf, s.StampTells row
  copied : ∀ copies ∈ s.currentCopy, ∀ row ∈ copies.online, s.StampTells row
  earlier : ∀ row, CopiedBy s.rounds row → ∃ c < s.numTrains, row.collectionRound = some c
  classified : ClassifiedOnce s.rounds

variable {config : TrainingConfig} {sorting : Sorting} {s s' : OnlineStore}

lemma Stamped.frame (h : s.Stamped) (hnum : s'.numTrains = s.numTrains)
    (hrounds : s'.rounds = s.rounds)
    (honline : ∀ row ∈ s'.onlineDf, row ∈ s.onlineDf ∨ ∃ copies ∈ s.currentCopy, row ∈ copies.online)
    (hcopy : ∀ copies ∈ s'.currentCopy, copies ∈ s.currentCopy ∨ copies.online = s.onlineDf) :
    s'.Stamped := by
  have htells : ∀ row, s.StampTells row → s'.StampTells row := by
    rintro row ⟨c, hc, hle, hlt⟩
    exact ⟨c, hc, hnum ▸ hle, fun h => hrounds ▸ hlt (hnum ▸ h)⟩
  refine ⟨fun row hrow => ?_, fun copies hc row hrow => ?_, fun row hrow => ?_, hrounds ▸ h.classified⟩
  · rcases honline row hrow with hold | ⟨copies, hc, hin⟩
    · exact htells row (h.online row hold)
    · exact htells row (h.copied copies hc row hin)
  · rcases hcopy copies hc with hold | hnew
    · exact htells row (h.copied copies hold row hrow)
    · exact htells row (h.online row (hnew ▸ hrow))
  · rw [hnum]
    exact h.earlier row (hrounds ▸ hrow)

lemma collectionRound_onlineBatch {processed : List ProcessedRow} {row : DataRow}
    (h : row ∈ s.onlineBatch config processed) : row.collectionRound = some s.numTrains := by
  obtain ⟨i, hi, rfl⟩ := List.mem_mapIdx.mp h
  rfl

lemma Stamped.handleFlush (h : s.Stamped) (processed : List ProcessedRow) :
    (s.handleFlush config processed).Stamped := by
  unfold OnlineStore.handleFlush
  split
  · refine ⟨fun row hrow => ?_, h.copied, h.earlier, h.classified⟩
    rcases List.mem_append.mp hrow with hrow | hrow
    · exact h.online row hrow
    · exact ⟨s.numTrains, collectionRound_onlineBatch hrow, le_rfl, fun hlt => absurd hlt (lt_irrefl _)⟩
  · exact h

attribute [local simp] currentCopy

lemma Stamped.copyStores (h : s.Stamped) : (s.copyStores config).Stamped := by
  unfold OnlineStore.copyStores
  split
  · split_ifs
    · exact h.frame rfl rfl (fun _ hrow => .inl hrow) (by simp)
    · exact h.frame rfl rfl (fun _ hrow => .inl hrow) (by simp)
    · exact h.frame rfl rfl (fun _ hrow => .inl hrow) (by simp)
  · exact h

lemma mem_writeBack {copies : Copies} {row : DataRow}
    (h : row ∈ (s.writeBack config sorting copies).onlineDf) :
    row ∈ s.onlineDf ∨ row ∈ copies.online := by
  unfold OnlineStore.writeBack at h
  split at h
  · exact .inl h
  · rename_i trimmed heviction
    exact .inr ((mem_of_eviction heviction row).mp (.inr h))

lemma numTrains_writeBack (copies : Copies) :
    (s.writeBack config sorting copies).numTrains = s.numTrains := by
  unfold OnlineStore.writeBack
  split <;> rfl

lemma rounds_writeBack (copies : Copies) :
    (s.writeBack config sorting copies).rounds = s.rounds := by
  unfold OnlineStore.writeBack
  split <;> rfl

lemma Stamped.selectData (h : s.Stamped) (historical : List DataRow) :
    (s.selectData config sorting historical).Stamped := by
  unfold OnlineStore.selectData
  split
  · rename_i copies hphase
    have hc : copies ∈ s.currentCopy := by simp [hphase]
    have honline : ∀ row ∈ (s.writeBack config sorting copies).onlineDf,
        row ∈ s.onlineDf ∨ ∃ copies ∈ s.currentCopy, row ∈ copies.online := fun row hrow =>
      (mem_writeBack hrow).imp_right fun hin => ⟨copies, hc, hin⟩
    dsimp only
    split
    · exact h.frame (numTrains_writeBack copies) (rounds_writeBack copies) honline
        (by simp)
    · refine h.frame (numTrains_writeBack copies) (rounds_writeBack copies) honline fun c hc' => ?_
      obtain rfl : copies = c := by simpa using hc'
      exact .inl hc
  · exact h

lemma Stamped.copiedBy_iff (h : s.Stamped) {row : DataRow} (hrow : s.StampTells row) :
    CopiedBy s.rounds row ↔ row.collectionRound.getD 0 < s.numTrains := by
  obtain ⟨c, hc, hle, hlt⟩ := hrow
  rw [hc]
  refine ⟨fun hcopied => ?_, hlt⟩
  obtain ⟨c', hlt', hc'⟩ := h.earlier row hcopied
  obtain rfl : c = c' := Option.some.inj (hc.symm.trans hc')
  exact hlt'

lemma Stamped.finishRound (h : s.Stamped) (hin : s.FinishedInTime .finishRound) :
    (s.finishRound config).Stamped := by
  unfold OnlineStore.finishRound
  split
  · rename_i copies trainingDf hphase
    have hc : copies ∈ s.currentCopy := by simp [hphase]
    refine ⟨fun row hrow => ?_, by simp, fun row hrow => ?_, ?_, h.classified⟩
    · obtain ⟨c, hc', hle, -⟩ := h.online row hrow
      exact ⟨c, hc', hle.trans (Nat.le_succ _),
        fun _ => ⟨_, List.mem_cons_self, hin copies hc row hrow⟩⟩
    · obtain ⟨r, hr, hmem⟩ := hrow
      rcases List.mem_cons.mp hr with rfl | hr
      · obtain ⟨c, hc', hle, -⟩ := h.copied copies hc row hmem
        exact ⟨c, Nat.lt_succ_of_le hle, hc'⟩
      · obtain ⟨c, hlt, hc'⟩ := h.earlier row ⟨r, hr, hmem⟩
        exact ⟨c, hlt.trans (Nat.lt_succ_self _), hc'⟩
    · intro split hsplit row hrow
      obtain rfl : splitNewAndHistorical copies.online s.numTrains = split := by
        unfold classify at hsplit
        split at hsplit
        · simp at hsplit
        · simpa using hsplit
      rw [h.copiedBy_iff (h.copied copies hc row hrow)]
      simp [splitNewAndHistorical, hrow]
  · exact h

lemma Stamped.step (h : s.Stamped) (e : Event) (hin : s.FinishedInTime e) :
    (s.step config sorting e).Stamped := by
  cases e with
  | flush processed => exact h.handleFlush processed
  | counted entries => exact h.frame rfl rfl (fun _ hrow => .inl hrow) fun _ hc => .inl hc
  | beginRound =>
    rw [OnlineStore.step, OnlineStore.beginRound]
    split_ifs
    · exact h
    · exact h
    · exact h
    · exact h
    · exact h.frame rfl rfl (fun _ hrow => .inl hrow) (by simp)
  | copyStores => exact h.copyStores
  | selectData historical => exact h.selectData historical
  | finishRound => exact h.finishRound hin
  | failRound =>
    rw [OnlineStore.step, OnlineStore.failRound]
    split
    · exact h
    · exact h.frame rfl rfl (fun _ hrow => .inl hrow) (by simp)
  | leaveRound =>
    rw [OnlineStore.step, OnlineStore.leaveRound]
    split
    · exact h.frame rfl rfl (fun _ hrow => .inl hrow) (by simp)
    · exact h

end Lodestar.Agent.OnlineStore
