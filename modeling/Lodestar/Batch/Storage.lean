import Lodestar.Lib.Run

/-!
# The cached reader of batch requests

`read_job_requests` of `python/aibrix/aibrix/batch/storage/batch_storage.py`: a window of the requests
of a job is kept in memory, and the reads move and extend it.  A read that starts before the window and
reaches into it fetches the first request of the window once more, so the window then has it twice.
-/

namespace Lodestar.Batch

open Lib List

variable {α : Type*}

/-- What the module keeps of one job. -/
structure JobEntry (α : Type*) where
  currentJobOffset : Option ℕ := none
  jobInputRequests : Option (List α) := none

def numRequestsPerRead : ℕ := 1024

section

variable (input : List α)

/-- The storage returns the slice cut off at the end of the input. -/
def readJobInputData (start num : ℕ) : List α := (input.drop start).take num

/-- The window behind the branch of a backward read. -/
def readBackward (start num offset : ℕ) (requests : List α) : ℕ × List α :=
  if start < offset then
    if start + num < offset + 1 then (start, readJobInputData input start num)
    else (start, readJobInputData input start (offset + 1 - start) ++ requests)
  else (offset, requests)

/-- The window that a read leaves. -/
def moveWindow (start num offset : ℕ) (requests : List α) : ℕ × List α :=
  let (offset, requests) := readBackward input start num offset requests
  -- the window is behind: it is thrown away
  let (offset, requests) := if offset + requests.length ≤ start then (start, []) else (offset, requests)
  let endIdx := offset + requests.length
  if endIdx < start + num then
    (offset, requests ++ readJobInputData input endIdx (start + num - endIdx))
  else (offset, requests)

def readJobRequests (e : JobEntry α) (start num : ℕ) : JobEntry α × List α :=
  match e.currentJobOffset with
  | none => (e, [])
  | some offset =>
    let requests := e.jobInputRequests.getD (readJobInputData input 0 numRequestsPerRead)
    let (offset, requests) := moveWindow input start num offset requests
    (⟨some offset, some requests⟩,
      (requests.drop (start - offset)).take (min num (offset + requests.length - start)))

/-- The results of reads, one after the other. -/
def readAll (e : JobEntry α) : List (ℕ × ℕ) → List (List α)
  | [] => []
  | r :: reads =>
    (readJobRequests input e r.1 r.2).2 :: readAll (readJobRequests input e r.1 r.2).1 reads

/-- The read does not reach into the window from before it. -/
def Clear (e : JobEntry α) (r : ℕ × ℕ) : Prop :=
  ∀ offset ∈ e.currentJobOffset, offset < input.length → r.1 < offset → r.1 + r.2 ≤ offset

/-- The window is a slice of the input. -/
def IsSlice (e : JobEntry α) : Prop :=
  ∃ offset n, e.currentJobOffset = some offset ∧
    e.jobInputRequests.getD (readJobInputData input 0 numRequestsPerRead) =
      readJobInputData input offset n

end

attribute [local simp] readJobInputData

lemma slice_append (input : List α) (i n m : ℕ) :
    readJobInputData input i n ++
        readJobInputData input (i + (readJobInputData input i n).length) m =
      readJobInputData input i ((readJobInputData input i n).length + m) := by
  rw [readJobInputData, readJobInputData, readJobInputData, take_add, drop_drop]
  congr 1
  rw [length_take, ← take_eq_take_min]

lemma moveWindow_spec {input : List α} {start num offset n : ℕ}
    (hclear : offset < input.length → start < offset → start + num ≤ offset) :
    ∃ o m, moveWindow input start num offset (readJobInputData input offset n) =
      (o, readJobInputData input o m) ∧ o ≤ start ∧ start + num ≤ o + m := by
  have hback : ∃ o m, readBackward input start num offset (readJobInputData input offset n) =
      (o, readJobInputData input o m) ∧ o ≤ start := by
    unfold readBackward
    split
    · rename_i hlt
      split
      · exact ⟨start, num, rfl, le_rfl⟩
      · -- the window is behind the end of the input, so nothing is doubled
        have hbeyond : input.length ≤ offset := by
          by_contra hin
          have := hclear (by omega) hlt
          omega
        refine ⟨start, offset + 1 - start, ?_, le_rfl⟩
        simp [drop_eq_nil_of_le hbeyond]
    · exact ⟨offset, n, rfl, by omega⟩
  obtain ⟨o, m, hback, ho⟩ := hback
  have hkept : ∃ o' m', (if o + (readJobInputData input o m).length ≤ start then (start, [])
      else (o, readJobInputData input o m)) = (o', readJobInputData input o' m') ∧ o' ≤ start := by
    split
    · exact ⟨start, 0, by simp, le_rfl⟩
    · exact ⟨o, m, rfl, ho⟩
  obtain ⟨o', m', hkept, ho'⟩ := hkept
  simp only [moveWindow, hback, hkept]
  split
  · refine ⟨o', _, by rw [slice_append], ho', ?_⟩
    omega
  · refine ⟨o', (readJobInputData input o' m').length, ?_, ho', by omega⟩
    simp

lemma readJobRequests_spec {input : List α} {e : JobEntry α} (h : IsSlice input e) {r : ℕ × ℕ}
    (hclear : Clear input e r) : IsSlice input (readJobRequests input e r.1 r.2).1 ∧
      (readJobRequests input e r.1 r.2).2 = readJobInputData input r.1 r.2 := by
  obtain ⟨offset, n, hoffset, hslice⟩ := h
  obtain ⟨o, m, hmove, ho, hm⟩ := moveWindow_spec (n := n) (hclear offset hoffset)
  simp only [readJobRequests, hoffset, hslice, hmove]
  refine ⟨⟨o, m, rfl, rfl⟩, ?_⟩
  simp only [readJobInputData, drop_take, drop_drop, take_take, length_take, length_drop]
  rw [Nat.add_sub_cancel' ho, take_eq_take_iff, length_drop]
  omega

/-- **The cached reader returns the stored requests**, in any reads of a job none of which starts
before the window and reaches into it. -/
theorem readAll_eq (input : List α) (reads : List (ℕ × ℕ))
    (h : Along (fun e r => (readJobRequests input e r.1 r.2).1) (Clear input)
      ⟨some 0, none⟩ reads) :
    readAll input ⟨some 0, none⟩ reads = reads.map fun r => (input.drop r.1).take r.2 := by
  have hstart : IsSlice input ⟨some 0, none⟩ := ⟨0, numRequestsPerRead, rfl, rfl⟩
  generalize (⟨some 0, none⟩ : JobEntry α) = e at h hstart ⊢
  induction reads generalizing e with
  | nil => rfl
  | cons r reads ih =>
    obtain ⟨hnext, heq⟩ := readJobRequests_spec hstart h.1
    rw [readAll, heq, ih _ h.2 hnext]
    rfl

theorem readAll_eq_forward : readAll [7, 8, 9] ⟨some 0, none⟩ [(1, 5), (0, 2)] = [[8, 9], [7, 8]] :=
  readAll_eq _ _ (by unfold Clear; decide +kernel)

/-- A backward read that reaches the window gets the request 1030 twice. -/
theorem overlap_doubled :
    readAll (List.range 1040) ⟨some 0, none⟩ [(1030, 2), (1028, 4)] =
      [[1030, 1031], [1028, 1029, 1030, 1030]] := by
  decide +kernel

end Lodestar.Batch
