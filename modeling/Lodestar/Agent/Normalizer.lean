import Lodestar.Agent.Json

/-!
# The normalisation of features

`RunningStats` holds the statistics of a feature, in exact arithmetic: numbers of an ordered field,
with a square root that may be any function.  Training merges each batch of a request feature into
its statistics, unless the batch is constant up to `1e-10`: then they are overwritten, but for the
range.  `stored_exact_iff`: the statistics are those of all values so far, batch after batch, exactly
if no batch is constant.

A value is normalised with the stored statistics on three paths, which treat small deviations
differently.
-/

namespace Lodestar.Agent

open List
variable {F : Type}

/-- `np.min` and `np.max`, where `f` takes the smaller or the larger of two numbers. -/
def npReduce (f : F → F → F) : List F → Option F
  | [] => none
  | x :: xs => some (xs.foldl f x)

lemma npReduce_append {f : F → F → F} (hf : ∀ x y z, f (f x y) z = f x (f y z)) (l b : List F) :
    npReduce f (l ++ b) = Option.merge f (npReduce f l) (npReduce f b) := by
  have hassoc : Std.Associative f := ⟨hf⟩
  cases l with
  | nil => cases b <;> rfl
  | cons x l =>
    cases b with
    | nil => simp [npReduce]
    | cons y b =>
      show some ((l ++ y :: b).foldl f x) = some (f (l.foldl f x) (b.foldl f y))
      rw [foldl_append, foldl_cons, foldl_assoc]

lemma isNone_npReduce (f : F → F → F) (l : List F) : (npReduce f l).isNone = l.isEmpty := by
  cases l <;> rfl

variable [Field F]

def npMean (xs : List F) : F := xs.sum / xs.length

def npVar (xs : List F) : F := npMean (xs.map fun x => (x - npMean xs) ^ 2)

lemma sum_sq_sub (m : F) (l : List F) : (l.map fun x => (x - m) ^ 2).sum =
    (l.map (· ^ 2)).sum - 2 * m * l.sum + l.length * m ^ 2 := by
  induction l with
  | nil => simp
  | cons x l ih =>
    simp only [map_cons, sum_cons, length_cons, ih, Nat.cast_succ]
    ring

variable [LinearOrder F]

/-- `np.isclose` and `np.allclose` with zero. -/
def isclose (x atol : F) : Bool := |x| ≤ atol

/-- The tolerance of numpy, where the code gives no other. -/
def defaultAtol : F := 1 / 10 ^ 8

def atol : F := 1 / 10 ^ 10

structure RunningStats (F : Type) where
  count : ℕ
  mean : F
  sumSqDiff : F
  std : F
  min : Option F
  max : Option F
  deriving DecidableEq

namespace RunningStats

/-- The statistics of a new feature; the numbers are not read before the first batch. -/
def new : RunningStats F := ⟨0, 0, 0, 0, none, none⟩

variable (sqrt : F → F)

def updateStatsIncrementally (s : RunningStats F) (newData : List F) : RunningStats F :=
  if newData.isEmpty then s
  else
    let newCount := newData.length
    let range := if s.min.isNone || s.max.isNone then
        (npReduce Min.min newData, npReduce Max.max newData)
      else (Option.merge Min.min s.min (npReduce Min.min newData),
        Option.merge Max.max s.max (npReduce Max.max newData))
    if s.count = 0 then
      let sumSqDiff := npVar newData * newCount
      ⟨newCount, npMean newData, sumSqDiff, sqrt (sumSqDiff / newCount), range.1, range.2⟩
    else
      let newTotal := s.count + newCount
      let delta := npMean newData - s.mean
      let sumSqDiff := s.sumSqDiff + npVar newData * newCount +
        delta ^ 2 * s.count * newCount / newTotal
      ⟨newTotal, s.mean + delta * newCount / newTotal, sumSqDiff, sqrt (sumSqDiff / newTotal),
        range.1, range.2⟩

/-- The test for a constant batch in `_normalize_single_feature`. -/
def constant (batch : List F) : Bool :=
  sqrt (npVar batch) = 0 || isclose (sqrt (npVar batch)) atol

/-- The statistics of a request feature behind a batch in `_normalize_single_feature`. -/
def train (s : RunningStats F) (batch : List F) : RunningStats F :=
  if constant sqrt batch then
    { s with count := batch.length, mean := npMean batch, std := 0, sumSqDiff := 0 }
  else s.updateStatsIncrementally sqrt batch

/-- The normalised value; `none` is a failed assertion. -/
def normalize (s : RunningStats F) (x : F) : Option F :=
  if s.count = 0 then none
  else if s.std = 0 ∨ isclose s.std atol then some 0
  else some ((x - s.mean) / s.std)

/-! ### Merging batches -/

/-- The statistics are those of the values. -/
structure Exact (s : RunningStats F) (xs : List F) : Prop where
  count : s.count = xs.length
  mean : s.mean = npMean xs
  std : s.std = sqrt (npVar xs)
  min : s.min = npReduce Min.min xs
  max : s.max = npReduce Max.max xs

section

variable {l b : List F}
variable [IsStrictOrderedRing F]

lemma length_mul_npMean (h : l ≠ []) : l.length * npMean l = l.sum := by
  have hne : (l.length : F) ≠ 0 := by simpa using h
  rw [npMean]
  field_simp

lemma npVar_mul_length (h : l ≠ []) :
    npVar l * l.length = (l.map (· ^ 2)).sum - l.length * npMean l ^ 2 := by
  have hne : (l.length : F) ≠ 0 := by simpa using h
  rw [npVar, npMean, length_map, div_mul_cancel₀ _ hne, sum_sq_sub, ← length_mul_npMean h]
  ring

variable (hl : l ≠ []) (hb : b ≠ [])
include hl hb

lemma npMean_append : npMean (l ++ b) =
    npMean l + (npMean b - npMean l) * b.length / (l.length + b.length : ℕ) := by
  have hne : (l.length + b.length : F) ≠ 0 := by
    exact_mod_cast (Nat.add_pos_left (length_pos_of_ne_nil hl) _).ne'
  rw [npMean, sum_append, ← length_mul_npMean hl, ← length_mul_npMean hb, length_append]
  push_cast
  field_simp
  ring

lemma npVar_append : npVar (l ++ b) * (l.length + b.length : ℕ) =
    npVar l * l.length + npVar b * b.length +
      (npMean b - npMean l) ^ 2 * l.length * b.length / (l.length + b.length : ℕ) := by
  have hne : (l.length + b.length : F) ≠ 0 := by
    exact_mod_cast (Nat.add_pos_left (length_pos_of_ne_nil hl) _).ne'
  have happ := npVar_mul_length (append_ne_nil_of_left_ne_nil hl b)
  rw [length_append] at happ
  rw [happ, npVar_mul_length hl, npVar_mul_length hb, npMean_append hl hb, map_append, sum_append]
  push_cast
  field_simp
  ring

end

/-! ### Sequences of batches -/

variable {sqrt} {s : RunningStats F} {l b : List F}

/-- The sum of squared deviations that the next merge starts from. -/
def Summed (s : RunningStats F) (xs : List F) : Prop := s.sumSqDiff = npVar xs * xs.length

variable [IsStrictOrderedRing F]

lemma exact_first (hb : b ≠ []) (hconst : constant sqrt b = false) :
    Exact sqrt (new.train sqrt b) b ∧ (new.train sqrt b).Summed b := by
  have hne : (b.length : F) ≠ 0 := by simpa using hb
  have hstep : new.train sqrt b = ⟨b.length, npMean b, npVar b * b.length,
      sqrt (npVar b * b.length / b.length), npReduce Min.min b, npReduce Max.max b⟩ := by
    simp [train, hconst, updateStatsIncrementally, new, hb]
  rw [hstep, mul_div_cancel_right₀ _ hne]
  exact ⟨⟨rfl, rfl, rfl, rfl, rfl⟩, rfl⟩

lemma Exact.train (h : Exact sqrt s l) (hs : s.Summed l) (hl : l ≠ []) (hb : b ≠ [])
    (hconst : constant sqrt b = false) :
    Exact sqrt (s.train sqrt b) (l ++ b) ∧ (s.train sqrt b).Summed (l ++ b) := by
  have hne : ((l.length + b.length : ℕ) : F) ≠ 0 :=
    Nat.cast_ne_zero.mpr (Nat.add_pos_left (length_pos_of_ne_nil hl) _).ne'
  have hstep : s.train sqrt b = ⟨l.length + b.length, npMean (l ++ b),
      npVar (l ++ b) * (l.length + b.length : ℕ),
      sqrt (npVar (l ++ b) * (l.length + b.length : ℕ) / (l.length + b.length : ℕ)),
      npReduce Min.min (l ++ b), npReduce Max.max (l ++ b)⟩ := by
    rw [npVar_append hl hb, npMean_append hl hb, npReduce_append min_assoc,
      npReduce_append max_assoc]
    simp [RunningStats.train, hconst, updateStatsIncrementally, hl, hb, h.count, h.mean, h.min,
      h.max, isNone_npReduce, show s.sumSqDiff = _ from hs]
  rw [hstep, mul_div_cancel_right₀ _ hne, ← length_append]
  exact ⟨⟨rfl, rfl, rfl, rfl, rfl⟩, rfl⟩

lemma exact_foldl {bs : List (List F)} (hbs : bs ≠ []) (hne : ∀ b ∈ bs, b ≠ [])
    (hconst : ∀ b ∈ bs, constant sqrt b = false) :
    Exact sqrt (bs.foldl (RunningStats.train sqrt) new) bs.flatten ∧
      (bs.foldl (RunningStats.train sqrt) new).Summed bs.flatten := by
  induction bs using List.reverseRecOn with
  | nil => exact absurd rfl hbs
  | append_singleton bs b ih =>
    have hb := hne b (by simp)
    rw [foldl_append, flatten_append, flatten_singleton]
    by_cases hnil : bs = []
    · subst hnil
      exact exact_first hb (hconst b (by simp))
    · obtain ⟨h, hs⟩ := ih hnil (fun b' hb' => hne b' (by simp [hb'])) fun b' hb' =>
        hconst b' (by simp [hb'])
      refine h.train hs (fun hflat => ?_) hb (hconst b (by simp))
      obtain ⟨b', hb'⟩ := exists_mem_of_ne_nil bs hnil
      exact hne b' (by simp [hb']) (flatten_eq_nil_iff.mp hflat b' hb')

/-- **The stored statistics** are those of all values so far, batch after batch, exactly if no batch
is constant. -/
theorem stored_exact_iff (sqrt : F → F) (bs : List (List F)) (hne : ∀ b ∈ bs, b ≠ []) :
    (∀ p, p <+: bs → p ≠ [] → Exact sqrt (p.foldl (RunningStats.train sqrt) new) p.flatten) ↔
      ∀ b ∈ bs, constant sqrt b = false := by
  constructor
  · intro h b hb
    by_contra hconst
    obtain ⟨p, q, rfl⟩ := append_of_mem hb
    have hexact := h (p ++ [b]) ⟨q, by simp⟩ (by simp)
    have hstep : (p ++ [b]).foldl (RunningStats.train sqrt) new =
        { p.foldl (RunningStats.train sqrt) new with
          count := b.length, mean := npMean b, std := 0, sumSqDiff := 0 } := by
      rw [foldl_append]
      exact if_pos (by simpa using hconst)
    rw [hstep] at hexact
    have hcount : b.length = _ := hexact.count
    rw [flatten_append, flatten_singleton, length_append, Nat.right_eq_add,
      length_eq_zero_iff] at hcount
    -- the batch is the first one, and the range has not been set
    have hp : p = [] := by
      refine eq_nil_iff_forall_not_mem.mpr fun b' hb' => ?_
      exact hne b' (by simp [hb']) (flatten_eq_nil_iff.mp hcount b' hb')
    subst hp
    have hmin : none = npReduce Min.min b := by simpa [new] using hexact.min
    have := isNone_npReduce Min.min b
    rw [← hmin] at this
    exact hne b hb (by simpa using this.symm)
  · intro h p hp hpne
    exact (exact_foldl hpne (fun b hb => hne b (hp.subset hb)) fun b hb => h b (hp.subset hb)).1

theorem stored_exact_two : Exact Rat.sqrt
    ([[0, 2], [4, 6, 8]].foldl (RunningStats.train Rat.sqrt) new) [0, 2, 4, 6, 8] :=
  (stored_exact_iff Rat.sqrt [[0, 2], [4, 6, 8]] (by decide)).mpr (by decide +kernel) _
    (prefix_refl _) (by simp)

/-- A constant batch behind another one takes its place. -/
theorem stored_inexact : ([[0, 2], [5]].foldl (RunningStats.train Rat.sqrt) new) =
    ⟨1, 5, 0, 0, some 0, some 2⟩ ∧
    ¬ Exact Rat.sqrt ([[0, 2], [5]].foldl (RunningStats.train Rat.sqrt) new) [0, 2, 5] := by
  have hrun : ([[0, 2], [5]].foldl (RunningStats.train Rat.sqrt) new) = ⟨1, 5, 0, 0, some 0, some 2⟩ := by
    decide +kernel
  refine ⟨hrun, fun h => ?_⟩
  have hcount := h.count
  rw [hrun] at hcount
  exact absurd hcount (by decide)

end RunningStats

/-! ### The three paths -/

/-- The feature type of the column of a pod, under which its statistics are pooled. -/
def extractPodFeatureType (columnName : Text) : Option Text :=
  if "pod_".toList.isPrefixOf columnName && columnName.contains '-' then
    some ((columnName.dropWhile (· ≠ '-')).drop 1)
  else none

/-- The feature type where it counts as true, that is where it is not empty. -/
def podFeatureType (feature : Text) : Option Text :=
  (extractPodFeatureType feature).filter fun featureType => !featureType.isEmpty

abbrev FeatureStats (F : Type) := AList fun _ : Text => RunningStats F

section

variable (stats : FeatureStats F) (podFeatureTypes : List Text) (feature : Text) (x : F)

/-- A value in `_normalize_single_feature` behind the update of the statistics.  A constant batch is
left as it is, with a stored deviation of zero. -/
def normalizeTrained : Option F :=
  match podFeatureType feature with
  | some featureType => do (← stats.lookup featureType).normalize x
  | none => do
    let s ← stats.lookup feature
    if s.std = 0 then some x else s.normalize x

/-- A value in `_normalize_single_feature` without an update of the statistics. -/
def normalizeFrozen : Option F := do
  let s ← stats.lookup ((podFeatureType feature).getD feature)
  if isclose s.std defaultAtol then some x else s.normalize x

/-- A value in `normalize_features_batch_inference`. -/
def normalizeBatch : Option F :=
  let normalized (s : RunningStats F) : F :=
    if isclose s.std defaultAtol then x
    else if s.std = 0 then x
    else (x - s.mean) / s.std
  match podFeatureType feature with
  | some featureType =>
    if featureType ∈ podFeatureTypes then (stats.lookup featureType).map normalized else some x
  | none =>
    if feature ∈ podFeatureTypes then some x else (stats.lookup feature).map normalized

variable {stats podFeatureTypes feature} [IsStrictOrderedRing F] {s : RunningStats F}

lemma RunningStats.normalize_eq (hcount : s.count ≠ 0) :
    s.normalize x = some (if |s.std| ≤ atol then 0 else (x - s.mean) / s.std) := by
  have hzero : s.std = 0 ∨ isclose s.std atol = true ↔ |s.std| ≤ atol := by
    rw [isclose, decide_eq_true_eq, or_iff_right_iff_imp]
    intro h
    rw [h, abs_zero, atol]
    positivity
  simp only [normalize, if_neg hcount, hzero]
  split <;> rfl

/-- **The three paths agree** on a value exactly if the stored deviation exceeds `1e-8`, or it is the
zero of a request feature, or the value happens to be left as it is. -/
theorem paths_agree_iff
    (hs : stats.lookup ((podFeatureType feature).getD feature) = some s) (hcount : s.count ≠ 0)
    (htypes : (podFeatureType feature).getD feature ∈ podFeatureTypes ↔
      (podFeatureType feature).isSome) :
    (normalizeTrained stats feature x = normalizeFrozen stats feature x ∧
      normalizeFrozen stats feature x = normalizeBatch stats podFeatureTypes feature x) ↔
    defaultAtol < |s.std| ∨ (podFeatureType feature = none ∧ s.std = 0) ∨
      (if |s.std| ≤ atol then 0 else (x - s.mean) / s.std) = x := by
  have hnormalize := s.normalize_eq x hcount
  have hfrozen : normalizeFrozen stats feature x = if |s.std| ≤ defaultAtol then some x
      else some (if |s.std| ≤ atol then 0 else (x - s.mean) / s.std) := by
    simp [normalizeFrozen, hs, isclose, hnormalize]
  have hpaths : normalizeTrained stats feature x =
        (if podFeatureType feature = none ∧ s.std = 0 then some x
        else some (if |s.std| ≤ atol then 0 else (x - s.mean) / s.std)) ∧
      normalizeBatch stats podFeatureTypes feature x = some (if |s.std| ≤ defaultAtol then x
        else if s.std = 0 then x else (x - s.mean) / s.std) := by
    unfold normalizeTrained normalizeBatch
    cases hp : podFeatureType feature with
    | none =>
      rw [hp] at hs htypes
      have hs : stats.lookup feature = some s := hs
      have htypes : feature ∉ podFeatureTypes := by simpa using htypes
      simp [hs, htypes, isclose, hnormalize]
    | some featureType =>
      rw [hp] at hs htypes
      have hs : stats.lookup featureType = some s := hs
      have htypes : featureType ∈ podFeatureTypes := by simpa using htypes
      simp [hs, htypes, isclose, hnormalize]
  rw [hfrozen, hpaths.1, hpaths.2]
  by_cases hstd : |s.std| ≤ defaultAtol
  · rw [if_pos hstd, if_pos hstd, or_iff_right (not_lt.mpr hstd)]
    split <;> simp_all
  · -- all three divide by the deviation
    have hatol : ¬ |s.std| ≤ atol := fun h => hstd (h.trans (by norm_num [atol, defaultAtol]))
    have hne : s.std ≠ 0 := by
      intro h
      rw [h, abs_zero, defaultAtol] at hstd
      exact hstd (by positivity)
    simp [hstd, hatol, hne, not_le.mp hstd]

/-- A pooled feature with a stored deviation of zero: training writes zero, and later the value is
left as it is. -/
theorem paths_disagree :
    let stats : FeatureStats ℚ := AList.singleton "load".toList ⟨2, 1, 0, 0, some 1, some 1⟩
    normalizeTrained stats "pod_0000-load".toList 3 = some 0 ∧
      normalizeFrozen stats "pod_0000-load".toList 3 = some 3 ∧
      normalizeBatch stats ["load".toList] "pod_0000-load".toList 3 = some 3 := by
  decide +kernel

/-- A request feature with a deviation of two. -/
theorem paths_agree_two :
    let stats : FeatureStats ℚ := AList.singleton "total_tokens".toList ⟨2, 3, 8, 2, some 1, some 5⟩
    normalizeTrained stats "total_tokens".toList 7 = normalizeFrozen stats "total_tokens".toList 7 ∧
      normalizeFrozen stats "total_tokens".toList 7 =
        normalizeBatch stats ["load".toList] "total_tokens".toList 7 :=
  (paths_agree_iff 7 (s := ⟨2, 3, 8, 2, some 1, some 5⟩) (by decide +kernel) (by decide)
    (by decide +kernel)).mpr (Or.inl (by norm_num [defaultAtol]))

end
end Lodestar.Agent
