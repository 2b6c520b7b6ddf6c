import Mathlib

/-!
# The cell of a workload

`get_signature` of `gpu_optimizer/load_monitor/helpers.py` finds the position of a centre among the
index values of each dimension, by a binary search inside their range and by a tolerance outside of
it.  Above the range the tolerance is added to the first index value, so it never applies.
-/

namespace Lodestar.GpuOptimizer

variable {K : Type*} [Field K] [LinearOrder K]

inductive SignatureError
  | emptyIndexes
  | belowMinimum
  | aboveMaximum

/-- `indexes[i]`, read inside the list only. -/
def tick (indexes : List K) (i : ℕ) : K := indexes.getD i 0

/-- The loop of the binary search over the index values `x`: the position that is found, or the two
ends that are left. -/
def bisect (x : ℕ → K) (value : K) : ℕ → ℕ → ℕ → ℕ ⊕ ℕ × ℕ
  | 0, left, right => .inr (left, right)
  | fuel + 1, left, right =>
    if left + 1 < right then
      let mid := (left + right) / 2
      if value < x mid then bisect x value fuel left mid
      else if x mid < value then bisect x value fuel mid right
      else .inl mid
    else .inr (left, right)

/-- The error suppressor, with its answer if there is one: the position, and that it was called.
Where it declines, the position stays the old one. -/
def suppress (suppressor : Option Bool) (error : SignatureError) (old position : ℕ) :
    Except SignatureError (ℕ × Bool) :=
  match suppressor with
  | none => .error error
  | some accepts => .ok (if accepts then position else old, true)

/-- One dimension of `get_signature`: the position, and whether the suppressor was called. -/
def signatureItem (tolerance : K) (suppressor : Option Bool) (old : ℕ) (indexes : List K)
    (value : K) : Except SignatureError (ℕ × Bool) :=
  let x := tick indexes
  let last := indexes.length - 1
  if indexes.length = 0 then .error .emptyIndexes
  else if indexes.length = 1 then .ok (0, false)
  else
    let distance := (x last - x 0) / last
    if value < x 0 then
      if x 0 + -distance * (1 - tolerance) ≤ value then .ok (0, false)
      else suppress suppressor .belowMinimum old 0
    else if x last < value then
      if value ≤ x 0 + distance * tolerance then .ok (last, false)
      else suppress suppressor .aboveMaximum old last
    else
      match bisect x value indexes.length 0 last with
      | .inl mid => .ok (mid, false)
      | .inr (left, right) =>
        .ok (if value < x left + (x right - x left) * tolerance then left else right, false)

/-- The position of the nearest of `n` index values, the higher one on ties. -/
def IsNearest (x : ℕ → K) (n : ℕ) (value : K) (i : ℕ) : Prop :=
  i < n ∧ ∀ j < n, |x i - value| ≤ |x j - value| ∧ (|x i - value| = |x j - value| → j ≤ i)

/-- At least two index values, strictly ascending and evenly spaced. -/
structure Even (x : ℕ → K) (n : ℕ) (step : K) : Prop where
  two_le : 2 ≤ n
  pos : 0 < step
  next : ∀ i, i + 1 < n → x (i + 1) = x i + step

variable {x : ℕ → K} {n : ℕ} {step value : K}

omit [Field K] in
lemma bisect_spec (fuel left right : ℕ) (hfuel : right ≤ left + fuel) (hlt : left < right)
    (hn : right < n) (hl : x left ≤ value) (hr : value ≤ x right) :
    (∃ mid < n, bisect x value fuel left right = .inl mid ∧ x mid = value) ∨
    ∃ l, l + 1 < n ∧ bisect x value fuel left right = .inr (l, l + 1) ∧
      x l ≤ value ∧ value ≤ x (l + 1) := by
  induction fuel generalizing left right with
  | zero => omega
  | succ fuel ih =>
    unfold bisect
    split
    · dsimp only
      split
      · rename_i hmid
        exact ih left _ (by omega) (by omega) (by omega) hl hmid.le
      · split
        · rename_i hmid
          exact ih _ right (by omega) (by omega) hn hmid.le hr
        · exact .inl ⟨(left + right) / 2, by omega, rfl, le_antisymm (by order) (by order)⟩
    · obtain rfl : right = left + 1 := by omega
      exact .inr ⟨left, hn, rfl, hl, hr⟩

namespace Even

variable [IsStrictOrderedRing K] (h : Even x n step)
include h

lemma eq_add {i : ℕ} (hi : i < n) : x i = x 0 + i * step := by
  induction i with
  | zero => simp
  | succ i ih =>
    rw [h.next i hi, ih (by omega)]
    push_cast
    ring

lemma lt {i j : ℕ} (hij : i < j) (hj : j < n) : x i < x j := by
  rw [h.eq_add hj, h.eq_add (hij.trans hj)]
  have hlt : (i : K) < j := by exact_mod_cast hij
  have := mul_lt_mul_of_pos_right hlt h.pos
  linarith

lemma le {i j : ℕ} (hij : i ≤ j) (hj : j < n) : x i ≤ x j := by
  rcases hij.lt_or_eq with hlt | rfl
  · exact (h.lt hlt hj).le
  · exact le_rfl

lemma le_of_eq {i j : ℕ} (hj : j < n) (heq : x i = x j) : j ≤ i := by
  by_contra hlt
  exact (h.lt (not_le.mp hlt) hj).ne heq

lemma distance_eq : (x (n - 1) - x 0) / ((n - 1 : ℕ) : K) = step := by
  have htwo := h.two_le
  have hne : ((n - 1 : ℕ) : K) ≠ 0 := by
    rw [Nat.cast_ne_zero]
    omega
  rw [h.eq_add (by omega)]
  field_simp
  ring

lemma isNearest_of_eq {i : ℕ} (hi : i < n) (heq : x i = value) : IsNearest x n value i := by
  refine ⟨hi, fun j hj => ⟨by simp [heq], fun htie => h.le_of_eq hj ?_⟩⟩
  rw [heq, sub_self, abs_zero, eq_comm, abs_eq_zero, sub_eq_zero] at htie
  rw [heq, htie]

/-- Between two neighbours the nearest is one of them. -/
lemma isNearest_between {l : ℕ} (hl : l + 1 < n) (hle : x l ≤ value) (hge : value ≤ x (l + 1)) :
    IsNearest x n value (if value < x l + (x (l + 1) - x l) * (1 / 2) then l else l + 1) := by
  have hbelow : ∀ j ≤ l, |x j - value| = value - x j := fun j hj => by
    rw [abs_of_nonpos (by linarith [h.le hj (by omega)])]
    ring
  have habove : ∀ j, l + 1 ≤ j → j < n → |x j - value| = x j - value := fun j hj hn =>
    abs_of_nonneg (by linarith [h.le hj hn])
  split
  · refine ⟨by omega, fun j hj => ?_⟩
    rw [hbelow l le_rfl]
    rcases le_or_gt j l with hjl | hjl
    · rw [hbelow j hjl]
      exact ⟨by linarith [h.le hjl (by omega)], fun _ => hjl⟩
    · rw [habove j hjl hj]
      have := h.le (Nat.succ_le_of_lt hjl) hj
      exact ⟨by linarith, fun htie => by linarith⟩
  · refine ⟨hl, fun j hj => ?_⟩
    rw [habove _ le_rfl hl]
    rcases le_or_gt j l with hjl | hjl
    · rw [hbelow j hjl]
      exact ⟨by linarith [h.le hjl (by omega)], fun _ => by omega⟩
    · rw [habove j hjl hj]
      exact ⟨by linarith [h.le (Nat.succ_le_of_lt hjl) hj], fun htie => h.le_of_eq hj (by linarith)⟩

end Even

/-- **The signature is the nearest position**, found without an error and without the suppressor,
exactly if the centre is not above the last index value. -/
theorem signatureItem_iff [IsStrictOrderedRing K] {indexes : List K}
    (h : Even (tick indexes) indexes.length step) (suppressor : Option Bool) (old : ℕ)
    (hlow : tick indexes 0 - step / 2 ≤ value)
    (hhigh : value ≤ tick indexes (indexes.length - 1) + step / 2) :
    (∃ i, signatureItem (1 / 2) suppressor old indexes value = .ok (i, false) ∧
      IsNearest (tick indexes) indexes.length value i) ↔
    value ≤ tick indexes (indexes.length - 1) := by
  have htwo := h.two_le
  have hends := h.lt (i := 0) (j := indexes.length - 1) (by omega) (by omega)
  unfold signatureItem
  simp only [h.distance_eq, if_neg (show indexes.length ≠ 0 by omega),
    if_neg (show indexes.length ≠ 1 by omega)]
  rcases lt_or_ge value (tick indexes 0) with hbelow | hbelow
  · rw [if_pos hbelow, if_pos (by linarith)]
    refine iff_of_true ⟨0, rfl, by omega, fun j hj => ?_⟩ (by order)
    have hj0 := h.le (Nat.zero_le j) hj
    rw [abs_of_nonneg (by linarith), abs_of_nonneg (by linarith)]
    exact ⟨by linarith, fun htie => h.le_of_eq hj (by linarith)⟩
  · rw [if_neg (not_lt.mpr hbelow)]
    rcases lt_or_ge (tick indexes (indexes.length - 1)) value with habove | habove
    · -- the last index value is at least a step above the first one
      have hstep := h.next 0 (by omega)
      have hfirst := h.le (i := 0 + 1) (j := indexes.length - 1) (by omega) (by omega)
      have hpos := h.pos
      rw [if_pos habove, if_neg (by linarith)]
      refine iff_of_false ?_ (not_le.mpr habove)
      rintro ⟨i, heq, -⟩
      cases suppressor <;> simp [suppress] at heq
    · rw [if_neg (not_lt.mpr habove)]
      refine iff_of_true ?_ habove
      rcases bisect_spec (n := indexes.length) indexes.length 0 _ (by omega) (by omega) (by omega)
        hbelow habove with ⟨mid, hmid, hfound, heq⟩ | ⟨l, hl, hleft, hle, hge⟩
      · rw [hfound]
        exact ⟨mid, rfl, h.isNearest_of_eq hmid heq⟩
      · rw [hleft]
        exact ⟨_, rfl, h.isNearest_between hl hle hge⟩

theorem signatureItem_iff_tie :
    ∃ i, signatureItem (1 / 2 : ℚ) none 0 [0, 1] (1 / 2) = .ok (i, false) ∧
    IsNearest (tick [0, 1]) 2 (1 / 2 : ℚ) i := by
  have heven : Even (tick [0, 1]) 2 (1 : ℚ) := by
    refine ⟨le_rfl, one_pos, fun i hi => ?_⟩
    obtain rfl : i = 0 := by omega
    norm_num [tick]
  exact (signatureItem_iff heven none 0 (by norm_num [tick]) (by norm_num [tick])).mpr
    (by norm_num [tick])

/-- A quarter of a step above the last index value is refused. -/
theorem above_maximum_refused :
    signatureItem (1 / 2 : ℚ) none 0 [0, 1] (5 / 4) = .error .aboveMaximum := by
  norm_num [signatureItem, tick, suppress]

end Lodestar.GpuOptimizer
