import Lodestar.Autoscaler.Reconciler

/-!
# The count of APA

What `ApaAutoscaler.Scale` returns, as a function of the observed value.
-/

namespace Lodestar.Autoscaler

section

/-- The settings that the algorithm is meant for. -/
structure ApaScalingContext.Plain (c : ApaScalingContext) : Prop where
  target : 0 < c.targetValue
  upRate : 1 ≤ c.maxScaleUpRate
  downRate : 1 ≤ c.maxScaleDownRate
  upTolerance : 0 ≤ c.upFluctuationTolerance
  downTolerance : 0 ≤ c.downFluctuationTolerance

variable {c : ApaScalingContext} (h : c.Plain) {n : ℤ} (hn : 1 ≤ n)
include h hn

lemma rates_bound : ⌊n / c.maxScaleDownRate⌋ ≤ n ∧ n ≤ ⌈c.maxScaleUpRate * n⌉ := by
  have hpos : (0 : ℚ) ≤ n := by exact_mod_cast zero_le_one.trans hn
  constructor
  · exact Int.floor_le_iff.mpr ((div_le_self hpos h.downRate).trans_lt (lt_add_one _))
  · exact_mod_cast (le_mul_of_one_le_left hpos h.upRate).trans (Int.le_ceil _)

/-- The three branches, with the counts that they return. -/
lemma computeTargetReplicas_cases (value : ℚ) :
    let use := value / c.targetValue
    let count := { c with currentUsePerPod := value }.computeTargetReplicas n
    (1 + c.upFluctuationTolerance < use ∧ n ≤ count ∧
      count = min ⌈n * use⌉ ⌈c.maxScaleUpRate * n⌉) ∨
    (use < 1 - c.downFluctuationTolerance ∧ count ≤ n ∧
      count = max ⌈n * use⌉ ⌊n / c.maxScaleDownRate⌋) ∨
    (1 - c.downFluctuationTolerance ≤ use ∧ use ≤ 1 + c.upFluctuationTolerance ∧ count = n) := by
  intro use count
  have hpos : (0 : ℚ) ≤ n := by exact_mod_cast zero_le_one.trans hn
  obtain ⟨hdown, hup⟩ := rates_bound h hn
  by_cases hover : 1 + c.upFluctuationTolerance < use
  · have hcount : count = min ⌈n * use⌉ ⌈c.maxScaleUpRate * n⌉ := by
      rw [min_comm, min_def_lt]
      exact if_pos hover
    have huse : (n : ℚ) ≤ n * use := le_mul_of_one_le_right hpos (by linarith [h.upTolerance])
    refine .inl ⟨hover, ?_, hcount⟩
    rw [hcount]
    exact le_min (by exact_mod_cast huse.trans (Int.le_ceil _)) hup
  by_cases hunder : use < 1 - c.downFluctuationTolerance
  · have hcount : count = max ⌈n * use⌉ ⌊n / c.maxScaleDownRate⌋ := by
      rw [max_def_lt]
      exact (if_neg hover).trans (if_pos hunder)
    have huse : (n : ℚ) * use ≤ n := mul_le_of_le_one_right hpos (by linarith [h.downTolerance])
    refine .inr (.inl ⟨hunder, ?_, hcount⟩)
    rw [hcount]
    exact max_le (Int.ceil_le.mpr huse) hdown
  · refine .inr (.inr ⟨not_lt.mp hunder, not_lt.mp hover, ?_⟩)
    exact ((if_neg hover).trans (if_neg hunder)).trans (Int.floor_intCast n)

lemma computeTargetReplicas_mono {value value' : ℚ} (hle : value ≤ value') :
    { c with currentUsePerPod := value }.computeTargetReplicas n ≤
      { c with currentUsePerPod := value' }.computeTargetReplicas n := by
  have hpos : (0 : ℚ) ≤ n := by exact_mod_cast zero_le_one.trans hn
  have hdiv := div_le_div_of_nonneg_right hle h.target.le
  have hceil := Int.ceil_le_ceil (mul_le_mul_of_nonneg_left hdiv hpos)
  rcases computeTargetReplicas_cases h hn value with
    ⟨hover, -, hcount⟩ | ⟨hunder, hcount, hmax⟩ | ⟨hlow, hhigh, hcount⟩ <;>
  rcases computeTargetReplicas_cases h hn value' with
    ⟨hover', hcount', hmin'⟩ | ⟨hunder', hcount', hmax'⟩ | ⟨hlow', hhigh', hcount'⟩
  · rw [hcount, hmin']
    exact min_le_min_right _ hceil
  · linarith [h.upTolerance, h.downTolerance]
  · linarith
  · exact hcount.trans hcount'
  · rw [hmax, hmax']
    exact max_le_max_right _ hceil
  · exact hcount.trans hcount'.ge
  · exact hcount.le.trans hcount'
  · linarith
  · exact (hcount.trans hcount'.symm).le

end

/-- **The count of APA** grows with the observed value, stays inside the tolerance, moves to the right
side outside of it, and by no more than the rates allow. -/
theorem ApaAutoscaler.scale_spec (a : ApaAutoscaler) (h : a.scalingContext.Plain) (n : ℤ) (hn : 1 ≤ n) :
    let c := a.scalingContext
    let count := fun value => (a.scale n (some value)).2.desiredPodCount
    Monotone count ∧ ∀ value : ℚ,
      let use := value / n / c.targetValue
      (1 - c.downFluctuationTolerance ≤ use → use ≤ 1 + c.upFluctuationTolerance → count value = n) ∧
        (1 + c.upFluctuationTolerance < use → n ≤ count value) ∧
        (use < 1 - c.downFluctuationTolerance → count value ≤ n) ∧
        ⌊n / c.maxScaleDownRate⌋ ≤ count value ∧ count value ≤ ⌈n * c.maxScaleUpRate⌉ := by
  intro c count
  have hcount : ∀ value, count value =
      { c with currentUsePerPod := value / n }.computeTargetReplicas n := by
    intro value
    simp only [count, ApaAutoscaler.scale]
    rw [if_neg (by omega)]
  have hpos : (0 : ℚ) ≤ n := by exact_mod_cast zero_le_one.trans hn
  obtain ⟨hdown, hup⟩ := rates_bound h hn
  refine ⟨fun value value' hle => ?_, fun value => ?_⟩
  · rw [hcount, hcount]
    exact computeTargetReplicas_mono h hn (div_le_div_of_nonneg_right hle hpos)
  · rw [hcount, mul_comm (n : ℚ)]
    dsimp only
    rcases computeTargetReplicas_cases h hn (value / n) with
      ⟨hover, hle, hmin⟩ | ⟨hunder, hle, hmax⟩ | ⟨hlow, hhigh, heq⟩
    · exact ⟨fun _ hhigh => absurd hover hhigh.not_gt, fun _ => hle,
        fun hunder => by linarith [h.upTolerance, h.downTolerance],
        hdown.trans hle, hmin.trans_le (min_le_right _ _)⟩
    · exact ⟨fun hlow => absurd hunder hlow.not_gt,
        fun hover => by linarith [h.upTolerance, h.downTolerance], fun _ => hle,
        (le_max_right _ _).trans hmax.ge, hle.trans hup⟩
    · exact ⟨fun _ _ => heq, fun _ => heq.ge, fun _ => heq.le, hdown.trans heq.ge, heq.le.trans hup⟩

theorem ApaAutoscaler.scale_spec_default :
    ((⟨{}⟩ : ApaAutoscaler).scale 2 (some 60)).2.desiredPodCount = 2 :=
  ((ApaAutoscaler.scale_spec ⟨{}⟩ ⟨by decide +kernel, by decide +kernel, by decide +kernel,
    by decide +kernel, by decide +kernel⟩ 2 (by decide)).2 60).1 (by decide +kernel) (by decide +kernel)

end Lodestar.Autoscaler
