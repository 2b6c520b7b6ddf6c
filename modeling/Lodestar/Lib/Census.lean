import Mathlib

/-!
# How many threads are where

`Census P n` says that exactly `n` of the threads have the property `P`; there may be infinitely
many others.  `Census.move` says how the number changes when one thread moves.
-/

namespace Lodestar.Lib

variable {τ π : Type*} {P Q : τ → Prop} {n : ℤ}

/-- Exactly `n` threads have the property. -/
def Census (P : τ → Prop) (n : ℤ) : Prop :=
  ∃ S : Finset τ, (∀ t, t ∈ S ↔ P t) ∧ (S.card : ℤ) = n

namespace Census

lemma none : Census (fun _ : τ => False) 0 := ⟨∅, by simp, rfl⟩

section

variable (h : Census P n)
include h

lemma congr (hPQ : ∀ t, P t ↔ Q t) : Census Q n := by
  obtain ⟨S, hS, hn⟩ := h
  exact ⟨S, fun t => (hS t).trans (hPQ t), hn⟩

lemma nonneg : 0 ≤ n := by
  obtain ⟨S, -, rfl⟩ := h
  omega

lemma eq_zero_iff : n = 0 ↔ ∀ t, ¬ P t := by
  obtain ⟨S, hS, rfl⟩ := h
  rw [Int.natCast_eq_zero, Finset.card_eq_zero, Finset.eq_empty_iff_forall_notMem]
  exact forall_congr' fun t => not_congr (hS t)

lemma pos_of {t : τ} (ht : P t) : 0 < n := by
  have hn := h.nonneg
  have hne : n ≠ 0 := fun h0 => h.eq_zero_iff.mp h0 t ht
  omega

lemma exists_of_pos (hn : 0 < n) : ∃ t, P t := by
  by_contra hnone
  push Not at hnone
  have h0 := h.eq_zero_iff.mpr hnone
  omega

lemma unique (hn : n ≤ 1) {t u : τ} (ht : P t) (hu : P u) : t = u := by
  obtain ⟨S, hS, rfl⟩ := h
  have hcard : S.card ≤ 1 := by omega
  exact Finset.card_le_one.mp hcard t ((hS t).mpr ht) u ((hS u).mpr hu)

lemma ncard : Set.Finite {t | P t} ∧ (Set.ncard {t | P t} : ℤ) = n := by
  obtain ⟨S, hS, rfl⟩ := h
  have hset : {t | P t} = (S : Set τ) := Set.ext fun t => (hS t).symm
  rw [hset]
  exact ⟨S.finite_toSet, by rw [Set.ncard_coe_finset]⟩

end

/-- **One thread moves** from its place to `p`; the test may depend on the thread. -/
lemma move [DecidableEq τ] {pc : τ → π} {C : τ → π → Bool}
    (h : Census (fun u => C u (pc u) = true) n) (t : τ) (p : π) :
    Census (fun u => C u (Function.update pc t p u) = true)
      (n + (if C t p then 1 else 0) - if C t (pc t) then 1 else 0) := by
  obtain ⟨S, hS, rfl⟩ := h
  have hmem : t ∈ S ↔ C t (pc t) = true := hS t
  have hother : ∀ u, u ≠ t → (C u (Function.update pc t p u) = true ↔ u ∈ S) := by
    intro u hu
    rw [Function.update_of_ne hu]
    exact (hS u).symm
  by_cases hp : C t p = true
  · refine ⟨insert t S, fun u => ?_, ?_⟩
    · by_cases hu : u = t
      · subst hu
        simp [hp]
      · exact (Finset.mem_insert.trans (or_iff_right hu)).trans (hother u hu).symm
    · by_cases ht : t ∈ S
      · rw [Finset.insert_eq_of_mem ht, if_pos hp, if_pos (hmem.mp ht)]
        omega
      · rw [Finset.card_insert_of_notMem ht, if_pos hp, if_neg (mt hmem.mpr ht)]
        omega
  · refine ⟨S.erase t, fun u => ?_, ?_⟩
    · by_cases hu : u = t
      · subst hu
        simp [hp]
      · exact (Finset.mem_erase.trans (and_iff_right hu)).trans (hother u hu).symm
    · by_cases ht : t ∈ S
      · have hcard := Finset.card_erase_add_one ht
        rw [if_neg hp, if_pos (hmem.mp ht)]
        omega
      · rw [Finset.erase_eq_of_notMem ht, if_neg hp, if_neg (mt hmem.mpr ht)]
        omega

lemma update [DecidableEq τ] {pc : τ → π} {C : π → Bool}
    (h : Census (fun u => C (pc u) = true) n) (t : τ) (p : π) :
    Census (fun u => C (Function.update pc t p u) = true)
      (n + (if C p then 1 else 0) - if C (pc t) then 1 else 0) :=
  move h t p

end Census
end Lodestar.Lib
