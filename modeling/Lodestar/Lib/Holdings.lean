import Lodestar.Lib.Census

/-!
# Levels and who holds a part of them

Every account has a level.  Holders, of which there may be infinitely many, hold an amount of one
account or nothing.  `Balanced` says that every level is what the holders have of it.  Putting an
amount in, taking it out and handing it on keep that (`Balanced.put`, `Balanced.take`,
`Balanced.transfer`), so a level is never negative, and never below what one holder has of it.

`Total` is the sum of a function with finitely many values other than 0.
-/

namespace Lodestar.Lib

open Function (update update_of_ne)
variable {ι κ α β : Type*}

/-- The values, of which finitely many are not 0, come to `n`. -/
def Total (w : ι → ℤ) (n : ℤ) : Prop := ∃ S : Finset ι, (∀ i, i ∉ S → w i = 0) ∧ ∑ i ∈ S, w i = n

namespace Total

variable {w u v : ι → ℤ} {n : ℤ}

lemma zero : Total (fun _ : ι => 0) 0 := ⟨∅, by simp, by simp⟩

lemma update [DecidableEq ι] (h : Total w n) (i : ι) (x : ℤ) :
    Total (update w i x) (n - w i + x) := by
  obtain ⟨S, hS, rfl⟩ := h
  refine ⟨insert i S, ?_, ?_⟩
  · intro j hj
    rw [Finset.mem_insert, not_or] at hj
    rw [update_of_ne hj.1]
    exact hS j hj.2
  · -- with `i` in the set, the sum differs by what changes at `i`
    have hsum : ∑ j ∈ insert i S, w j = ∑ j ∈ S, w j := by
      by_cases hi : i ∈ S
      · rw [Finset.insert_eq_of_mem hi]
      · rw [Finset.sum_insert hi, hS i hi, zero_add]
    rw [Finset.sum_update_of_mem (Finset.mem_insert_self i S), ← hsum,
      Finset.sum_eq_add_sum_sdiff_singleton_of_mem (Finset.mem_insert_self i S)]
    ring

lemma nonneg (h : Total w n) (hw : ∀ i, 0 ≤ w i) : 0 ≤ n := by
  obtain ⟨S, -, rfl⟩ := h
  exact Finset.sum_nonneg fun i _ => hw i

lemma le (h : Total w n) (hw : ∀ i, 0 ≤ w i) (i : ι) : w i ≤ n := by
  obtain ⟨S, hS, rfl⟩ := h
  by_cases hi : i ∈ S
  · exact Finset.single_le_sum (fun j _ => hw j) hi
  · rw [hS i hi]
    exact Finset.sum_nonneg fun j _ => hw j

lemma sum {w : α ⊕ β → ℤ} (h : Total w n) :
    ∃ a b, Total (fun i => w (.inl i)) a ∧ Total (fun j => w (.inr j)) b ∧ n = a + b := by
  obtain ⟨S, hS, rfl⟩ := h
  refine ⟨_, _, ⟨S.toLeft, ?_, rfl⟩, ⟨S.toRight, ?_, rfl⟩, (Finset.sum_sum_eq_sum_toLeft_add_sum_toRight S w)⟩
  · intro i hi
    exact hS _ (mt Finset.mem_toLeft.mpr hi)
  · intro j hj
    exact hS _ (mt Finset.mem_toRight.mpr hj)

lemma split (h : Total w n) (hw : ∀ i, w i = u i + v i) (hu : ∀ i, 0 ≤ u i) (hv : ∀ i, 0 ≤ v i) :
    ∃ a b, Total u a ∧ Total v b ∧ n = a + b := by
  obtain ⟨S, hS, rfl⟩ := h
  refine ⟨_, _, ⟨S, fun i hi => ?_, rfl⟩, ⟨S, fun i hi => ?_, rfl⟩, ?_⟩
  · have hzero := hS i hi
    have hsum := hw i
    have hui := hu i
    have hvi := hv i
    omega
  · have hzero := hS i hi
    have hsum := hw i
    have hui := hu i
    have hvi := hv i
    omega
  · rw [← Finset.sum_add_distrib]
    exact Finset.sum_congr rfl fun i _ => hw i

lemma census {P : ι → Prop} [DecidablePred P] (h : Total (fun i => if P i then 1 else 0) n) :
    Census P n := by
  obtain ⟨S, hS, rfl⟩ := h
  refine ⟨S.filter P, fun i => ?_, by simp⟩
  rw [Finset.mem_filter]
  refine ⟨And.right, fun hi => ⟨?_, hi⟩⟩
  by_contra hmem
  have hzero := hS i hmem
  simp [hi] at hzero

lemma support_subset {S : Finset ι} (hS : ∀ i, i ∉ S → w i = 0) : Function.support w ⊆ S := by
  intro i hi
  by_contra hmem
  exact hi (hS i hmem)

lemma finsum_eq (h : Total w n) : ∑ᶠ i, w i = n := by
  obtain ⟨S, hS, rfl⟩ := h
  exact finsum_eq_sum_of_support_subset w (support_subset hS)

lemma finite_support (h : Total w n) : (Function.support w).Finite := by
  obtain ⟨S, hS, -⟩ := h
  exact S.finite_toSet.subset (support_subset hS)

end Total

section

variable [DecidableEq κ]

def share (k : κ) : Option (κ × ℕ) → ℤ
  | none => 0
  | some (k', x) => if k' = k then x else 0

lemma share_nonneg (k : κ) (p : Option (κ × ℕ)) : 0 ≤ share k p := by
  rcases p with _ | ⟨k', x⟩
  · exact le_refl 0
  · rw [share]
    split
    · exact Int.natCast_nonneg x
    · exact le_refl 0

def Balanced (level : κ → ℤ) (holding : ι → Option (κ × ℕ)) : Prop :=
  ∀ k, Total (fun i => share k (holding i)) (level k)

namespace Balanced

variable {level level' : κ → ℤ} {holding : ι → Option (κ × ℕ)} {i j : ι} {k : κ} {x : ℕ}

lemma empty : Balanced (fun _ : κ => 0) (fun _ : ι => none) := fun _ => Total.zero

lemma nonneg (h : Balanced level holding) (k : κ) : 0 ≤ level k :=
  (h k).nonneg fun i => share_nonneg k (holding i)

attribute [local simp] share

lemma le (h : Balanced level holding) (hi : holding i = some (k, x)) : (x : ℤ) ≤ level k := by
  have hle := (h k).le (fun i => share_nonneg k (holding i)) i
  simpa [hi] using hle

variable [DecidableEq ι]

section

variable (h : Balanced level holding)
include h

lemma change (i : ι) (p : Option (κ × ℕ))
    (hlevel : ∀ k, level' k = level k - share k (holding i) + share k p) :
    Balanced level' (update holding i p) := by
  intro k
  have hupdate := (h k).update i (share k p)
  rw [hlevel]
  convert hupdate using 1
  funext j
  by_cases hj : j = i
  · subst hj
    simp
  · simp [update_of_ne hj]

lemma put (hi : holding i = none) (k : κ) (x : ℕ) :
    Balanced (update level k (level k + x)) (update holding i (some (k, x))) := by
  refine h.change i _ fun k' => ?_
  rw [hi]
  by_cases hk : k' = k
  · subst hk
    simp
  · simp [update_of_ne hk, Ne.symm hk]

lemma take (hi : holding i = some (k, x)) :
    Balanced (update level k (level k - x)) (update holding i none) := by
  refine h.change i _ fun k' => ?_
  rw [hi]
  by_cases hk : k' = k
  · subst hk
    simp
  · simp [update_of_ne hk, Ne.symm hk]

lemma drop (hi : holding i = some (k, 0)) : Balanced level (update holding i none) := by
  refine h.change i _ fun k' => ?_
  simp [hi]

lemma transfer {p : κ × ℕ} (hi : holding i = some p) (hj : holding j = none) :
    Balanced level (update (update holding i none) j (some p)) := by
  have hij : j ≠ i := by
    rintro rfl
    rw [hi] at hj
    simp at hj
  have hout : Balanced (fun k => level k - share k (some p)) (update holding i none) :=
    h.change i none fun k => by simp [hi]
  refine hout.change j (some p) fun k => ?_
  rw [update_of_ne hij, hj]
  simp

end
end Balanced
end

section

variable {γ π : Type*} [DecidableEq α] [DecidableEq β]

lemma elim_update_thread (f : α → γ) (g : π → γ) (pc : β → π) (t : β) (p : π) :
    Sum.elim f (fun t' => g (update pc t p t')) =
      update (Sum.elim f fun t' => g (pc t')) (.inr t) (g p) := by
  rw [Sum.update_elim_inr]
  exact congrArg (Sum.elim f) (Function.comp_update g pc t p)

end
end Lodestar.Lib
