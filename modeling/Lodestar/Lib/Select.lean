import Mathlib

/-!
# Loops that keep the best value so far

A loop over candidates that remembers the best value seen and the candidate it came from.
A candidate without a value is skipped, and `better v best` says that `v` replaces `best`;
nothing is assumed about it, so comparisons of floating-point numbers fit.
-/

namespace Lodestar.Lib

open List

section

variable {α κ : Type*} (better : κ → κ → Bool) (value : α → Option κ)

def keepBest (best : κ × Option α) (x : α) : κ × Option α :=
  match value x with
  | none => best
  | some v => if better v best.1 then (v, some x) else best

def selectBest (start : κ) (xs : List α) : Option α :=
  (xs.foldl (keepBest better value) (start, none)).2

variable {better value}

lemma foldl_keepBest_mem {best : κ × Option α} {xs : List α} {y : α}
    (h : (xs.foldl (keepBest better value) best).2 = some y) : best.2 = some y ∨ y ∈ xs := by
  induction xs generalizing best with
  | nil => exact .inl h
  | cons x xs ih =>
    rcases ih h with hbest | hmem
    · unfold keepBest at hbest
      split at hbest
      · exact .inl hbest
      · split at hbest
        · exact .inr (Option.some.inj hbest ▸ mem_cons_self)
        · exact .inl hbest
    · exact .inr (mem_cons_of_mem _ hmem)

lemma selectBest_mem {start : κ} {xs : List α} {y : α}
    (h : selectBest better value start xs = some y) : y ∈ xs := by
  rcases foldl_keepBest_mem h with hnone | hmem
  · simp at hnone
  · exact hmem

lemma foldl_keepBest_cases (best : κ × Option α) (xs : List α) :
    xs.foldl (keepBest better value) best = best ∨
      ∃ y ∈ xs, ∃ v, value y = some v ∧ xs.foldl (keepBest better value) best = (v, some y) := by
  induction xs generalizing best with
  | nil => exact .inl rfl
  | cons x xs ih =>
    rw [foldl_cons]
    rcases ih (keepBest better value best x) with hsame | ⟨y, hy, v, hv, hfold⟩
    · rw [hsame]
      unfold keepBest
      split
      · exact .inl rfl
      · rename_i v hv
        split
        · exact .inr ⟨x, mem_cons_self, v, hv, rfl⟩
        · exact .inl rfl
    · exact .inr ⟨y, mem_cons_of_mem _ hy, v, hv, hfold⟩

section

-- `r v b`: the value `v` is at least as good as `b`
variable {r : κ → κ → Prop} (hrefl : ∀ b, r b b) (htrans : ∀ a b c, r a b → r b c → r a c)
include hrefl htrans

lemma foldl_keepBest_le {xs : List α}
    (hbetter : ∀ x ∈ xs, ∀ v, value x = some v → ∀ b, better v b = true → r v b)
    (hworse : ∀ x ∈ xs, ∀ v, value x = some v → ∀ b, better v b = false → r b v)
    (best : κ × Option α) :
    r (xs.foldl (keepBest better value) best).1 best.1 ∧
      ∀ x ∈ xs, ∀ v, value x = some v → r (xs.foldl (keepBest better value) best).1 v := by
  induction xs generalizing best with
  | nil => exact ⟨hrefl _, by simp⟩
  | cons x xs ih =>
    obtain ⟨hbest, hall⟩ := ih (fun y hy => hbetter y (mem_cons_of_mem _ hy))
      (fun y hy => hworse y (mem_cons_of_mem _ hy)) (keepBest better value best x)
    -- one round is at least as good as what it had and as the candidate
    have hround : r (keepBest better value best x).1 best.1 ∧
        ∀ v, value x = some v → r (keepBest better value best x).1 v := by
      unfold keepBest
      cases hv : value x with
      | none => exact ⟨hrefl _, by simp⟩
      | some v =>
        cases hb : better v best.1 with
        | true =>
          refine ⟨by simpa [hb] using hbetter x mem_cons_self v hv best.1 hb, ?_⟩
          rintro u ⟨⟩
          simpa [hb] using hrefl v
        | false =>
          refine ⟨by simpa [hb] using hrefl best.1, ?_⟩
          rintro u ⟨⟩
          simpa [hb] using hworse x mem_cons_self v hv best.1 hb
    refine ⟨htrans _ _ _ hbest hround.1, fun y hy v hv => ?_⟩
    rcases mem_cons.mp hy with rfl | hy
    · exact htrans _ _ _ hbest (hround.2 v hv)
    · exact hall y hy v hv

lemma selectBest_best {start : κ} {xs : List α} {y : α}
    (h : selectBest better value start xs = some y)
    (hbetter : ∀ x ∈ xs, ∀ v, value x = some v → ∀ b, better v b = true → r v b)
    (hworse : ∀ x ∈ xs, ∀ v, value x = some v → ∀ b, better v b = false → r b v) :
    ∃ v, value y = some v ∧ ∀ x ∈ xs, ∀ u, value x = some u → r v u := by
  have hall := (foldl_keepBest_le hrefl htrans hbetter hworse (start, none)).2
  unfold selectBest at h
  rcases foldl_keepBest_cases (start, none) xs with hsame | ⟨y', -, v, hv, hfold⟩
  · rw [hsame] at h
    simp at h
  · rw [hfold] at h hall
    obtain rfl := Option.some.inj h
    exact ⟨v, hv, hall⟩

end

lemma foldl_keepBest_lt_cases [LinearOrder κ] (best : κ × Option α) (xs : List α) :
    (xs.foldl (keepBest (fun v b => decide (v < b)) value) best = best ∧
      ∀ x ∈ xs, ∀ v, value x = some v → best.1 ≤ v) ∨
    ∃ y ∈ xs, ∃ v, value y = some v ∧ v < best.1 ∧
      xs.foldl (keepBest (fun v b => decide (v < b)) value) best = (v, some y) := by
  induction xs generalizing best with
  | nil => exact .inl ⟨rfl, by simp⟩
  | cons x xs ih =>
    rw [foldl_cons]
    by_cases hlt : ∃ u, value x = some u ∧ u < best.1
    · obtain ⟨u, hx, hlt⟩ := hlt
      have hround : keepBest (fun v b => decide (v < b)) value best x = (u, some x) := by
        simp [keepBest, hx, hlt]
      rw [hround]
      refine .inr ?_
      rcases ih (u, some x) with ⟨hsame, -⟩ | ⟨y, hy, v, hv, hvu, hfold⟩
      · exact ⟨x, mem_cons_self, u, hx, hlt, hsame⟩
      · exact ⟨y, mem_cons_of_mem _ hy, v, hv, hvu.trans hlt, hfold⟩
    · push Not at hlt
      have hround : keepBest (fun v b => decide (v < b)) value best x = best := by
        cases hx : value x with
        | none => simp [keepBest, hx]
        | some u => simp [keepBest, hx, hlt u hx]
      rw [hround]
      rcases ih best with ⟨hsame, hall⟩ | ⟨y, hy, hrest⟩
      · exact .inl ⟨hsame, forall_mem_cons.mpr ⟨hlt, hall⟩⟩
      · exact .inr ⟨y, mem_cons_of_mem _ hy, hrest⟩

end
end Lodestar.Lib
