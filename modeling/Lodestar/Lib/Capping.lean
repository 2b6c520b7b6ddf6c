import Mathlib

/-!
# Levels under caps

Every item of a list has a level, and caps cut the levels down: a cap names the key of an item and
a bound, and the item keeps what the bound leaves of its level.  A cap that takes at most `loss`
from every item with its key takes at most `loss` from the sum of the levels, since the keys of the
items are distinct (`sum_le_sum_capped_add`).
-/

namespace Lodestar.Lib

open List
variable {α ι : Type*} [DecidableEq ι]

def cut (key : α → ι) (cap : ι × ℤ) (level : α → ℤ) (a : α) : ℤ :=
  if key a = cap.1 then min (level a) cap.2 else level a

/-- What caps leave of the levels, one after the other. -/
def capped (key : α → ι) : List (ι × ℤ) → (α → ℤ) → α → ℤ
  | [], level => level
  | cap :: caps, level => capped key caps (cut key cap level)

variable {key : α → ι} {cap : ι × ℤ} {level : α → ℤ} {l : List α} {d : ℤ}

lemma cut_le (a : α) : cut key cap level a ≤ level a := by
  unfold cut
  split <;> omega

lemma cut_of_ne {a : α} (h : key a ≠ cap.1) : cut key cap level a = level a := if_neg h

lemma le_cut_add {a : α} (hd : 0 ≤ d) (h : key a = cap.1 → level a ≤ cap.2 + d) :
    level a ≤ cut key cap level a + d := by
  unfold cut
  split
  · have := h ‹_›
    omega
  · omega

lemma sum_cut_of_notMem (h : cap.1 ∉ l.map key) :
    (l.map (cut key cap level)).sum = (l.map level).sum := by
  congr 1
  refine map_congr_left fun a ha => cut_of_ne fun heq => h ?_
  exact heq ▸ mem_map_of_mem ha

lemma sum_le_sum_cut_add (hkeys : (l.map key).Nodup) (hd : 0 ≤ d)
    (h : ∀ a ∈ l, key a = cap.1 → level a ≤ cap.2 + d) :
    (l.map level).sum ≤ (l.map (cut key cap level)).sum + d := by
  induction l with
  | nil => simpa using hd
  | cons a l ih =>
    obtain ⟨ha, hkeys'⟩ := nodup_cons.mp hkeys
    rw [map_cons, map_cons, sum_cons, sum_cons]
    by_cases hkey : key a = cap.1
    · -- The cap is that of the first item: the others keep their levels.
      have hrest : (l.map (cut key cap level)).sum = (l.map level).sum :=
        sum_cut_of_notMem (hkey ▸ ha)
      have hfirst := le_cut_add hd (h a mem_cons_self)
      omega
    · have hfirst : cut key cap level a = level a := cut_of_ne hkey
      have hrest := ih hkeys' fun b hb => h b (mem_cons_of_mem a hb)
      omega

lemma sum_le_sum_capped_add {γ : Type*} {ws : List γ} {cap : γ → ι × ℤ} {loss : γ → ℤ}
    (hkeys : (l.map key).Nodup) (hloss : ∀ w ∈ ws, 0 ≤ loss w)
    (h : ∀ w ∈ ws, ∀ a ∈ l, key a = (cap w).1 → level a ≤ (cap w).2 + loss w) :
    (l.map level).sum ≤ (l.map (capped key (ws.map cap) level)).sum + (ws.map loss).sum := by
  induction ws generalizing level with
  | nil => simp [capped]
  | cons w ws ih =>
    have hcut := sum_le_sum_cut_add hkeys (hloss w mem_cons_self) (h w mem_cons_self)
    have hrest : (l.map (cut key (cap w) level)).sum ≤
        (l.map (capped key (ws.map cap) (cut key (cap w) level))).sum + (ws.map loss).sum := by
      refine ih (fun v hv => hloss v (mem_cons_of_mem w hv)) fun v hv a ha hkey => ?_
      exact (cut_le a).trans (h v (mem_cons_of_mem w hv) a ha hkey)
    rw [map_cons, map_cons, sum_cons]
    show _ ≤ (l.map (capped key (ws.map cap) (cut key (cap w) level))).sum + _
    omega

end Lodestar.Lib
