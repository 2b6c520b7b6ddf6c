import Mathlib

/-!
# Numberings

A list without repetitions numbers its elements by their places.  Two such lists agree, in that
an element has the same number in both and different elements have different numbers, exactly if one
of them continues the other (`agree_iff_comparable`).  A family of lists in which this holds
for every two has a longest one that continues all others, so that a new list only has to be
compared with that one (`AllComparable.cons_iff`).
-/

namespace Lodestar.Lib

open List
variable {α : Type*} {a l l' : List α} {ls : List (List α)}

/-- The same elements have the same numbers, and different ones have different numbers. -/
def Agree (l l' : List α) : Prop :=
  ∀ (i j : ℕ) (x y : α), l[i]? = some x → l'[j]? = some y → (x = y ↔ i = j)

def Comparable (l l' : List α) : Prop := l <+: l' ∨ l' <+: l

instance [DecidableEq α] (l l' : List α) : Decidable (Comparable l l') :=
  inferInstanceAs (Decidable (_ ∨ _))

lemma Comparable.symm (h : Comparable l l') : Comparable l' l := Or.symm h

lemma Agree.symm (h : Agree l l') : Agree l' l := fun i j x y hx hy => by
  rw [eq_comm, h j i y x hy hx, eq_comm]

lemma agree_of_isPrefix (hl' : l'.Nodup) (h : l <+: l') : Agree l l' := by
  intro i j x y hx hy
  have hx' : l'[i]? = some x := by
    obtain ⟨t, rfl⟩ := h
    rw [List.getElem?_append_left (List.getElem?_eq_some_iff.mp hx).1, hx]
  obtain ⟨hi, rfl⟩ := List.getElem?_eq_some_iff.mp hx'
  obtain ⟨hj, rfl⟩ := List.getElem?_eq_some_iff.mp hy
  exact hl'.getElem_inj_iff

lemma prefix_of_agree (h : Agree l l') (hle : l.length ≤ l'.length) : l <+: l' := by
  rw [prefix_iff_getElem?]
  intro i hi
  have hi' : i < l'.length := by omega
  rw [getElem?_eq_getElem hi', Option.some.injEq, eq_comm,
    h i i _ _ (getElem?_eq_getElem hi) (getElem?_eq_getElem hi')]

lemma agree_iff_comparable (hl : l.Nodup) (hl' : l'.Nodup) : Agree l l' ↔ Comparable l l' := by
  constructor
  · intro h
    rcases le_total l.length l'.length with hle | hle
    · exact .inl (prefix_of_agree h hle)
    · exact .inr (prefix_of_agree h.symm hle)
  · rintro (h | h)
    · exact agree_of_isPrefix hl' h
    · exact (agree_of_isPrefix hl h).symm

/-! ### Families -/

def AllComparable (ls : List (List α)) : Prop := ∀ l ∈ ls, ∀ l' ∈ ls, Comparable l l'

def longer (l l' : List α) : List α := if l.length < l'.length then l' else l

def longest (ls : List (List α)) : List α := ls.foldr longer []

lemma longest_mem (ls : List (List α)) : longest ls = [] ∨ longest ls ∈ ls := by
  induction ls with
  | nil => exact .inl rfl
  | cons l ls ih =>
    rw [longest, foldr_cons, longer]
    split
    · exact ih.imp_right (mem_cons_of_mem l)
    · exact .inr mem_cons_self

lemma length_le_longest (h : l ∈ ls) : l.length ≤ (longest ls).length := by
  induction ls with
  | nil => simp at h
  | cons l' ls ih =>
    rw [longest, foldr_cons, longer]
    rcases mem_cons.mp h with rfl | h
    · split <;> omega
    · have := ih h
      rw [longest] at this
      split <;> omega

lemma AllComparable.prefix_longest (h : AllComparable ls) (hl : l ∈ ls) : l <+: longest ls := by
  have hle := length_le_longest hl
  rcases longest_mem ls with hnil | hmem
  · have : l = [] := by simpa [hnil] using hle
    simp [this]
  · rcases h l hl _ hmem with hp | hp
    · exact hp
    · rw [hp.eq_of_length (le_antisymm hp.length_le hle)]

lemma AllComparable.comparable_longest_iff (h : AllComparable ls) :
    Comparable a (longest ls) ↔ ∀ l ∈ ls, Comparable a l := by
  constructor
  · rintro (hp | hp) l hl
    · exact prefix_or_prefix_of_prefix hp (h.prefix_longest hl)
    · exact .inr ((h.prefix_longest hl).trans hp)
  · intro hall
    rcases longest_mem ls with hnil | hmem
    · exact .inr (hnil ▸ nil_prefix)
    · exact hall _ hmem

lemma allComparable_cons : AllComparable (a :: ls) ↔
    (∀ l ∈ ls, Comparable a l) ∧ AllComparable ls := by
  constructor
  · intro h
    exact ⟨fun l hl => h a mem_cons_self l (mem_cons_of_mem _ hl),
      fun l hl l' hl' => h l (mem_cons_of_mem _ hl) l' (mem_cons_of_mem _ hl')⟩
  · rintro ⟨ha, h⟩ l hl l' hl'
    rcases mem_cons.mp hl with rfl | hm <;> rcases mem_cons.mp hl' with rfl | hm'
    · exact .inl (prefix_refl _)
    · exact ha l' hm'
    · exact (ha l hm).symm
    · exact h l hm l' hm'

lemma allComparable_swap {b : List α} :
    AllComparable (a :: b :: ls) ↔ AllComparable (b :: a :: ls) := by
  unfold AllComparable
  simp only [mem_cons, or_left_comm]

lemma AllComparable.cons_iff (h : AllComparable ls) :
    AllComparable (a :: ls) ↔ Comparable a (longest ls) := by
  rw [allComparable_cons, h.comparable_longest_iff]
  exact and_iff_left h

lemma AllComparable.extend_iff (h : AllComparable (l :: ls)) (hp : l <+: a) :
    AllComparable (a :: ls) ↔ Comparable a (longest (l :: ls)) := by
  rw [allComparable_cons, h.comparable_longest_iff, forall_mem_cons]
  have hls := (allComparable_cons.mp h).2
  exact ⟨fun h' => ⟨.inr hp, h'.1⟩, fun h' => ⟨h'.2, hls⟩⟩

end Lodestar.Lib
