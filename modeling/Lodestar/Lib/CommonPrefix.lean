import Mathlib

/-!
# The longest common prefix of two lists

`lcpLen l m` is the length of the longest common prefix of `l` and `m`, and
`le_lcpLen_iff` is its characterisation: `k ≤ lcpLen l m` exactly when `l` and
`m` both have `k` entries and agree on them.
-/

namespace Lodestar.Lib

open List
variable {α : Type*} [DecidableEq α]

/-- The length of the longest common prefix of two lists. -/
def lcpLen : List α → List α → ℕ
  | a :: l, b :: m => if a = b then lcpLen l m + 1 else 0
  | _, _ => 0

@[simp] lemma lcpLen_nil_left (m : List α) : lcpLen [] m = 0 := rfl

@[simp] lemma lcpLen_nil_right (l : List α) : lcpLen l [] = 0 := by
  cases l <;> rfl

lemma lcpLen_cons (a b : α) (l m : List α) :
    lcpLen (a :: l) (b :: m) = if a = b then lcpLen l m + 1 else 0 := rfl

lemma lcpLen_cons_self (a : α) (l m : List α) : lcpLen (a :: l) (a :: m) = lcpLen l m + 1 := by
  rw [lcpLen_cons, if_pos rfl]

lemma lcpLen_comm : ∀ l m : List α, lcpLen l m = lcpLen m l := by
  intro l
  induction l with
  | nil => intro m; rw [lcpLen_nil_left, lcpLen_nil_right]
  | cons a l ih =>
    intro m
    cases m with
    | nil => rw [lcpLen_nil_left, lcpLen_nil_right]
    | cons b m =>
      rw [lcpLen_cons, lcpLen_cons, ih m]
      by_cases h : a = b
      · rw [if_pos h, if_pos h.symm]
      · rw [if_neg h, if_neg (Ne.symm h)]

/-- **What the common prefix is**: `k` entries are common exactly when both
lists have `k` entries and agree on them. -/
lemma le_lcpLen_iff : ∀ (k : ℕ) (l m : List α),
    k ≤ lcpLen l m ↔ k ≤ l.length ∧ k ≤ m.length ∧ l.take k = m.take k := by
  intro k
  induction k with
  | zero => intro l m; simp
  | succ k ih =>
    intro l m
    cases l with
    | nil => simp
    | cons a l =>
      cases m with
      | nil => simp
      | cons b m =>
        rw [lcpLen_cons]
        by_cases h : a = b
        · subst h
          rw [if_pos rfl, Nat.succ_le_succ_iff, ih l m]
          simp
        · simp [h]

lemma lcpLen_le_left (l m : List α) : lcpLen l m ≤ l.length := ((le_lcpLen_iff _ l m).mp le_rfl).1

lemma take_lcpLen (l m : List α) : l.take (lcpLen l m) = m.take (lcpLen l m) :=
  ((le_lcpLen_iff _ l m).mp le_rfl).2.2

lemma lcpLen_append (f l m : List α) : lcpLen (f ++ l) (f ++ m) = f.length + lcpLen l m := by
  induction f with
  | nil => simp
  | cons a f ih =>
    rw [cons_append, cons_append, lcpLen_cons_self, ih, length_cons]
    omega

lemma lcpLen_eq_left_iff (l m : List α) : lcpLen l m = l.length ↔ l <+: m := by
  constructor
  · intro h
    have ht := take_lcpLen l m
    rw [h, take_length] at ht
    exact ht ▸ take_prefix _ _
  · rintro ⟨r, rfl⟩
    conv_lhs => rw [← append_nil l]
    rw [append_assoc, lcpLen_append, nil_append, lcpLen_nil_left, Nat.add_zero]

lemma lcpLen_append_of_lt : ∀ {l m : List α}, lcpLen l m < l.length →
    ∀ w, lcpLen (l ++ w) m = lcpLen l m := by
  intro l
  induction l with
  | nil => intro m h; simp at h
  | cons a l ih =>
    intro m h w
    cases m with
    | nil => simp
    | cons b m =>
      rw [lcpLen_cons] at h
      rw [cons_append, lcpLen_cons, lcpLen_cons]
      by_cases hab : a = b
      · rw [if_pos hab, length_cons] at h
        rw [if_pos hab, if_pos hab, ih (by omega) w]
      · rw [if_neg hab, if_neg hab]

/-- The common prefix, and what the two lists have behind it. -/
lemma exists_lcpLen_append : ∀ l m : List α, ∃ p v w, l = p ++ v ∧ m = p ++ w ∧
    lcpLen l m = p.length ∧ ∀ a v' b w', v = a :: v' → w = b :: w' → a ≠ b := by
  intro l
  induction l with
  | nil => exact fun m => ⟨[], [], m, rfl, rfl, rfl, by simp⟩
  | cons a l ih =>
    intro m
    cases m with
    | nil => exact ⟨[], a :: l, [], rfl, rfl, rfl, by simp⟩
    | cons b m =>
      by_cases hab : a = b
      · subst hab
        obtain ⟨p, v, w, hl, hm, hlen, hne⟩ := ih m
        exact ⟨a :: p, v, w, by rw [hl]; rfl, by rw [hm]; rfl, by
          rw [lcpLen_cons_self, hlen, length_cons], hne⟩
      · exact ⟨[], a :: l, b :: m, rfl, rfl, by rw [lcpLen_cons, if_neg hab]; rfl, by grind⟩

end Lodestar.Lib
