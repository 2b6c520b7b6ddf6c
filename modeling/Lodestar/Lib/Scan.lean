import Mathlib.Data.List.Basic
import Mathlib.Data.Sum.Basic
import Mathlib.Tactic.Common

/-!
# Scanning a list for matches

A scan goes through a list once, from the left, and looks for a match at each place that no earlier
match covers, as `findall` and `sub` of a regular expression do.  What a matcher says at a place may
depend on the element before it.  The result is the list of the matches, with the elements between
them.
-/

namespace Lodestar.Lib

open List
variable {α β : Type*}

/-- A match at the start of a list: what is found, and the number of elements that it covers besides
the first. -/
abbrev Matcher (α β : Type*) := Option α → List α → Option (β × ℕ)

/-- The scan of a list; `skip` elements belong to the last match. -/
def scan (m : Matcher α β) : ℕ → Option α → List α → List (α ⊕ β)
  | _, _, [] => []
  | skip + 1, _, c :: l => scan m skip (some c) l
  | 0, prev, c :: l =>
    match m prev (c :: l) with
    | none => .inl c :: scan m 0 (some c) l
    | some (found, more) => .inr found :: scan m more (some c) l

def findAll (m : Matcher α β) (l : List α) : List β := (scan m 0 none l).filterMap Sum.getRight?

variable {m : Matcher α β} {l : List α} {found : β}
variable {prev : Option α} {c : α}

lemma scan_cons_none (h : m prev (c :: l) = none) :
    scan m 0 prev (c :: l) = .inl c :: scan m 0 (some c) l := by
  rw [scan, h]

lemma scan_cons_some {more : ℕ} (h : m prev (c :: l) = some (found, more)) :
    scan m 0 prev (c :: l) = .inr found :: scan m more (some c) l := by
  rw [scan, h]

@[simp] lemma scan_skip (skip : ℕ) (prev : Option α) (c : α) :
    scan m (skip + 1) prev (c :: l) = scan m skip (some c) l := by
  rw [scan]

@[simp] lemma scan_nil (skip : ℕ) (prev : Option α) : scan m skip prev [] = [] := by
  cases skip <;> rfl

variable {skip : ℕ}

lemma scan_of_length_le (h : l.length ≤ skip) (prev : Option α) : scan m skip prev l = [] := by
  induction l generalizing skip prev with
  | nil => exact scan_nil skip prev
  | cons c l ih =>
    obtain ⟨skip, rfl⟩ : ∃ k, skip = k + 1 := Nat.exists_eq_add_one.mpr (by simp at h; omega)
    exact ih (by simpa using h) _

lemma scan_congr (h : ∀ prev prev' t, m prev t = m prev' t) (skip : ℕ) (prev prev' : Option α) :
    scan m skip prev l = scan m skip prev' l := by
  cases l with
  | nil => simp
  | cons c l =>
    cases skip with
    | zero => rw [scan, scan, h prev prev']
    | succ skip => rw [scan_skip, scan_skip]

lemma scan_eq_map (h : ∀ found, .inr found ∉ scan m 0 prev l) : scan m 0 prev l = l.map .inl := by
  induction l generalizing prev with
  | nil => rfl
  | cons c l ih =>
    cases hm : m prev (c :: l) with
    | none =>
      rw [scan_cons_none hm] at h ⊢
      rw [map_cons, ih fun found hfound => h found (mem_cons_of_mem _ hfound)]
    | some found =>
      rw [scan_cons_some hm] at h
      exact absurd mem_cons_self (h found.1)

/-- The matcher does not look beyond the element, and covers no more than there is. -/
structure Barrier (m : Matcher α β) (c : α) : Prop where
  stops : ∀ prev a b, m prev (a ++ c :: b) = m prev a
  covers : ∀ prev a found more, m prev a = some (found, more) → more < a.length

/-- **An element that no match covers** splits a scan. -/
lemma scan_append_cons (h : Barrier m c) {a : List α} (hskip : skip ≤ a.length) (prev : Option α)
    (b : List α) :
    scan m skip prev (a ++ c :: b) = scan m skip prev a ++ .inl c :: scan m 0 (some c) b := by
  induction a generalizing skip prev with
  | nil =>
    obtain rfl : skip = 0 := Nat.le_zero.mp hskip
    have hnone : m prev (c :: b) = none := by
      cases hm : m prev [] with
      | none => exact (h.stops prev [] b).trans hm
      | some found => exact absurd (h.covers prev [] found.1 found.2 hm) (by simp)
    rw [nil_append, scan_cons_none hnone, scan_nil, nil_append]
  | cons d a ih =>
    cases skip with
    | succ skip =>
      exact ih (by simpa using hskip) _
    | zero =>
      have hstops := h.stops prev (d :: a) b
      rw [cons_append] at hstops ⊢
      cases hm : m prev (d :: a) with
      | none =>
        rw [scan_cons_none (hstops.trans hm), scan_cons_none hm, ih (Nat.zero_le _), cons_append]
      | some found =>
        have hmore := h.covers prev (d :: a) found.1 found.2 hm
        rw [scan_cons_some (hstops.trans hm), scan_cons_some hm, ih (by simp at hmore; omega),
          cons_append]

/-- **A match is found** if no match that starts before it covers its first element. -/
lemma mem_scan_of_match {pre t : List α} {more : ℕ} (ht : t ≠ [])
    (h : ∀ prev, m prev t = some (found, more))
    (hbefore : ∀ prev a x k, a ≠ [] → a <:+ pre → m prev (a ++ t) = some (x, k) → k < a.length)
    (hskip : skip ≤ pre.length) (prev : Option α) :
    .inr found ∈ scan m skip prev (pre ++ t) := by
  induction pre generalizing skip prev with
  | nil =>
    obtain rfl : skip = 0 := Nat.le_zero.mp hskip
    obtain ⟨c, l, rfl⟩ := exists_cons_of_ne_nil ht
    rw [nil_append, scan_cons_some (h prev)]
    exact mem_cons_self
  | cons d pre ih =>
    have hlater : ∀ prev a x k, a ≠ [] → a <:+ pre → m prev (a ++ t) = some (x, k) → k < a.length :=
      fun prev a x k hne ha => hbefore prev a x k hne (ha.trans (suffix_cons d pre))
    rw [cons_append]
    cases skip with
    | succ skip =>
      exact ih hlater (by simpa using hskip) _
    | zero =>
      cases hm : m prev (d :: (pre ++ t)) with
      | none =>
        rw [scan_cons_none hm]
        exact mem_cons_of_mem _ (ih hlater (Nat.zero_le _) _)
      | some found' =>
        have hmore := hbefore prev (d :: pre) found'.1 found'.2 (by simp) suffix_rfl hm
        rw [scan_cons_some hm]
        exact mem_cons_of_mem _ (ih hlater (by simp at hmore; omega) _)

/-- **What a scan finds** is a match at one of the places. -/
lemma exists_match_of_mem_scan (h : .inr found ∈ scan m skip prev l) :
    ∃ prev t more, t <:+ l ∧ m prev t = some (found, more) := by
  induction l generalizing skip prev with
  | nil => simp at h
  | cons c l ih =>
    have hlater : ∀ {skip prev}, .inr found ∈ scan m skip prev l →
        ∃ prev t more, t <:+ c :: l ∧ m prev t = some (found, more) := by
      intro skip prev h
      obtain ⟨prev, t, more, ht, hm⟩ := ih h
      exact ⟨prev, t, more, ht.trans (suffix_cons c l), hm⟩
    cases skip with
    | succ skip => exact hlater (by rwa [scan_skip] at h)
    | zero =>
      cases hm : m prev (c :: l) with
      | none =>
        rw [scan_cons_none hm] at h
        exact hlater ((mem_cons.mp h).resolve_left (by simp))
      | some found' =>
        rw [scan_cons_some hm] at h
        rcases mem_cons.mp h with heq | h
        · obtain rfl := Sum.inr.inj heq
          exact ⟨prev, _, _, suffix_rfl, hm⟩
        · exact hlater h

lemma mem_of_inl_mem_scan (h : .inl c ∈ scan m skip prev l) : c ∈ l := by
  induction l generalizing skip prev with
  | nil => simp at h
  | cons d l ih =>
    cases skip with
    | succ skip => exact mem_cons_of_mem _ (ih (by rwa [scan_skip] at h))
    | zero =>
      cases hm : m prev (d :: l) with
      | none =>
        rw [scan_cons_none hm] at h
        rcases mem_cons.mp h with heq | h
        · exact mem_cons.mpr (.inl (Sum.inl.inj heq))
        · exact mem_cons_of_mem _ (ih h)
      | some found =>
        rw [scan_cons_some hm] at h
        exact mem_cons_of_mem _ (ih ((mem_cons.mp h).resolve_left (by simp)))

lemma mem_findAll : found ∈ findAll m l ↔ .inr found ∈ scan m 0 none l := by
  rw [findAll, mem_filterMap]
  constructor
  · rintro ⟨x, hx, hfound⟩
    cases x with
    | inl c => simp at hfound
    | inr found' =>
      obtain rfl : found' = found := by simpa using hfound
      exact hx
  · exact fun h => ⟨_, h, rfl⟩

end Lodestar.Lib
