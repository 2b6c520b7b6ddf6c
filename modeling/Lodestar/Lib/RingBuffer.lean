import Mathlib

/-!
# Ring buffers

A queue of bounded length in a list of fixed size: `length` entries from the place `first` on,
around the end of the list.

* `popWhile` : the first entries go as long as they have a property.
-/

namespace Lodestar.Lib

open List

/-- A ring buffer; what is not in use has arbitrary values. -/
structure RingBuffer (α : Type*) where
  cells : List α
  first : ℕ
  length : ℕ
  length_le : length ≤ cells.length
  first_lt : 0 < cells.length → first < cells.length

namespace RingBuffer

variable {α : Type*}

/-- An empty ring buffer with room for `n` entries. -/
def empty [Inhabited α] (n : ℕ) : RingBuffer α where
  cells := List.replicate n default
  first := 0
  length := 0
  length_le := Nat.zero_le _
  first_lt := id

def size (r : RingBuffer α) : ℕ := r.cells.length

def index (r : RingBuffer α) (i : ℕ) : ℕ := i % r.size

def get [Inhabited α] (r : RingBuffer α) (i : ℕ) : α := r.cells.getD (r.index (r.first + i)) default

def toList [Inhabited α] (r : RingBuffer α) : List α := (List.range r.length).map r.get

def pop (r : RingBuffer α) : RingBuffer α where
  cells := r.cells
  first := r.index (r.first + 1)
  length := r.length - 1
  length_le := (Nat.sub_le _ _).trans r.length_le
  first_lt := fun h => Nat.mod_lt _ h

/-- An entry is put behind the last one, where there is room. -/
def push (r : RingBuffer α) (a : α) : RingBuffer α :=
  if h : r.length < r.cells.length then
    { cells := r.cells.set (r.index (r.first + r.length)) a
      first := r.first
      length := r.length + 1
      length_le := by rw [List.length_set]; exact h
      first_lt := by rw [List.length_set]; exact r.first_lt }
  else r

/-- The first entries are taken out as long as they have the property; `n` bounds their number. -/
def popWhileFor [Inhabited α] (p : α → Bool) : ℕ → RingBuffer α → RingBuffer α
  | 0, r => r
  | n + 1, r => if 0 < r.length ∧ p (r.cells.getD r.first default) then popWhileFor p n r.pop else r

/-- The first entries are taken out as long as they have the property. -/
def popWhile [Inhabited α] (p : α → Bool) (r : RingBuffer α) : RingBuffer α := popWhileFor p r.length r

variable {r : RingBuffer α}

@[simp] lemma size_pop : r.pop.size = r.size := rfl

@[simp] lemma size_push (a : α) : (r.push a).size = r.size := by
  unfold push
  split
  · simp [size]
  · rfl

lemma index_ne {i j : ℕ} (hi : i < r.size) (hj : j < r.size) (hne : i ≠ j) :
    r.index (r.first + i) ≠ r.index (r.first + j) := by
  intro h
  have hmod : i % r.size = j % r.size := Nat.ModEq.add_left_cancel' r.first h
  rw [Nat.mod_eq_of_lt hi, Nat.mod_eq_of_lt hj] at hmod
  exact hne hmod

variable [Inhabited α]

@[simp] lemma length_toList : r.toList.length = r.length := by
  simp [toList]

lemma get_pop (i : ℕ) : r.pop.get i = r.get (i + 1) := by
  have hindex : ((r.first + 1) % r.size + i) % r.size = (r.first + (i + 1)) % r.size := by
    rw [Nat.mod_add_mod]
    congr 1
    omega
  show r.cells.getD (((r.first + 1) % r.size + i) % r.size) default = _
  rw [hindex]
  rfl

lemma toList_pop : r.pop.toList = r.toList.tail := by
  have hlen : r.pop.length = r.length - 1 := rfl
  rw [toList, hlen, toList]
  cases hn : r.length with
  | zero => rfl
  | succ n =>
    rw [range_succ_eq_map, map_cons, tail_cons, map_map]
    exact map_congr_left fun i _ => get_pop i

lemma toList_push (a : α) :
    (r.push a).toList = if r.length < r.size then r.toList ++ [a] else r.toList := by
  unfold push
  by_cases h : r.length < r.cells.length
  · have hplace : r.index (r.first + r.length) < r.cells.length := Nat.mod_lt _ (Nat.zero_lt_of_lt h)
    rw [dif_pos h, if_pos (show r.length < r.size from h), toList, range_succ, map_append, map_singleton]
    refine congrArg₂ (· ++ ·) (map_congr_left fun i hi => ?_) ?_
    · have hi : i < r.length := mem_range.mp hi
      have hne : r.index (r.first + i) ≠ r.index (r.first + r.length) := index_ne (hi.trans h) h hi.ne
      simp only [get, index, size, length_set] at hne ⊢
      rw [getD_eq_getElem?_getD, getElem?_set_ne hne.symm, ← getD_eq_getElem?_getD]
    · simp only [get, index, size, length_set] at hplace ⊢
      rw [getD_eq_getElem?_getD, getElem?_set_self hplace]
      rfl
  · rw [dif_neg h, if_neg (show ¬ r.length < r.size from h)]

lemma toList_eq_cons (h : 0 < r.length) :
    r.toList = r.cells.getD r.first default :: r.toList.tail := by
  have hfirst : r.first < r.cells.length := r.first_lt (h.trans_le r.length_le)
  have hget : r.get 0 = r.cells.getD r.first default := by
    rw [get, index, Nat.add_zero, Nat.mod_eq_of_lt (show r.first < r.size from hfirst)]
  obtain ⟨n, hn⟩ := Nat.exists_eq_succ_of_ne_zero h.ne'
  rw [toList, hn, range_succ_eq_map, map_cons, tail_cons, hget]

section

variable (p : α → Bool)

lemma toList_popWhileFor {n : ℕ} (h : r.length ≤ n) :
    (r.popWhileFor p n).toList = r.toList.dropWhile p := by
  induction n generalizing r with
  | zero =>
    have hnil : r.toList = [] := eq_nil_of_length_eq_zero (by rw [length_toList]; omega)
    rw [popWhileFor, hnil]
    rfl
  | succ n ih =>
    rw [popWhileFor]
    by_cases hpos : 0 < r.length
    · rw [toList_eq_cons hpos]
      by_cases hp : p (r.cells.getD r.first default) = true
      · rw [if_pos ⟨hpos, hp⟩, dropWhile_cons_of_pos hp, ← toList_pop]
        exact ih (by show r.length - 1 ≤ n; omega)
      · rw [if_neg (fun h => hp h.2), dropWhile_cons_of_neg hp, ← toList_eq_cons hpos]
    · have hnil : r.toList = [] := eq_nil_of_length_eq_zero (by rw [length_toList]; omega)
      rw [if_neg (fun h => hpos h.1), hnil]
      rfl

lemma toList_popWhile : (r.popWhile p).toList = r.toList.dropWhile p :=
  toList_popWhileFor p le_rfl

lemma size_popWhileFor (n : ℕ) : (r.popWhileFor p n).size = r.size := by
  induction n generalizing r with
  | zero => rfl
  | succ n ih =>
    rw [popWhileFor]
    split
    · rw [ih, size_pop]
    · rfl

@[simp] lemma size_popWhile : (r.popWhile p).size = r.size := size_popWhileFor p _

end

@[simp] lemma size_empty (n : ℕ) : (empty n : RingBuffer α).size = n := by
  simp [size, empty]

end RingBuffer
end Lodestar.Lib
