import Mathlib

/-!
# Doubly linked lists

The links of a doubly linked list between two sentinel cells, as assignments to the `next`
and `prev` pointers of its cells.  `Represents` says which cells the list holds, in order.
A cell is put in behind the first sentinel (`Represents.insertAfter`) and taken out at any
place (`Represents.unlink`).
-/

namespace Lodestar.Lib

open Function (update update_of_ne update_apply)

structure Pointers (P : Type*) where
  prev : P → Option P
  next : P → Option P

namespace Pointers

variable {P : Type*} [DecidableEq P]

/-- `p.prev = q`. -/
def setPrev (s : Pointers P) (p : P) (q : Option P) : Pointers P :=
  { s with prev := update s.prev p q }

/-- `p.next = q`. -/
def setNext (s : Pointers P) (p : P) (q : Option P) : Pointers P :=
  { s with next := update s.next p q }

/-- Put the cell `e` in behind `p`. -/
def insertAfter (s : Pointers P) (p e : P) : Pointers P :=
  let s := s.setPrev e (some p)
  let s := s.setNext e (s.next p)
  let s := match s.next p with
    | some q => s.setPrev q (some e)
    | none => s
  s.setNext p (some e)

/-- Take the cell `e` out. -/
def unlink (s : Pointers P) (e : P) : Pointers P :=
  let s := match s.prev e with
    | some p => s.setNext p (s.next e)
    | none => s
  let s := match s.next e with
    | some q => s.setPrev q (s.prev e)
    | none => s
  (s.setPrev e none).setNext e none

def Linked (s : Pointers P) (p q : P) : Prop := s.next p = some q ∧ s.prev q = some p

/-- The list between the sentinels `first` and `last` holds the cells `l`. -/
structure Represents (s : Pointers P) (first last : P) (l : List P) : Prop where
  nodup : (first :: l ++ [last]).Nodup
  chain : (first :: l ++ [last]).IsChain s.Linked

variable {s : Pointers P} {first last p q e : P} {l l₁ l₂ : List P}

/-! ### The pointers after a change -/

lemma next_insertAfter (x : P) : (s.insertAfter p e).next x =
    if x = p then some e else if x = e then s.next p else s.next x := by
  have hnext : (s.insertAfter p e).next = update (update s.next e (s.next p)) p (some e) := by
    unfold Pointers.insertAfter
    dsimp only
    split <;> rfl
  rw [hnext, update_apply, update_apply]

lemma prev_insertAfter (he : e ≠ p) (hq : s.next p = some q) (x : P) : (s.insertAfter p e).prev x =
      if x = q then some e else if x = e then some p else s.prev x := by
  have hprev : (s.insertAfter p e).prev = update (update s.prev e (some p)) q (some e) := by
    simp [Pointers.insertAfter, setPrev, setNext, update_of_ne he.symm, hq]
  rw [hprev, update_apply, update_apply]

lemma next_unlink (hp : s.prev e = some p) (x : P) : (s.unlink e).next x =
    if x = e then none else if x = p then s.next e else s.next x := by
  have hnext : (s.unlink e).next = update (update s.next p (s.next e)) e none := by
    unfold unlink
    simp only [hp]
    split <;> rfl
  rw [hnext, update_apply, update_apply]

lemma prev_unlink (hp : s.prev e = some p) (hpe : p ≠ e) (hq : s.next e = some q) (x : P) :
    (s.unlink e).prev x = if x = e then none else if x = q then some p else s.prev x := by
  have hprev : (s.unlink e).prev = update (update s.prev q (some p)) e none := by
    simp [unlink, hp, setPrev, setNext, update_of_ne hpe.symm, hq]
  rw [hprev, update_apply, update_apply]

/-! ### The list -/

omit [DecidableEq P] in
lemma Represents.prev_last (h : Represents s first last l) :
    s.prev last = (first :: l).getLast? := by
  obtain ⟨l', p, hl⟩ := (List.eq_nil_or_concat' (first :: l)).resolve_left (by simp)
  have hchain := h.chain
  rw [hl, List.append_assoc] at hchain
  rw [hl, List.getLast?_concat]
  exact (List.isChain_split.mp hchain).2.rel.2

lemma Represents.insertAfter (h : Represents s first last l) (he : e ∉ first :: l ++ [last]) :
    Represents (s.insertAfter first e) first last (e :: l) := by
  obtain ⟨q, r, hq⟩ := List.exists_cons_of_ne_nil (l := l ++ [last]) (by simp)
  obtain ⟨hnodup, hchain⟩ := h
  simp only [List.cons_append, hq, List.nodup_cons, List.mem_cons, not_or] at hnodup hchain he
  obtain ⟨⟨hnext, hprev⟩, hrest⟩ := List.isChain_cons_cons.mp hchain
  refine ⟨?_, ?_⟩ <;> simp only [List.cons_append, hq]
  · simp only [List.nodup_cons, List.mem_cons, not_or]
    exact ⟨⟨Ne.symm he.1, hnodup.1⟩, he.2, hnodup.2⟩
  · refine .cons_cons ⟨?_, ?_⟩ (.cons_cons ⟨?_, ?_⟩ (hrest.imp_of_mem_tail_imp ?_))
    · rw [next_insertAfter, if_pos rfl]
    · rw [prev_insertAfter he.1 hnext, if_neg he.2.1, if_pos rfl]
    · rw [next_insertAfter, if_neg he.1, if_pos rfl, hnext]
    · rw [prev_insertAfter he.1 hnext, if_pos rfl]
    · -- behind the second cell no pointer has changed
      rintro a b ha hb ⟨hab, hba⟩
      rw [List.mem_cons] at ha
      rw [List.tail_cons] at hb
      have hfirst : a ≠ first := by grind
      have hae : a ≠ e := by grind
      have hbq : b ≠ q := by grind
      have hbe : b ≠ e := by grind
      refine ⟨?_, ?_⟩
      · rw [next_insertAfter, if_neg hfirst, if_neg hae, hab]
      · rw [prev_insertAfter he.1 hnext, if_neg hbq, if_neg hbe, hba]

lemma Represents.unlink (h : Represents s first last (l₁ ++ e :: l₂)) :
    Represents (s.unlink e) first last (l₁ ++ l₂) := by
  obtain ⟨k, p, hk⟩ := (List.eq_nil_or_concat' (first :: l₁)).resolve_left (by simp)
  obtain ⟨q, r, hr⟩ := List.exists_cons_of_ne_nil (l := l₂ ++ [last]) (by simp)
  have hbefore : first :: (l₁ ++ e :: l₂) ++ [last] = k ++ p :: e :: q :: r := by
    rw [← hr]
    simpa using congrArg (· ++ e :: (l₂ ++ [last])) hk
  have hafter : first :: (l₁ ++ l₂) ++ [last] = k ++ p :: q :: r := by
    rw [← hr]
    simpa using congrArg (· ++ (l₂ ++ [last])) hk
  obtain ⟨hnodup, hchain⟩ := h
  rw [hbefore] at hnodup hchain
  obtain ⟨hfront, ⟨hnext, hprev⟩, hback⟩ := List.isChain_append_cons_cons.mp hchain
  obtain ⟨⟨hnext', hprev'⟩, hback⟩ := List.isChain_cons_cons.mp hback
  have hpe : p ≠ e := by grind
  have hqe : q ≠ e := by grind
  -- away from `e` only the pointers of `p` and `q` that led to `e` have changed
  have hsame : ∀ a b, s.Linked a b → a ≠ e → b ≠ e → (s.unlink e).Linked a b := by
    rintro a b ⟨hab, hba⟩ hae hbe
    have hap : a ≠ p := by grind
    have hbq : b ≠ q := by grind
    exact ⟨by rw [next_unlink hprev, if_neg hae, if_neg hap, hab],
      by rw [prev_unlink hprev hpe hnext', if_neg hbe, if_neg hbq, hba]⟩
  refine ⟨?_, ?_⟩ <;> rw [hafter]
  · exact hnodup.sublist (.append_left (.cons_cons p (List.sublist_cons_self e _)) k)
  · refine List.isChain_append_cons_cons.mpr ⟨hfront.imp_of_mem_imp ?_, ⟨?_, ?_⟩,
      hback.imp_of_mem_imp ?_⟩
    · exact fun a b ha hb hab => hsame a b hab (by grind) (by grind)
    · rw [next_unlink hprev, if_neg hpe, if_pos rfl, hnext']
    · rw [prev_unlink hprev hpe hnext', if_neg hqe, if_pos rfl]
    · exact fun a b ha hb hab => hsame a b hab (by grind) (by grind)

end Pointers
end Lodestar.Lib
