import Lodestar.Lib.Holdings
import Lodestar.Lib.Mutex

/-!
# Reservations in two steps

Threads reserve amounts of shared accounts for requests and release them again.  A reservation
raises the level of the account and then enters the amount in a record under the request; a mutex is
held from the one to the other.  A release removes the entry, and lowers the level some time later.

`Reservations.Move` says what one step does, `Reservations.Inv` what every step keeps: a raise is
always held by someone, by an entry or by a thread on its way.  So the levels are what the entries
and the threads on their way come to (`Inv.total`), and whoever lowers a level finds its own amount
there (`Inv.le_level`).
-/

namespace Lodestar.Lib

open Function (update update_self update_of_ne)

/-- Where a thread is: outside, on its way into the record, or on its way out. -/
inductive Reserving (ρ κ : Type*) where
  | outside
  | entering (r : ρ) (p : κ × ℕ)
  | leaving (p : κ × ℕ)

namespace Reserving

variable {ρ κ : Type*}

def isEntering : Reserving ρ κ → Bool
  | entering _ _ => true
  | outside | leaving _ => false

def entered : Reserving ρ κ → Option (κ × ℕ)
  | entering _ p => some p
  | outside | leaving _ => none

def left : Reserving ρ κ → Option (κ × ℕ)
  | leaving p => some p
  | outside | entering _ _ => none

def holding : Reserving ρ κ → Option (κ × ℕ)
  | entering _ p | leaving p => some p
  | outside => none

lemma share_holding [DecidableEq κ] (k : κ) (q : Reserving ρ κ) :
    share k q.holding = share k q.left + share k q.entered := by
  cases q with
  | outside => rfl
  | entering | leaving => simp [holding, left, entered, share]

end Reserving

/-- The shared accounts and the record, with the threads; `used` are the requests for which something
was ever reserved. -/
structure Reservations (ρ κ τ : Type*) where
  level : κ → ℤ
  entries : ρ → Option (κ × ℕ)
  mutex : Option τ
  place : τ → Reserving ρ κ
  used : Set ρ

namespace Reservations

variable {ρ κ τ : Type*} [DecidableEq ρ] [DecidableEq κ] [DecidableEq τ]

inductive Move (s s' : Reservations ρ κ τ) : Prop
  | idle (h : s' = s)
  /-- A level is raised for a request for which nothing was reserved before. -/
  | raise (t : τ) (r : ρ) (p : κ × ℕ) (hout : s.place t = .outside) (hmutex : s.mutex = none)
      (hnew : r ∉ s.used)
      (hs' : s' = { s with
        level := update s.level p.1 (s.level p.1 + p.2)
        mutex := some t
        place := update s.place t (.entering r p)
        used := insert r s.used })
  /-- The entry is written and the mutex given back. -/
  | enter (t : τ) (r : ρ) (p : κ × ℕ) (hin : s.place t = .entering r p)
      (hs' : s' = { s with
        entries := update s.entries r (some p)
        mutex := none
        place := update s.place t .outside })
  /-- The entry is removed, and the thread is to lower the level. -/
  | remove (t : τ) (r : ρ) (p : κ × ℕ) (hout : s.place t = .outside) (hentry : s.entries r = some p)
      (hs' : s' = { s with
        entries := update s.entries r none
        place := update s.place t (.leaving p) })
  /-- An entry of amount 0 is removed. -/
  | discard (r : ρ) (k : κ) (hentry : s.entries r = some (k, 0))
      (hs' : s' = { s with entries := update s.entries r none })
  /-- The level is lowered. -/
  | lower (t : τ) (p : κ × ℕ) (hout : s.place t = .leaving p)
      (hs' : s' = { s with
        level := update s.level p.1 (s.level p.1 - p.2)
        place := update s.place t .outside })

structure Inv (s : Reservations ρ κ τ) : Prop where
  balanced : Balanced s.level (Sum.elim s.entries fun t => (s.place t).holding)
  entry_used : ∀ r, s.entries r ≠ none → r ∈ s.used
  entering_new : ∀ t r p, s.place t = .entering r p → r ∈ s.used ∧ s.entries r = none
  mutex : Mutex Reserving.isEntering s.place s.mutex

variable {s s' : Reservations ρ κ τ} {t : τ}
omit [DecidableEq ρ] [DecidableEq κ] in
lemma entering_of_update {t' : τ} {q : Reserving ρ κ} (hq : q.isEntering = false) {r : ρ} {p : κ × ℕ}
    (h : update s.place t q t' = .entering r p) : t' ≠ t ∧ s.place t' = .entering r p := by
  by_cases ht : t' = t
  · subst ht
    rw [update_self] at h
    simp [h, Reserving.isEntering] at hq
  · rw [update_of_ne ht] at h
    exact ⟨ht, h⟩

attribute [local simp] Reserving.holding
omit [DecidableEq ρ] [DecidableEq τ] in
lemma Inv.le_level (hs : s.Inv) {p : κ × ℕ} (hp : s.place t = .leaving p) :
    (p.2 : ℤ) ≤ s.level p.1 := by
  have hheld : Sum.elim s.entries (fun t => (s.place t).holding) (.inr t) = some (p.1, p.2) := by
    simp [hp]
  exact hs.balanced.le hheld

namespace Inv

variable (hs : s.Inv)
include hs

lemma raise {r : ρ} {p : κ × ℕ} (hout : s.place t = .outside) (hmutex : s.mutex = none)
    (hnew : r ∉ s.used) :
    Inv { s with
      level := update s.level p.1 (s.level p.1 + p.2)
      mutex := some t
      place := update s.place t (.entering r p)
      used := insert r s.used } where
  balanced := by
    rw [elim_update_thread]
    have hnone : Sum.elim s.entries (fun t => (s.place t).holding) (.inr t) = none := by
      simp [hout]
    exact hs.balanced.put hnone p.1 p.2
  entry_used := fun r' hr' => Set.mem_insert_of_mem _ (hs.entry_used r' hr')
  entering_new := by
    intro t' r' p' h
    dsimp only at h ⊢
    by_cases ht : t' = t
    · subst ht
      rw [update_self] at h
      obtain ⟨rfl, rfl⟩ := Reserving.entering.inj h
      refine ⟨Set.mem_insert _ _, ?_⟩
      by_contra hentry
      exact hnew (hs.entry_used r hentry)
    · -- nobody else is on the way in while the mutex is free
      rw [update_of_ne ht] at h
      have hheld := (hs.mutex t').mp (by rw [h]; rfl)
      rw [hmutex] at hheld
      simp at hheld
  mutex := hs.mutex.enter hmutex rfl

lemma enter {r : ρ} {p : κ × ℕ} (hin : s.place t = .entering r p) : Inv { s with
      entries := update s.entries r (some p)
      mutex := none
      place := update s.place t .outside } := by
  obtain ⟨hused, hnone⟩ := hs.entering_new t r p hin
  have hentering : (s.place t).isEntering = true := by
    rw [hin]
    rfl
  refine ⟨?_, ?_, ?_, hs.mutex.leave hentering rfl⟩
  · rw [elim_update_thread, ← Sum.update_elim_inl, Function.update_comm (by simp)]
    refine hs.balanced.transfer ?_ hnone
    simp [hin]
  · intro r' hr'
    by_cases hr : r' = r
    · rw [hr]
      exact hused
    · refine hs.entry_used r' ?_
      simpa [update_of_ne hr] using hr'
  · intro t' r' p' h
    obtain ⟨ht, hplace⟩ := entering_of_update rfl h
    have halone := hs.mutex.alone (Or.inl hentering) ht
    simp [hplace, Reserving.isEntering] at halone

omit [DecidableEq τ] in
lemma erase_entry_used (r : ρ) (r' : ρ) (hr' : update s.entries r none r' ≠ none) :
    r' ∈ s.used := by
  refine hs.entry_used r' ?_
  by_cases hr : r' = r
  · simp [hr] at hr'
  · simpa [update_of_ne hr] using hr'

omit [DecidableEq τ] in
lemma erase_entering_new (r : ρ) {t' : τ} {r' : ρ} {p' : κ × ℕ} (h : s.place t' = .entering r' p') :
    r' ∈ s.used ∧ update s.entries r none r' = none := by
  obtain ⟨hused, hnone⟩ := hs.entering_new t' r' p' h
  refine ⟨hused, ?_⟩
  by_cases hr : r' = r
  · simp [hr]
  · rw [update_of_ne hr]
    exact hnone

lemma remove {r : ρ} {p : κ × ℕ} (hout : s.place t = .outside) (hentry : s.entries r = some p) :
    Inv { s with
      entries := update s.entries r none
      place := update s.place t (.leaving p) } where
  balanced := by
    rw [elim_update_thread, ← Sum.update_elim_inl]
    have hnone : Sum.elim s.entries (fun t => (s.place t).holding) (.inr t) = none := by
      simp [hout]
    exact hs.balanced.transfer hentry hnone
  entry_used := hs.erase_entry_used r
  entering_new := fun t' r' p' h => hs.erase_entering_new r (entering_of_update rfl h).2
  mutex := hs.mutex.stay (by rw [hout]; rfl) rfl

lemma discard {r : ρ} {k : κ} (hentry : s.entries r = some (k, 0)) :
    Inv { s with entries := update s.entries r none } where
  balanced := by
    rw [← Sum.update_elim_inl]
    exact hs.balanced.drop hentry
  entry_used := hs.erase_entry_used r
  entering_new := fun t' r' p' h => hs.erase_entering_new r h
  mutex := hs.mutex

lemma lower {p : κ × ℕ} (hout : s.place t = .leaving p) : Inv { s with
      level := update s.level p.1 (s.level p.1 - p.2)
      place := update s.place t .outside } where
  balanced := by
    rw [elim_update_thread]
    refine hs.balanced.take ?_
    simp [hout]
  entry_used := hs.entry_used
  entering_new := fun t' r' p' h => hs.entering_new t' r' p' (entering_of_update rfl h).2
  mutex := hs.mutex.stay (by rw [hout]; rfl) rfl

lemma move (h : Move s s') : s'.Inv := by
  cases h with
  | idle h => exact h ▸ hs
  | raise t r p hout hmutex hnew hs' => exact hs' ▸ hs.raise hout hmutex hnew
  | enter t r p hin hs' => exact hs' ▸ hs.enter hin
  | remove t r p hout hentry hs' => exact hs' ▸ hs.remove hout hentry
  | discard r k hentry hs' => exact hs' ▸ hs.discard hentry
  | lower t p hout hs' => exact hs' ▸ hs.lower hout

end Inv

omit [DecidableEq ρ] [DecidableEq κ] [DecidableEq τ] in
lemma inv_empty [DecidableEq κ] (used : Set ρ) :
    Inv (⟨fun _ => 0, fun _ => none, none, fun _ => .outside, used⟩ : Reservations ρ κ τ) where
  balanced := by
    have hnone : Sum.elim (fun _ : ρ => none) (fun _ : τ => (Reserving.outside : Reserving ρ κ).holding) =
        fun _ => none := by
      funext i
      rcases i with r | t
      · rfl
      · rfl
    rw [hnone]
    exact .empty
  entry_used := fun r h => absurd rfl h
  entering_new := fun t r p h => by simp at h
  mutex := fun t => by simp [Reserving.isEntering]

omit [DecidableEq ρ] [DecidableEq τ] in
/-- **The levels**: they are what the entries, the threads on their way out and those on their way in
come to; while the mutex is free there are none of the last kind. -/
lemma Inv.total (hs : s.Inv) (k : κ) : ∃ a b c,
    Total (fun r => share k (s.entries r)) a ∧ Total (fun t => share k (s.place t).left) b ∧
    Total (fun t => share k (s.place t).entered) c ∧ s.level k = a + b + c ∧
    (s.mutex = none → c = 0) := by
  obtain ⟨a, d, hentries, hthreads, hsum⟩ := (hs.balanced k).sum
  obtain ⟨b, c, hleft, hentered, hd⟩ := hthreads.split (fun t => (s.place t).share_holding k)
    (fun t => share_nonneg k _) (fun t => share_nonneg k _)
  refine ⟨a, b, c, hentries, hleft, hentered, by omega, fun hmutex => ?_⟩
  have hnobody : ∀ t, share k (s.place t).entered = 0 := by
    intro t
    cases hplace : s.place t with
    | outside | leaving => rfl
    | entering r p =>
      have hheld := (hs.mutex t).mp (by rw [hplace]; rfl)
      rw [hmutex] at hheld
      simp at hheld
  rw [← hentered.finsum_eq]
  simp [hnobody]

end Reservations
end Lodestar.Lib
