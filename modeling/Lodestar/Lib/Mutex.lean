import Mathlib

/-!
# Threads and a mutex

Each thread is at a place, and a test on places says where a thread has the mutex.  `Mutex` says that
the mutex knows its holder; `Mutex.alone` that there is only one; `Mutex.move` that it stays so when
one thread moves, takes or gives back the mutex with the move, and takes it only when it is free.
-/

namespace Lodestar.Lib

variable {τ π : Type*} {C : π → Bool} {pc : τ → π} {mu : Option τ}

/-- The threads at the places `C` are the holder of the mutex. -/
def Mutex (C : π → Bool) (pc : τ → π) (mu : Option τ) : Prop := ∀ t, C (pc t) = true ↔ mu = some t

namespace Mutex

lemma alone (h : Mutex C pc mu) {t u : τ} (ht : C (pc t) = true ∨ mu = none) (hu : u ≠ t) :
    C (pc u) = false := by
  by_contra hin
  have hmu := (h u).mp (by simpa using hin)
  rcases ht with ht | ht
  · rw [(h t).mp ht] at hmu
    exact hu (Option.some.inj hmu).symm
  · rw [ht] at hmu
    simp at hmu

lemma move [DecidableEq τ] (h : Mutex C pc mu) {t : τ} {p : π}
    (hfree : C p = true → C (pc t) = true ∨ mu = none) :
    Mutex C (Function.update pc t p) (if C p then some t else if C (pc t) then none else mu) := by
  intro u
  by_cases hu : u = t
  · subst hu
    rw [Function.update_self]
    cases hp : C p with
    | true => simp
    | false =>
      cases ht : C (pc u) with
      | true => simp
      | false => simpa [ht] using h u
  · rw [Function.update_of_ne hu]
    cases hp : C p with
    | true =>
      rw [h.alone (hfree hp) hu]
      simp [Ne.symm hu]
    | false =>
      cases ht : C (pc t) with
      | true =>
        rw [h.alone (Or.inl ht) hu]
        simp
      | false => simpa using h u

section

variable [DecidableEq τ] {t : τ} {p : π}

lemma stay (h : Mutex C pc mu) (ht : C (pc t) = false) (hp : C p = false) :
    Mutex C (Function.update pc t p) mu := by
  simpa [ht, hp] using h.move (t := t) (p := p) (by simp [hp])

lemma enter (h : Mutex C pc mu) (hmu : mu = none) (hp : C p = true) :
    Mutex C (Function.update pc t p) (some t) := by
  simpa [hp] using h.move (p := p) fun _ => Or.inr hmu

lemma leave (h : Mutex C pc mu) (ht : C (pc t) = true) (hp : C p = false) :
    Mutex C (Function.update pc t p) none := by
  simpa [ht, hp] using h.move (t := t) (p := p) (by simp [hp])

end
end Mutex
end Lodestar.Lib
