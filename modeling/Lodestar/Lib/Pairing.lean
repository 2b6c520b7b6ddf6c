import Mathlib

/-!
# Starts and finishes that come in pairs

A history of starts and finishes, each with a key, is `Paired` if it is a sequence of
starts each directly followed by the finish of the same key, and `Open` if one more start
comes behind.  What a history has seen so far is one of both (`paired_or_open_of_isPrefix`).
-/

namespace Lodestar.Lib

inductive Mark (K : Type*) where
  | start (k : K)
  | finish (k : K)
  deriving DecidableEq

variable {K : Type*} {l l' : List (Mark K)} {k : K}

def Paired (l : List (Mark K)) : Prop := ∃ ks : List K, l = ks.flatMap fun k => [.start k, .finish k]

/-- Every start but the last, which has the key `k`, is followed by its finish. -/
def Open (k : K) (l : List (Mark K)) : Prop := ∃ l', Paired l' ∧ l = l' ++ [.start k]

lemma Paired.nil : Paired ([] : List (Mark K)) := ⟨[], rfl⟩

lemma Paired.start (h : Paired l) (k : K) : Open k (l ++ [.start k]) := ⟨l, h, rfl⟩

lemma Open.finish (h : Open k l) : Paired (l ++ [.finish k]) := by
  obtain ⟨l', ⟨ks, rfl⟩, rfl⟩ := h
  exact ⟨ks ++ [k], by simp⟩

lemma Paired.prefix_cases (h : Paired l) (hp : l' <+: l) : Paired l' ∨ ∃ k, Open k l' := by
  obtain ⟨ks, rfl⟩ := h
  induction ks generalizing l' with
  | nil => exact .inl (List.prefix_nil.mp hp ▸ Paired.nil)
  | cons k ks ih =>
    rcases List.prefix_cons_iff.mp hp with rfl | ⟨l₁, rfl, hp₁⟩
    · exact .inl Paired.nil
    · rcases List.prefix_cons_iff.mp hp₁ with rfl | ⟨l₂, rfl, hp₂⟩
      · exact .inr ⟨k, [], Paired.nil, rfl⟩
      · -- a whole pair is behind us
        rcases ih hp₂ with ⟨ks', rfl⟩ | ⟨k', l₃, ⟨ks', rfl⟩, rfl⟩
        · exact .inl ⟨k :: ks', rfl⟩
        · exact .inr ⟨k', _, ⟨k :: ks', rfl⟩, rfl⟩

/-- **A history so far**: every finish comes behind its start, and at most one start is
without its finish. -/
lemma paired_or_open_of_isPrefix (h : Paired l ∨ ∃ k, Open k l) (hp : l' <+: l) :
    Paired l' ∨ ∃ k, Open k l' := by
  rcases h with h | ⟨k, l₀, h₀, rfl⟩
  · exact h.prefix_cases hp
  · rcases List.prefix_concat_iff.mp hp with rfl | hp'
    · exact .inr ⟨k, l₀, h₀, rfl⟩
    · exact h₀.prefix_cases hp'

end Lodestar.Lib
