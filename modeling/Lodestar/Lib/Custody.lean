import Mathlib.Logic.Function.Basic

/-!
# Objects that are in one place at a time

`H p o` says that the place `p` holds the object `o`.  `Sole H` says that no object is in two
places; it stays so when one object is put in some place and the others stay (`Sole.change`).
-/

namespace Lodestar.Lib

variable {P O : Type*} {H H' : P → O → Prop}

def Sole (H : P → O → Prop) : Prop := ∀ p q o, H p o → H q o → p = q

namespace Sole

lemma of_imp (h : Sole H) (himp : ∀ p o, H' p o → H p o) : Sole H' :=
  fun p q o hp hq => h p q o (himp p o hp) (himp q o hq)

lemma change (h : Sole H) {b : P} {o : O}
    (hnew : ∀ p u, H' p u → (p = b ∧ u = o) ∨ (H p u ∧ u ≠ o)) : Sole H' := by
  intro p q u hp hq
  rcases hnew p u hp with ⟨rfl, rfl⟩ | ⟨hp', hpu⟩
  · rcases hnew q u hq with ⟨rfl, -⟩ | ⟨-, hne⟩
    · rfl
    · exact absurd rfl hne
  · rcases hnew q u hq with ⟨-, heq⟩ | ⟨hq', -⟩
    · exact absurd heq hpu
    · exact h p q u hp' hq'

end Sole
end Lodestar.Lib
