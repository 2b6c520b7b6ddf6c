import Mathlib

/-!
# Runs of a step function

A run is the fold of a step function over a list of events.  `Along` says that every
event of the run meets a condition in the state in which it happens; a property that
every such event keeps then holds in every state of the run (`Along.invariant`).
-/

namespace Lodestar.Lib

open List Function
variable {S E : Type*} {step : S → E → S}

/-- Every event meets the condition `C` in the state in which it happens. -/
def Along (step : S → E → S) (C : S → E → Prop) (s : S) : List E → Prop
  | [] => True
  | e :: es => C s e ∧ Along step C (step s e) es

instance Along.decidable {C : S → E → Prop} [∀ s e, Decidable (C s e)] :
    ∀ (s : S) (es : List E), Decidable (Along step C s es)
  | _, [] => isTrue trivial
  | s, e :: es => @instDecidableAnd (C s e) _ inferInstance (Along.decidable (step s e) es)

variable {C C' : S → E → Prop} {I : S → Prop} {s : S} {es es' : List E}

lemma Along.of_prefix (h : Along step C s es) (hp : es' <+: es) : Along step C s es' := by
  induction es' generalizing s es with
  | nil => exact trivial
  | cons e es' ih =>
    cases es with
    | nil => simp at hp
    | cons e' es =>
      obtain ⟨rfl, hp'⟩ := cons_prefix_cons.mp hp
      exact ⟨h.1, ih h.2 hp'⟩

lemma Along.imp (h : Along step C s es) (hC : ∀ s e, C s e → C' s e) : Along step C' s es := by
  induction es generalizing s with
  | nil => exact trivial
  | cons e es ih => exact ⟨hC s e h.1, ih h.2⟩

lemma along_of_mem (h : ∀ s, ∀ e ∈ es, C s e) : Along step C s es := by
  induction es generalizing s with
  | nil => exact trivial
  | cons e es ih =>
    exact ⟨h s e mem_cons_self, ih fun s e he => h s e (mem_cons_of_mem _ he)⟩

lemma Along.and (h : Along step C s es) (h' : Along step C' s es) :
    Along step (fun s e => C s e ∧ C' s e) s es := by
  induction es generalizing s with
  | nil => exact trivial
  | cons e es ih => exact ⟨⟨h.1, h'.1⟩, ih h.2 h'.2⟩

lemma Along.invariant (h : Along step C s es) (hI : I s)
    (hstep : ∀ s e, I s → C s e → I (step s e)) : I (es.foldl step s) := by
  induction es generalizing s with
  | nil => exact hI
  | cons e es ih => exact ih h.2 (hstep s e hI h.1)

lemma foldl_invariant (hI : I s) (hstep : ∀ s e, I s → I (step s e)) (es : List E) :
    I (es.foldl step s) := by
  induction es generalizing s with
  | nil => exact hI
  | cons e es ih => exact ih (hstep s e hI)

lemma along_of_invariant (hI : I s) (hkeep : ∀ s e, I s → I (step s e)) (hC : ∀ s e, I s → C s e) :
    Along step C s es := by
  induction es generalizing s with
  | nil => exact trivial
  | cons e es ih => exact ⟨hC s e hI, ih (hkeep s e hI)⟩

lemma Along.imp_of_invariant (h : Along step C s es) (hI : I s)
    (hkeep : ∀ s e, I s → C s e → I (step s e)) (hC : ∀ s e, I s → C s e → C' s e) :
    Along step C' s es := by
  induction es generalizing s with
  | nil => exact trivial
  | cons e es ih => exact ⟨hC s e hI h.1, ih h.2 (hkeep s e hI h.1)⟩

lemma along_congr_of_invariant (hI : I s) (hkeep : ∀ s e, I s → I (step s e))
    (hC : ∀ s e, I s → (C s e ↔ C' s e)) : Along step C s es ↔ Along step C' s es := by
  induction es generalizing s with
  | nil => exact Iff.rfl
  | cons e es ih => exact and_congr (hC s e hI) (ih (hkeep s e hI))

/-- **The invariant rule as an equivalence**: where the condition says exactly which events
keep the property, it says exactly which runs have it in all their states. -/
lemma along_iff_invariant (hI : I s) (hstep : ∀ s e, I s → (I (step s e) ↔ C s e)) :
    (∀ es', es' <+: es → I (es'.foldl step s)) ↔ Along step C s es := by
  induction es generalizing s with
  | nil =>
    refine ⟨fun _ => trivial, fun _ es' hp => ?_⟩
    rw [prefix_nil.mp hp]
    exact hI
  | cons e es ih =>
    constructor
    · intro h
      have hnext : I (step s e) := h [e] (cons_prefix_cons.mpr ⟨rfl, nil_prefix⟩)
      refine ⟨(hstep s e hI).mp hnext, (ih hnext).mp fun es' hp => ?_⟩
      exact h (e :: es') (cons_prefix_cons.mpr ⟨rfl, hp⟩)
    · intro h es' hp
      have hnext : I (step s e) := (hstep s e hI).mpr h.1
      rcases prefix_cons_iff.mp hp with rfl | ⟨es'', rfl, hp'⟩
      · exact hI
      · exact (ih hnext).mpr h.2 es'' hp'

lemma along_iff_of_invariant {W : S → Prop} (hW : W s) (hI : I s)
    (hkeep : ∀ s e, W s → W (step s e)) (hstep : ∀ s e, W s → I s → (I (step s e) ↔ C s e)) :
    (∀ es', es' <+: es → I (es'.foldl step s)) ↔ Along step C s es := by
  have hrule : (∀ es', es' <+: es → W (es'.foldl step s) ∧ I (es'.foldl step s)) ↔
      Along step C s es :=
    along_iff_invariant (I := fun s => W s ∧ I s) ⟨hW, hI⟩ fun s e h =>
      (and_iff_right (hkeep s e h.1)).trans (hstep s e h.1 h.2)
  rw [← hrule]
  exact forall₂_congr fun es' _ => (and_iff_right (foldl_invariant hW hkeep es')).symm

section

variable {ι α β : Type*} [DecidableEq ι] {g : ι → α} {i : ι} {x : α}

lemma field_update (f : α → β) (hx : f x = f (g i)) (j : ι) :
    f (Function.update g i x j) = f (g j) := by
  by_cases hj : j = i
  · subst hj
    rw [update_self, hx]
  · rw [update_of_ne hj]

lemma forall_update {P : ι → α → Prop} (h : ∀ j, P j (g j)) (hx : P i x) :
    ∀ j, P j (Function.update g i x j) :=
  (forall_update_iff g P).mpr ⟨hx, fun j _ => h j⟩

end
end Lodestar.Lib
