import Mathlib

/-!
# Routines that return early and raise

A routine changes a state, and it leaves before its end by a return or by an exception.  It is a
program of `EStateM`, whose errors are the two ways to leave; the state is kept on both.  A call
of a routine returns, by a return or at its end, or raises (`call`).

`stages` are calls that change nothing and may raise; `tryExcept` runs a routine and goes on with a
handler behind the exceptions that it catches.
-/

namespace Lodestar.Lib

inductive Leave (ε : Type) where
  | returned
  | raised (e : ε)
  deriving DecidableEq

abbrev Routine (ε σ : Type) := EStateM (Leave ε) σ

inductive Called (ε σ : Type) where
  | returned (s : σ)
  | raised (e : ε) (s : σ)
  deriving DecidableEq

namespace Routine

variable {ε σ α : Type} {S : Type*} {s : σ}

/-- The `return` statement. -/
def ret : Routine ε σ α := throw .returned

def stage (fault : S → Option ε) (x : S) : Routine ε σ Unit :=
  match fault x with
  | none => pure ()
  | some e => throw (.raised e)

def stages (fault : S → Option ε) : List S → Routine ε σ Unit
  | [] => pure ()
  | x :: xs => stage fault x >>= fun _ => stages fault xs

/-- The exceptions that `catches` names are followed by the handler. -/
def tryExcept (catches : ε → Bool) (body handler : Routine ε σ Unit) : Routine ε σ Unit := fun s =>
  match body s with
  | .ok a s => .ok a s
  | .error .returned s => .error .returned s
  | .error (.raised e) s => if catches e then handler s else .error (.raised e) s

/-- A call whose error is returned, for the code behind it to look at. -/
def attempt (r : Routine ε σ α) : Routine ε σ (Except ε α) := fun s =>
  match r s with
  | .ok a s => .ok (.ok a) s
  | .error .returned s => .error .returned s
  | .error (.raised e) s => .ok (.error e) s

def ofExcept : Except ε α → Routine ε σ α
  | .ok a => pure a
  | .error e => throw (.raised e)

def call (r : Routine ε σ Unit) (s : σ) : Called ε σ :=
  match r s with
  | .ok _ s => .returned s
  | .error .returned s => .returned s
  | .error (.raised e) s => .raised e s

/-- The state in which a routine ends, in whichever way. -/
def exec (r : Routine ε σ α) (s : σ) : σ :=
  match r s with
  | .ok _ s => s
  | .error _ s => s

/-! ### Postconditions

What holds behind a routine that goes on, behind a return and behind an exception. -/

structure Post (ε σ α : Type) where
  next : α → σ → Prop
  returned : σ → Prop
  raised : ε → σ → Prop

/-- The postcondition that holds however a routine is left. -/
def Post.always (P : σ → Prop) : Post ε σ α := ⟨fun _ => P, P, fun _ => P⟩

/-- The routine, started in `s`, ends with the postcondition. -/
def wp (r : Routine ε σ α) (post : Post ε σ α) (s : σ) : Prop :=
  match r s with
  | .ok a s => post.next a s
  | .error .returned s => post.returned s
  | .error (.raised e) s => post.raised e s

variable {β : Type} {r : Routine ε σ α} {k : α → Routine ε σ β} {post : Post ε σ β}

lemma wp_ret (h : post.returned s) : wp ret post s := h

lemma wp_pure {b : β} (h : post.next b s) : wp (pure b) post s := h

lemma wp_bind (h : wp r ⟨fun a s => wp (k a) post s, post.returned, post.raised⟩ s) :
    wp (r >>= k) post s := by
  have hbind : (r >>= k) s = match r s with
      | .ok a s => k a s
      | .error e s => .error e s := by
    show EStateM.bind r k s = _
    unfold EStateM.bind
    cases r s <;> rfl
  unfold wp at h ⊢
  rw [hbind]
  rcases hr : r s with ⟨a, s'⟩ | ⟨_ | e, s'⟩ <;> rw [hr] at h <;> exact h

lemma wp_get {k : σ → Routine ε σ β} (h : wp (k s) post s) : wp (get >>= k) post s := wp_bind h

lemma wp_modify {k : Unit → Routine ε σ β} {f : σ → σ} (h : wp (k ()) post (f s)) :
    wp (modify f >>= k) post s :=
  wp_bind h

lemma wp_ret_bind {k : α → Routine ε σ β} (h : post.returned s) : wp (ret >>= k) post s := wp_bind h

lemma wp_ite {c : Prop} [Decidable c] {r r' : Routine ε σ β} (h : c → wp r post s)
    (h' : ¬ c → wp r' post s) : wp (if c then r else r') post s := by
  split
  · exact h ‹_›
  · exact h' ‹_›

lemma wp_mono {post' : Post ε σ β} {r : Routine ε σ β} (h : wp r post s)
    (hnext : ∀ b s, post.next b s → post'.next b s) (hreturned : ∀ s, post.returned s → post'.returned s)
    (hraised : ∀ e s, post.raised e s → post'.raised e s) : wp r post' s := by
  unfold wp at h ⊢
  split at h
  · exact hnext _ _ h
  · exact hreturned _ h
  · exact hraised _ _ h

lemma wp_raise {e : ε} (h : post.raised e s) : wp (throw (.raised e) : Routine ε σ β) post s := h

lemma wp_ofExcept {x : Except ε β} (hok : ∀ b, x = .ok b → post.next b s)
    (herror : ∀ e, x = .error e → post.raised e s) : wp (ofExcept x) post s := by
  cases x with
  | ok b => exact hok b rfl
  | error e => exact herror e rfl

lemma wp_attempt {post : Post ε σ (Except ε α)}
    (h : wp r ⟨fun a => post.next (.ok a), post.returned, fun e => post.next (.error e)⟩ s) :
    wp (attempt r) post s := by
  unfold wp attempt
  unfold wp at h
  rcases hr : r s with ⟨a, s'⟩ | ⟨_ | e, s'⟩ <;> rw [hr] at h <;> exact h

variable {post : Post ε σ Unit} {fault : S → Option ε} {catches : ε → Bool} {xs : List S}

lemma wp_stage {x : S} (hnext : fault x = none → post.next () s)
    (hraised : ∀ e, fault x = some e → post.raised e s) : wp (stage fault x) post s := by
  unfold stage
  cases hx : fault x with
  | none => exact hnext hx
  | some e => exact hraised e hx

/-- **Stages** go on if none of them has a fault, and raise one of their faults otherwise. -/
lemma wp_stages (hnext : (∀ x ∈ xs, fault x = none) → post.next () s)
    (hraised : ∀ x ∈ xs, ∀ e, fault x = some e → post.raised e s) :
    wp (stages fault xs) post s := by
  induction xs with
  | nil => exact hnext (by simp)
  | cons x xs ih =>
    apply wp_bind
    refine wp_stage (fun hx => ?_) fun e he => hraised x List.mem_cons_self e he
    refine ih (fun hall => hnext ?_) fun y hy => hraised y (List.mem_cons_of_mem x hy)
    intro y hy
    rcases List.mem_cons.mp hy with rfl | hy
    · exact hx
    · exact hall y hy

/-- **A `try` statement**: its body may raise what is caught where the handler leads to the
postcondition. -/
lemma wp_tryExcept {body handler : Routine ε σ Unit}
    (h : wp body ⟨post.next, post.returned, fun e s =>
      if catches e then wp handler post s else post.raised e s⟩ s) :
    wp (tryExcept catches body handler) post s := by
  unfold wp tryExcept
  unfold wp at h
  rcases hb : body s with ⟨a, s'⟩ | ⟨_ | e, s'⟩
  · rw [hb] at h
    exact h
  · rw [hb] at h
    exact h
  · rw [hb] at h
    cases hc : catches e with
    | true | false => simpa [hc] using h

lemma wp_tryExcept_stages (hnext : post.next () s)
    (hraised : ∀ x ∈ xs, ∀ e, fault x = some e → catches e = false → post.raised e s) :
    wp (tryExcept catches (stages fault xs) (pure ())) post s := by
  refine wp_tryExcept (wp_stages (fun _ => hnext) fun x hx e he => ?_)
  cases hc : catches e with
  | true => simpa [hc] using wp_pure hnext
  | false => simpa [hc] using hraised x hx e he hc

/-- **A call** ends as the routine does; the end of the routine is a return. -/
lemma call_of_wp {r : Routine ε σ Unit} {P : Called ε σ → Prop}
    (h : wp r ⟨fun _ s => P (.returned s), fun s => P (.returned s), fun e s => P (.raised e s)⟩ s) :
    P (call r s) := by
  unfold wp at h
  unfold call
  rcases hr : r s with ⟨a, s'⟩ | ⟨_ | e, s'⟩ <;> rw [hr] at h <;> exact h

lemma exec_of_wp {r : Routine ε σ α} {P : σ → Prop} (h : wp r (.always P) s) : P (exec r s) := by
  unfold wp at h
  unfold exec
  rcases hr : r s with ⟨a, s'⟩ | ⟨_ | e, s'⟩ <;> rw [hr] at h <;> exact h

end Routine
end Lodestar.Lib
