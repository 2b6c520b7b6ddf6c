import Lodestar.Lib.Mutex
import Lodestar.Lib.Run

/-!
# The registry with a customized array

`Registry` and `CustomizedRegistry` of `pkg/utils/registry.go`, the latter as a system of threads
that call `Store`, `Delete` and `Array`.  The fields of the embedded registry are only touched under
the lock, so each locked section touches them in one step.  The customized `values` is also touched
outside the lock, by the fast path of `Array` and by the assignments in front of `Store` and
`Delete`, so every access to it is a step of its own.

The order in which Go ranges over a map and whether the capacity of the slice is too small are
arguments.  Slices are lists: that a rebuilt slice may share the base array of an earlier one is left
out.
-/

namespace Lodestar.Utils

open List Function

/-! ### The embedded registry -/

abbrev StringMap (V : Type*) := AList fun _ : String => V

/-- `Registry`, as `NewRegistryWithArrayProvider` makes the embedded one: a map that is not made yet
is `none`. -/
structure Registry (V : Type*) where
  registry : Option (StringMap V) := none
  values : List V := []
  valid : Bool := false

/-- How `range` goes over the values of a map. -/
structure Range (V : Type*) where
  order : StringMap V → List V
  perm : ∀ m, (order m).Perm (m.entries.map Sigma.snd)

inductive Change (V : Type*) where
  | store (key : String) (value : V)
  | delete (key : String)
  deriving DecidableEq

namespace Registry

variable {V : Type*} (reg : Registry V)

def delete (key : String) : Registry V :=
  match reg.registry with
  | none => reg
  | some m =>
    if reg.values.length ≠ (m.erase key).entries.length then
      { registry := some (m.erase key), values := [], valid := false }
    else { reg with registry := some (m.erase key) }

def store (key : String) (value : V) : Registry V :=
  let m := reg.registry.getD ∅
  if reg.valid = true ∧ key ∉ m then
    { registry := some (m.insert key value), values := reg.values ++ [value], valid := true }
  else { registry := some (m.insert key value), values := [], valid := false }

def apply : Change V → Registry V
  | .store key value => reg.store key value
  | .delete key => reg.delete key

/-- `updateArrayLocked`: the registry afterwards, and whether the array was reconstructed. -/
def updateArrayLocked (range : Range V) (small : Bool) : Registry V × Bool :=
  match reg.registry with
  | none => (reg, false)
  | some m =>
    if reg.valid = false then
      let values := if small then [] else reg.values
      ({ reg with values := values ++ range.order m, valid := true }, true)
    else (reg, false)

def contents : List V := (reg.registry.getD ∅).entries.map Sigma.snd

def NoChange : Change V → Prop
  | .store key value => (reg.registry.getD ∅).lookup key = some value
  | .delete key => key ∉ reg.registry.getD ∅

instance [DecidableEq V] (c : Change V) : Decidable (reg.NoChange c) :=
  match c with
  | .store key value => inferInstanceAs (Decidable ((reg.registry.getD ∅).lookup key = some value))
  | .delete key => inferInstanceAs (Decidable (key ∉ reg.registry.getD ∅))

/-- A valid array has the values of the map, one that is not valid is empty. -/
structure WF : Prop where
  invalid : reg.valid = false → reg.values = []
  valid : reg.valid = true → reg.registry.isSome = true ∧ reg.values.Perm reg.contents

variable {reg}

lemma wf_new : WF ({} : Registry V) where
  invalid _ := rfl
  valid h := by cases h

attribute [local simp] contents

lemma WF.delete (h : WF reg) (key : String) : WF (reg.delete key) := by
  unfold Registry.delete
  cases hm : reg.registry with
  | none => exact h
  | some m =>
    dsimp only
    split
    · exact ⟨fun _ => rfl, fun hv => nomatch hv⟩
    · rename_i hlen
      push Not at hlen
      refine ⟨h.invalid, fun hv => ⟨rfl, ?_⟩⟩
      have hperm : reg.values.Perm (m.entries.map Sigma.snd) := by
        simpa [hm] using (h.valid hv).2
      -- the lengths agree, so nothing was deleted
      have hsame : (m.erase key).entries = m.entries := by
        apply (kerase_sublist key m.entries).eq_of_length
        have hlen' := hperm.length_eq
        rw [length_map] at hlen'
        exact hlen.symm.trans hlen'
      simpa [hsame] using hperm

lemma WF.store (h : WF reg) (key : String) (value : V) : WF (reg.store key value) := by
  unfold Registry.store
  dsimp only
  split
  · rename_i hnew
    refine ⟨fun hv => (nomatch hv), fun _ => ⟨rfl, ?_⟩⟩
    have hperm := (h.valid hnew.1).2
    show (reg.values ++ [value]).Perm
      (((reg.registry.getD ∅).insert key value).entries.map Sigma.snd)
    rw [AList.entries_insert_of_notMem hnew.2]
    exact (perm_append_singleton value reg.values).trans (hperm.cons value)
  · exact ⟨fun _ => rfl, fun hv => nomatch hv⟩

lemma WF.apply (h : WF reg) (c : Change V) : WF (reg.apply c) := by
  cases c with
  | store key value => exact h.store key value
  | delete key => exact h.delete key

/-- **A rebuilt array** has the values of the map, and only the cached array changes. -/
lemma WF.updateArrayLocked (h : WF reg) (range : Range V) (small : Bool) :
    WF (reg.updateArrayLocked range small).1 ∧
      (reg.updateArrayLocked range small).1.contents = reg.contents ∧
      (reg.updateArrayLocked range small).1.values.Perm reg.contents := by
  unfold Registry.updateArrayLocked
  cases hm : reg.registry with
  | none =>
    cases hv : reg.valid with
    | true => simpa [hm] using (h.valid hv).1
    | false => exact ⟨h, rfl, by simp [h.invalid hv, hm]⟩
  | some m =>
    cases hv : reg.valid with
    | true => exact ⟨h, rfl, (h.valid hv).2⟩
    | false =>
      have hperm : (range.order m).Perm reg.contents := by
        simpa [hm] using range.perm m
      simp only [h.invalid hv, ite_self]
      refine ⟨⟨fun hv => (nomatch hv), fun _ => ⟨rfl, ?_⟩⟩, ?_, hperm⟩
      · simpa [hm] using hperm
      · simp [hm]

lemma contents_store (key : String) (value : V) : (reg.store key value).contents =
    ((reg.registry.getD ∅).insert key value).entries.map Sigma.snd := by
  unfold Registry.store
  dsimp only
  split <;> rfl

lemma contents_delete (key : String) :
    (reg.delete key).contents = ((reg.registry.getD ∅).erase key).entries.map Sigma.snd := by
  unfold Registry.delete
  cases hm : reg.registry with
  | none => simp [hm, AList.erase]
  | some m =>
    dsimp only
    split <;> rfl

lemma entries_insert_perm {m : StringMap V} {key : String} {value : V}
    (h : m.lookup key = some value) : (m.insert key value).entries.Perm m.entries := by
  apply lookup_ext (m.insert key value).nodupKeys m.nodupKeys
  intro key' value'
  show value' ∈ (m.insert key value).lookup key' ↔ value' ∈ m.lookup key'
  by_cases hkey : key' = key
  · subst hkey
    rw [AList.lookup_insert, h]
  · rw [AList.lookup_insert_ne hkey]

lemma contents_store_perm (key : String) (value : V) :
    (reg.store key value).contents.Perm reg.contents ↔
      (reg.registry.getD ∅).lookup key = some value := by
  rw [contents_store]
  constructor
  · intro hperm
    cases hl : (reg.registry.getD ∅).lookup key with
    | none =>
      -- one value more
      rw [AList.entries_insert_of_notMem (AList.lookup_eq_none.mp hl)] at hperm
      have hlen := hperm.length_eq
      simp at hlen
    | some old =>
      -- the same values but for the one under the key
      have hold := (entries_insert_perm hl).map Sigma.snd
      rw [AList.entries_insert, map_cons] at hold hperm
      have hsame := Multiset.coe_eq_coe.mpr (hperm.trans hold.symm)
      rw [← Multiset.cons_coe] at hsame
      exact congrArg some ((Multiset.cons_inj_left _).mp hsame).symm
  · exact fun h => (entries_insert_perm h).map Sigma.snd

lemma contents_delete_perm (key : String) :
    (reg.delete key).contents.Perm reg.contents ↔ key ∉ reg.registry.getD ∅ := by
  rw [contents_delete]
  constructor
  · intro hperm hmem
    have hsame : ((reg.registry.getD ∅).erase key).entries = (reg.registry.getD ∅).entries := by
      apply (kerase_sublist key _).eq_of_length
      have hlen := hperm.length_eq
      rwa [contents, length_map, length_map] at hlen
    have herased : key ∉ (reg.registry.getD ∅).erase key := by simp
    rw [AList.ext hsame] at herased
    exact herased hmem
  · intro hmem
    have hsame : ((reg.registry.getD ∅).erase key).entries = (reg.registry.getD ∅).entries :=
      kerase_of_notMem_keys hmem
    rw [hsame]
    exact List.Perm.refl _

lemma contents_apply_perm (c : Change V) :
    (reg.apply c).contents.Perm reg.contents ↔ reg.NoChange c := by
  cases c with
  | store key value => exact contents_store_perm key value
  | delete key => exact contents_delete_perm key

end Registry

/-! ### Threads -/

inductive Pc (V A : Type*) where
  | idle
  -- `Store` and `Delete`
  | invalidate (c : Change V)
  | changeLock (c : Change V)
  | change (c : Change V)
  | changeUnlock
  -- `Array`
  | arrayRead
  | arrayLock
  | reconstruct
  | arrayTest (values : List V) (reconstructed : Bool)
  | arrayWrite (values : List V)
  | arrayReturn
  | arrayUnlock (arr : A)
  deriving DecidableEq

namespace Pc

variable {V A : Type*}

def isIdle : Pc V A → Bool
  | .idle => true
  | _ => false

lemma isIdle_iff {p : Pc V A} : p.isIdle = true ↔ p = .idle := by
  cases p <;> simp [isIdle]

def inSection : Pc V A → Bool
  | .change _ | .changeUnlock => true
  | .reconstruct | .arrayTest _ _ | .arrayWrite _ | .arrayReturn | .arrayUnlock _ => true
  | _ => false

/-- The thread is in `Array`. -/
def inArray : Pc V A → Bool
  | .arrayRead | .arrayLock | .reconstruct | .arrayTest _ _ | .arrayWrite _ => true
  | .arrayReturn | .arrayUnlock _ => true
  | _ => false

end Pc

/-- What an `Array` call has returned, with the values of the registry at each moment of the call. -/
structure Answer (V A : Type*) where
  value : A
  seen : List (List V)
  deriving DecidableEq

/-- `CustomizedRegistry` and the threads that use it.  Two fields are there for the statements only:
`seen`, the values of the registry at each moment of the present call of a thread, and the answers of
the calls that have returned. -/
structure CustomizedRegistry (V A τ : Type*) where
  registry : Registry V := {}
  values : A
  mu : Option τ := none
  pc : τ → Pc V A := fun _ => .idle
  seen : τ → List (List V) := fun _ => []
  answers : List (Answer V A) := []

namespace CustomizedRegistry

variable {V A τ : Type*} [DecidableEq A] [DecidableEq τ]
variable (nilVal : A) (valuesProvider : List V → A) (s : CustomizedRegistry V A τ) (t : τ)

def goto (p : Pc V A) : CustomizedRegistry V A τ := { s with pc := update s.pc t p }

/-- `reg.mu.Lock()`: the thread gets the lock when nobody has it. -/
def lock (p : Pc V A) : CustomizedRegistry V A τ :=
  match s.mu with
  | none => { s with mu := some t, pc := update s.pc t p }
  | some _ => s

def answer (arr : A) : CustomizedRegistry V A τ :=
  { s with
    pc := update s.pc t .idle
    answers := ⟨arr, s.seen t⟩ :: s.answers }

/-- The locked part of `Store` and `Delete`. -/
def apply (c : Change V) : CustomizedRegistry V A τ :=
  { s with
    registry := s.registry.apply c
    seen := fun u => (s.registry.apply c).contents :: s.seen u }

def next (range : Range V) (small : Bool) : CustomizedRegistry V A τ :=
  match s.pc t with
  | .idle => s
  | .invalidate c => { s with values := nilVal }.goto t (.changeLock c)
  | .changeLock c => s.lock t (.change c)
  | .change c => (s.apply c).goto t .changeUnlock
  | .changeUnlock => { s with mu := none }.goto t .idle
  | .arrayRead => if s.values ≠ nilVal then s.answer t s.values else s.goto t .arrayLock
  | .arrayLock => s.lock t .reconstruct
  | .reconstruct =>
    let (registry, reconstructed) := s.registry.updateArrayLocked range small
    { s with registry := registry }.goto t (.arrayTest registry.values reconstructed)
  | .arrayTest values reconstructed =>
    s.goto t (if reconstructed = true ∨ s.values = nilVal then .arrayWrite values else .arrayReturn)
  | .arrayWrite values => { s with values := valuesProvider values }.goto t .arrayReturn
  | .arrayReturn => s.goto t (.arrayUnlock s.values)
  | .arrayUnlock arr => { s with mu := none }.answer t arr

/-- What can happen: an idle thread calls `Store` or `Delete`, or `Array`, or a thread takes its next
step. -/
inductive Event (V τ : Type*) where
  | change (t : τ) (c : Change V)
  | array (t : τ)
  | next (t : τ) (range : Range V) (small : Bool)

def step (s : CustomizedRegistry V A τ) : Event V τ → CustomizedRegistry V A τ
  | .change t c => if (s.pc t).isIdle then s.goto t (.invalidate c) else s
  | .array t =>
    if (s.pc t).isIdle then
      { s with seen := update s.seen t [s.registry.contents] }.goto t .arrayRead
    else s
  | .next t range small => s.next nilVal valuesProvider t range small

def run (es : List (Event V τ)) : CustomizedRegistry V A τ :=
  es.foldl (step nilVal valuesProvider) { values := nilVal }

/-! ### Conditions -/

def Fits (arr : A) (contents : List V) : Prop :=
  ∃ values, values.Perm contents ∧ arr = valuesProvider values

/-- What an `Array` call is to return. -/
def Right (a : Answer V A) : Prop := ∃ contents ∈ a.seen, Fits valuesProvider a.value contents

/-- The cached array, where there is one, is made of the values in the registry. -/
def Current : Prop := s.values = nilVal ∨ Fits valuesProvider s.values s.registry.contents

/-- No array is cached when a `Store` or `Delete` changes the map. -/
def Keeps : Event V τ → Prop
  | .next t _ _ =>
    match s.pc t with
    | .change c => s.values = nilVal ∨ s.registry.NoChange c
    | _ => True
  | _ => True

/-- `Keeps`, and no `Store` or `Delete` invalidates the array while an `Array` call that has the lock
is about to read its result. -/
def TimelyAt : Pc V A → Prop
  | .change c => s.values = nilVal ∨ s.registry.NoChange c
  | .invalidate _ => ∀ u, s.pc u ≠ .arrayReturn
  | _ => True

def Timely : Event V τ → Prop
  | .next t _ _ => s.TimelyAt nilVal (s.pc t)
  | _ => True

/-! ### What holds whatever the order of the steps -/

def Rebuilt (contents : List V) : Pc V A → Prop
  | .arrayTest values _ => values.Perm contents
  | .arrayWrite values => values.Perm contents
  | _ => True

structure Base : Prop where
  wf : s.registry.WF
  mutex : Lib.Mutex Pc.inSection s.pc s.mu
  rebuilt : ∀ u, Rebuilt s.registry.contents (s.pc u)

/-- What an `Array` call is going to return. -/
def Served (seen : List (List V)) : Pc V A → Prop
  | .arrayReturn => Fits valuesProvider s.values s.registry.contents
  | .arrayUnlock arr => ∃ contents ∈ seen, Fits valuesProvider arr contents
  | _ => True

structure Inv : Prop where
  base : Base s
  current : Current nilVal valuesProvider s
  seen : ∀ u, (s.pc u).inArray = true → s.registry.contents ∈ s.seen u
  served : ∀ u, Served valuesProvider s (s.seen u) (s.pc u)
  right : ∀ a ∈ s.answers, Right valuesProvider a

variable {nilVal valuesProvider s t}
omit [DecidableEq A] [DecidableEq τ] in
lemma base_new : Base ({ values := nilVal } : CustomizedRegistry V A τ) where
  wf := Registry.wf_new
  mutex u := by simp [Pc.inSection]
  rebuilt u := trivial

variable {p : Pc V A}
omit [DecidableEq A] [DecidableEq τ] in
lemma rebuilt_of_outside {contents : List V} (hp : p.inSection = false) : Rebuilt contents p := by
  cases p <;> trivial

variable {s' : CustomizedRegistry V A τ}
omit [DecidableEq A] in
lemma Base.move (h : Base s) (hpc : s'.pc = update s.pc t p)
    (hmu : s'.mu = if p.inSection then some t else if (s.pc t).inSection then none else s.mu)
    (hfree : p.inSection = true → (s.pc t).inSection = true ∨ s.mu = none) (hwf : s'.registry.WF)
    (hsame : s'.registry.contents = s.registry.contents ∨ (s.pc t).inSection = true)
    (hp : Rebuilt s'.registry.contents p) : Base s' where
  wf := hwf
  mutex := by
    rw [hpc, hmu]
    exact h.mutex.move hfree
  rebuilt u := by
    rw [hpc]
    by_cases hu : u = t
    · subst hu
      rw [update_self]
      exact hp
    · rw [update_of_ne hu]
      rcases hsame with hsame | hin
      · rw [hsame]
        exact h.rebuilt u
      · exact rebuilt_of_outside (h.mutex.alone (.inl hin) hu)

attribute [local simp] Rebuilt goto answer

lemma Base.next (h : Base s) (t : τ) (range : Range V) (small : Bool) :
    Base (s.next nilVal valuesProvider t range small) := by
  have hlock : ∀ p : Pc V A, p.inSection = true → Rebuilt s.registry.contents p →
      (s.pc t).inSection = false → Base (s.lock t p) := by
    intro p hp hr hout
    unfold CustomizedRegistry.lock
    cases hmu : s.mu with
    | some _ => exact h
    | none =>
      apply h.move (t := t) (p := p)
      · rfl
      · simp [hp]
      · exact fun _ => .inr hmu
      · exact h.wf
      · exact .inl rfl
      · exact hr
  have hin := (h.mutex t).mp
  have hr := h.rebuilt t
  unfold CustomizedRegistry.next
  cases hp : s.pc t with
  | idle => exact h
  | invalidate c =>
    apply h.move (t := t) (p := .changeLock c) <;> simp [hp, h.wf, Pc.inSection]
  | changeLock | arrayLock => exact hlock _ rfl trivial (by rw [hp]; rfl)
  | change c =>
    apply h.move (t := t) (p := .changeUnlock) <;>
      simp [hp, h.wf.apply c, Pc.inSection, CustomizedRegistry.apply, hin]
  | changeUnlock =>
    apply h.move (t := t) (p := .idle) <;> simp [hp, h.wf, Pc.inSection]
  | arrayRead =>
    dsimp only
    split
    · apply h.move (t := t) (p := .idle) <;> simp [hp, h.wf, Pc.inSection]
    · apply h.move (t := t) (p := .arrayLock) <;> simp [hp, h.wf, Pc.inSection]
  | reconstruct =>
    obtain ⟨hwf, hsame, hperm⟩ := h.wf.updateArrayLocked range small
    apply h.move (t := t)
      (p := .arrayTest (s.registry.updateArrayLocked range small).1.values
        (s.registry.updateArrayLocked range small).2) <;>
      simp [hp, hwf, hsame, hperm, Pc.inSection, hin]
  | arrayTest values reconstructed =>
    dsimp only
    split
    · have hvalues : values.Perm s.registry.contents := by simpa [hp] using hr
      apply h.move (t := t) (p := .arrayWrite values) <;>
        simp [hp, h.wf, hvalues, Pc.inSection, hin]
    · apply h.move (t := t) (p := .arrayReturn) <;> simp [hp, h.wf, Pc.inSection, hin]
  | arrayWrite values =>
    apply h.move (t := t) (p := .arrayReturn) <;> simp [hp, h.wf, Pc.inSection, hin]
  | arrayReturn =>
    apply h.move (t := t) (p := .arrayUnlock s.values) <;> simp [hp, h.wf, Pc.inSection, hin]
  | arrayUnlock arr =>
    apply h.move (t := t) (p := .idle) <;> simp [hp, h.wf, Pc.inSection]

lemma Base.step (h : Base s) (e : Event V τ) : Base (s.step nilVal valuesProvider e) := by
  cases e with
  | next t range small => exact h.next t range small
  | change t c =>
    unfold CustomizedRegistry.step
    dsimp only
    split
    · have hp := Pc.isIdle_iff.mp ‹_›
      apply h.move (t := t) (p := .invalidate c) <;> simp [hp, h.wf, Pc.inSection]
    · exact h
  | array t =>
    unfold CustomizedRegistry.step
    dsimp only
    split
    · have hp := Pc.isIdle_iff.mp ‹_›
      apply h.move (t := t) (p := .arrayRead) <;> simp [hp, h.wf, Pc.inSection]
    · exact h

omit [DecidableEq A] [DecidableEq τ] in
lemma Fits.perm {arr : A} {contents contents' : List V} (h : Fits valuesProvider arr contents)
    (hperm : contents.Perm contents') : Fits valuesProvider arr contents' := by
  obtain ⟨values, hvalues, harr⟩ := h
  exact ⟨values, hvalues.trans hperm, harr⟩

variable {e : Event V τ}

/-- **The cached array stays current** where no array is cached when a call changes the map. -/
lemma Current.step (hb : Base s) (h : Current nilVal valuesProvider s) (he : Keeps nilVal s e) :
    Current nilVal valuesProvider (s.step nilVal valuesProvider e) := by
  cases e with
  | change | array =>
    unfold CustomizedRegistry.step
    dsimp only
    split <;> exact h
  | next t range small =>
    have hlock : ∀ p, Current nilVal valuesProvider (s.lock t p) := by
      intro p
      unfold CustomizedRegistry.lock
      cases s.mu <;> exact h
    show Current nilVal valuesProvider (s.next nilVal valuesProvider t range small)
    unfold CustomizedRegistry.next
    cases hp : s.pc t with
    | invalidate c => exact .inl rfl
    | changeLock | arrayLock => exact hlock _
    | change c =>
      simp only [Keeps, hp] at he
      rcases he with hnil | hsame
      · exact .inl hnil
      · refine h.imp id fun hfits => ?_
        exact hfits.perm ((Registry.contents_apply_perm c).mpr hsame).symm
    | reconstruct =>
      obtain ⟨_, hsame, _⟩ := hb.wf.updateArrayLocked range small
      refine h.imp id fun hfits => ?_
      exact hfits.perm (List.Perm.of_eq hsame.symm)
    | arrayWrite values =>
      have hvalues := hb.rebuilt t
      rw [hp] at hvalues
      exact .inr ⟨values, hvalues, rfl⟩
    | arrayRead =>
      dsimp only
      split <;> exact h
    | _ => exact h

/-! ### Answers -/

omit [DecidableEq A] [DecidableEq τ] in
lemma inv_new : Inv nilVal valuesProvider ({ values := nilVal } : CustomizedRegistry V A τ) where
  base := base_new
  current := .inl rfl
  seen u hu := nomatch hu
  served u := trivial
  right a ha := by simp at ha

variable (nilVal valuesProvider s) in
/-- What `Inv` says of the calls of `Array`, under way and returned. -/
structure Calls : Prop where
  seen : ∀ u, (s.pc u).inArray = true → s.registry.contents ∈ s.seen u
  served : ∀ u, Served valuesProvider s (s.seen u) (s.pc u)
  right : ∀ a ∈ s.answers, Right valuesProvider a

structure Others (s s' : CustomizedRegistry V A τ) (t : τ) : Prop where
  pc : ∀ u ≠ t, s'.pc u = s.pc u
  seen : ∀ u ≠ t, s.seen u ⊆ s'.seen u
  contents : ∀ u ≠ t, s.registry.contents ∈ s.seen u → s'.registry.contents ∈ s'.seen u

omit [DecidableEq A] [DecidableEq τ] in
lemma Inv.fits {u : τ} (h : Inv nilVal valuesProvider s) (hu : s.pc u = .arrayReturn) :
    Fits valuesProvider s.values s.registry.contents := by
  have hserved := h.served u
  rwa [hu] at hserved

omit [DecidableEq A] in
lemma Inv.of_others (h : Inv nilVal valuesProvider s) (ho : Others s s' t)
    (hfits : ∀ u ≠ t, s.pc u = .arrayReturn → Fits valuesProvider s'.values s'.registry.contents)
    (hseen : (s'.pc t).inArray = true → s'.registry.contents ∈ s'.seen t)
    (hserved : Served valuesProvider s' (s'.seen t) (s'.pc t))
    (hright : ∀ a ∈ s'.answers, Right valuesProvider a) : Calls valuesProvider s' where
  seen u hu := by
    by_cases hut : u = t
    · subst hut
      exact hseen hu
    · rw [ho.pc u hut] at hu
      exact ho.contents u hut (h.seen u hu)
  served u := by
    by_cases hut : u = t
    · subst hut
      exact hserved
    · rw [ho.pc u hut]
      have hu := h.served u
      cases hp : s.pc u with
      | arrayReturn => exact hfits u hut hp
      | arrayUnlock arr =>
        rw [hp] at hu
        obtain ⟨contents, hmem, hc⟩ := hu
        exact ⟨contents, ho.seen u hut hmem, hc⟩
      | _ => exact trivial
  right := hright

omit [DecidableEq A] in
lemma Others.of_same (hpc : s'.pc = update s.pc t p) (hseen : s'.seen = s.seen)
    (hcontents : s'.registry.contents = s.registry.contents) : Others s s' t where
  pc u hu := by rw [hpc, update_of_ne hu]
  seen u _ := by rw [hseen]; exact List.Subset.refl _
  contents u _ hmem := by rwa [hseen, hcontents]

omit [DecidableEq A] in
/-- A thread goes on, with the lock or without it, and leaves the rest as it is. -/
lemma Inv.goto (h : Inv nilVal valuesProvider s) {mu : Option τ}
    (harray : p.inArray = true → (s.pc t).inArray = true)
    (hserved : Served valuesProvider s (s.seen t) p) :
    Calls valuesProvider { s with mu := mu, pc := update s.pc t p } := by
  refine h.of_others (t := t) (.of_same rfl rfl rfl) (fun u _ => h.fits) ?_ ?_ h.right
  · simpa using fun hp => h.seen t (harray hp)
  · simp only [update_self]
    cases p <;> exact hserved

omit [DecidableEq A] [DecidableEq τ] in
lemma Timely.keeps (h : Timely nilVal s e) : Keeps nilVal s e := by
  cases e with
  | change | array => exact trivial
  | next t range small =>
    cases hp : s.pc t with
    | change c => simpa only [Timely, TimelyAt, Keeps, hp] using h
    | _ => simp only [Keeps, hp]

attribute [local simp] CustomizedRegistry.goto Pc.inArray Served

section

variable (h : Inv nilVal valuesProvider s)
include h

/-- **One step** keeps what holds of the calls, if it is timely. -/
lemma Inv.next {range : Range V} {small : Bool}
    (he : Timely nilVal s (.next t range small)) :
    Calls valuesProvider (s.next nilVal valuesProvider t range small) := by
  -- a thread under the lock is the only one
  have halone : (s.pc t).inSection = true → ∀ u ≠ t, s.pc u ≠ .arrayReturn := by
    intro ht u hu hp
    have hout := h.base.mutex.alone (.inl ht) hu
    rw [hp] at hout
    cases hout
  have hlock : ∀ p : Pc V A, (p.inArray = true → (s.pc t).inArray = true) →
      Served valuesProvider s (s.seen t) p → Calls valuesProvider (s.lock t p) := by
    intro p harray hp
    unfold CustomizedRegistry.lock
    cases s.mu with
    | some _ => exact ⟨h.seen, h.served, h.right⟩
    | none => exact h.goto harray hp
  have hseen := h.seen t
  have hserved := h.served t
  unfold CustomizedRegistry.next
  cases hp : s.pc t with
  | idle => exact ⟨h.seen, h.served, h.right⟩
  | invalidate c =>
    refine h.of_others (.of_same rfl rfl rfl) ?_ ?_ ?_ h.right
    · intro u _ hu
      simp only [Timely, hp] at he
      exact absurd hu (he u)
    · simp
    · simp
  | changeLock c => exact hlock _ (fun hc => nomatch hc) trivial
  | change c =>
    refine h.of_others (t := t) ⟨?_, ?_, ?_⟩ ?_ ?_ ?_ h.right
    · intro u hu
      simp [CustomizedRegistry.apply, hu]
    · intro u _
      exact subset_cons_self _ _
    · intro u _ _
      exact mem_cons_self
    · intro u hut hu
      exact absurd hu (halone (by rw [hp]; rfl) u hut)
    · simp
    · simp
  | changeUnlock => exact h.goto (fun hc => nomatch hc) trivial
  | arrayRead =>
    dsimp only
    split
    · rename_i hnil
      refine h.of_others (t := t) (.of_same rfl rfl rfl) (fun u _ => h.fits) ?_ ?_ ?_
      · simp
      · simp
      · -- the fast path: the cached array is current
        rintro a (_ | ⟨_, ha⟩)
        · exact ⟨_, hseen (by rw [hp]; rfl), h.current.resolve_left hnil⟩
        · exact h.right a ha
    · exact h.goto (by simp [hp]) trivial
  | arrayLock => exact hlock _ (by simp [hp]) trivial
  | reconstruct =>
    obtain ⟨_, hsame, _⟩ := h.base.wf.updateArrayLocked range small
    refine h.of_others (t := t) (.of_same rfl rfl hsame) ?_ ?_ ?_ h.right
    · intro u hut hu
      exact absurd hu (halone (by rw [hp]; rfl) u hut)
    · intro _
      show (s.registry.updateArrayLocked range small).1.contents ∈ s.seen t
      rw [hsame]
      exact hseen (by rw [hp]; rfl)
    · simp
  | arrayTest values reconstructed =>
    refine h.goto (by simp [hp]) ?_
    split
    · exact trivial
    · -- an array that is cached already is returned as it is
      rename_i hcached
      exact h.current.resolve_left fun hnil => hcached (.inr hnil)
  | arrayWrite values =>
    have hvalues := h.base.rebuilt t
    rw [hp] at hvalues
    refine h.of_others (t := t) (.of_same rfl rfl rfl) ?_ ?_ ?_ h.right
    · exact fun _ _ _ => ⟨values, hvalues, rfl⟩
    · exact fun _ => hseen (by rw [hp]; rfl)
    · simp only [CustomizedRegistry.goto, update_self]
      exact ⟨values, hvalues, rfl⟩
  | arrayReturn =>
    exact h.goto (by simp [hp]) ⟨_, hseen (by rw [hp]; rfl), h.fits hp⟩
  | arrayUnlock arr =>
    rw [hp] at hserved
    refine h.of_others (.of_same rfl rfl rfl) (fun u _ => h.fits) ?_ ?_ ?_
    · simp
    · simp
    · rintro a (_ | ⟨_, ha⟩)
      · exact hserved
      · exact h.right a ha

lemma Inv.calls (he : Timely nilVal s e) :
    Calls valuesProvider (s.step nilVal valuesProvider e) := by
  cases e with
  | next t range small => exact h.next he
  | change t c =>
    unfold CustomizedRegistry.step
    dsimp only
    split
    · exact h.goto (fun hc => nomatch hc) trivial
    · exact ⟨h.seen, h.served, h.right⟩
  | array t =>
    unfold CustomizedRegistry.step
    dsimp only
    split
    · refine h.of_others (t := t) ⟨?_, ?_, ?_⟩ (fun u _ => h.fits) ?_ ?_ h.right
      · intro u hu
        simp [hu]
      · intro u hu
        simp [hu]
      · intro u hu hmem
        simpa [hu] using hmem
      · simp
      · simp
    · exact ⟨h.seen, h.served, h.right⟩

/-- **One step** keeps the invariant, if it is timely. -/
lemma Inv.step (he : Timely nilVal s e) :
    Inv nilVal valuesProvider (s.step nilVal valuesProvider e) :=
  have hcalls := h.calls he
  ⟨h.base.step e, h.current.step h.base he.keeps, hcalls.seen, hcalls.served, hcalls.right⟩

end

/-- **No stale array**: in a run in which no array is cached when a `Store` or `Delete` changes the
map, and none of them invalidates the array while an `Array` call is about to read its result, every
`Array` call has returned exactly the values that were in the registry at some moment of the call; so
exactly the values in the registry, where nothing was changed during the call. -/
theorem right_run (es : List (Event V τ))
    (h : Lib.Along (step nilVal valuesProvider) (Timely nilVal) { values := nilVal } es) :
    ∀ a ∈ (run nilVal valuesProvider es).answers, Right valuesProvider a :=
  (h.invariant inv_new fun _ _ hi he => hi.step he).right

/-! ### Two runs -/

instance [DecidableEq V] [Fintype τ] (s : CustomizedRegistry V A τ) :
    ∀ p, Decidable (s.TimelyAt nilVal p)
  | .change c => inferInstanceAs (Decidable (s.values = nilVal ∨ s.registry.NoChange c))
  | .invalidate _ => inferInstanceAs (Decidable (∀ u, s.pc u ≠ .arrayReturn))
  | .idle | .changeLock _ | .changeUnlock | .arrayRead | .arrayLock | .reconstruct
  | .arrayTest _ _ | .arrayWrite _ | .arrayReturn | .arrayUnlock _ => isTrue trivial

instance [DecidableEq V] [Fintype τ] (s : CustomizedRegistry V A τ) :
    ∀ e, Decidable (Timely nilVal s e)
  | .next t _ _ => inferInstanceAs (Decidable (s.TimelyAt nilVal (s.pc t)))
  | .change _ _ | .array _ => isTrue trivial

/-- `range` in the order of the list. -/
def inOrder : Range ℕ := ⟨fun m => m.entries.map Sigma.snd, fun _ => List.Perm.refl _⟩

def steps (n : ℕ) (t : Bool) : List (Event ℕ Bool) := List.replicate n (.next t inOrder false)

/-- `Store`, alone. -/
def storeCall (t : Bool) (key : String) (value : ℕ) : List (Event ℕ Bool) :=
  .change t (.store key value) :: steps 4 t

/-- `Array`, alone and with nothing cached. -/
def arrayCall (t : Bool) : List (Event ℕ Bool) := .array t :: steps 7 t

theorem right_run_store_array :
    Lib.Along (step none some) (Timely none) ({ values := none } : CustomizedRegistry ℕ _ Bool)
      (storeCall false "a" 1 ++ arrayCall true) ∧
    (run none some (storeCall false "a" 1 ++ arrayCall true)).answers.length = 1 ∧
    ∀ a ∈ (run none some (storeCall false "a" 1 ++ arrayCall true)).answers, Right some a :=
  ⟨by decide +kernel, by decide +kernel, right_run _ (by decide +kernel)⟩

/-- The other thread rebuilds the array between the invalidation of a `Store` and its change of the
map.  The next `Array` call after the `Store` has returned gets the old array. -/
def staleEvents : List (Event ℕ Bool) :=
  storeCall false "a" 1 ++ [.change false (.store "b" 2)] ++ steps 1 false ++ arrayCall true ++
    steps 3 false ++ [.array true] ++ steps 1 true

theorem stale_array : (∀ t, (run none some staleEvents).pc t = .idle) ∧
    (run none some staleEvents).registry.contents = [2, 1] ∧
    (run none some staleEvents).answers.head? = some ⟨some [1], [[2, 1]]⟩ ∧
    ¬ ∀ a ∈ (run none some staleEvents).answers, Right some a := by
  have hlast : (run none some staleEvents).answers.head? = some ⟨some [1], [[2, 1]]⟩ := by
    decide +kernel
  refine ⟨by decide +kernel, by decide +kernel, hlast, fun h => ?_⟩
  obtain ⟨contents, hmem, values, hperm, hvalue⟩ := h _ (mem_of_mem_head? hlast)
  rw [List.mem_singleton.mp hmem, ← Option.some.inj hvalue] at hperm
  simpa using hperm.length_eq

-- an invalidation in front of the last read makes `Array` return no array at all
example : (run none some (storeCall false "a" 1 ++ .array true :: steps 5 true ++
    .change false (.delete "b") :: steps 1 false ++ steps 2 true)).answers.head? =
      some ⟨none, [[1]]⟩ := by
  decide +kernel

end CustomizedRegistry
end Lodestar.Utils
