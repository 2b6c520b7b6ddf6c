import Mathlib

/-!
# Shared totals and what each party holds of them

Parties book amounts on accounts that all of them share.  A party has already made
some bookings and still has others in its queue.  `Solvent` says that while it works
through the queue it never holds less than nothing on any account, `Settles` that it
also ends with a given holding.  `Ledger` says that every total is its base plus what
the parties hold; a booking by any party keeps that, so the totals never fall below
their base (`Ledger.le_total`) and are back at it when nobody holds anything
(`Ledger.total_eq_base`).
-/

namespace Lodestar.Lib

open List Function

section

variable {α K : Type*} (amount : α → K → ℤ)

def sumOf (as : List α) (k : K) : ℤ := (as.map fun a => amount a k).sum

variable {amount} {h h' h'' : K → ℤ} {as bs : List α} {a : α}

@[simp]
lemma sumOf_nil (k : K) : sumOf amount [] k = 0 := rfl

@[simp]
lemma sumOf_cons (k : K) : sumOf amount (a :: as) k = amount a k + sumOf amount as k := by
  simp [sumOf]

@[simp]
lemma sumOf_append (k : K) : sumOf amount (as ++ bs) k = sumOf amount as k + sumOf amount bs k := by
  simp [sumOf]

variable (amount) in
/-- Along the bookings the holding never falls below nothing. -/
def Solvent (h : K → ℤ) (as : List α) : Prop :=
  ∀ bs, bs <+: as → ∀ k, 0 ≤ h k + sumOf amount bs k

lemma solvent_nil : Solvent amount h [] ↔ ∀ k, 0 ≤ h k := by
  simp [Solvent]

lemma solvent_cons : Solvent amount h (a :: as) ↔
    (∀ k, 0 ≤ h k) ∧ Solvent amount (fun k => h k + amount a k) as := by
  constructor
  · intro hs
    refine ⟨fun k => by simpa using hs [] ( nil_prefix) k, fun bs hbs k => ?_⟩
    have := hs (a :: bs) (cons_prefix_cons.mpr ⟨rfl, hbs⟩) k
    rwa [sumOf_cons, ← add_assoc] at this
  · rintro ⟨h0, hs⟩ bs hbs k
    cases bs with
    | nil => simpa using h0 k
    | cons b bs =>
      obtain ⟨rfl, hbs'⟩ := cons_prefix_cons.mp hbs
      have := hs bs hbs' k
      rwa [sumOf_cons, ← add_assoc]

lemma Solvent.nonneg (hs : Solvent amount h as) (k : K) : 0 ≤ h k := by
  simpa using hs [] nil_prefix k

lemma Solvent.append (hs : Solvent amount h as)
    (hs' : Solvent amount (fun k => h k + sumOf amount as k) bs) : Solvent amount h (as ++ bs) := by
  induction as generalizing h with
  | nil => simpa using hs'
  | cons a as ih =>
    obtain ⟨h0, hs⟩ := solvent_cons.mp hs
    refine solvent_cons.mpr ⟨h0, ih hs ?_⟩
    simpa only [sumOf_cons, add_assoc] using hs'

variable (amount) in
/-- The bookings lead from one holding to another and are solvent on the way. -/
structure Settles (h : K → ℤ) (as : List α) (h' : K → ℤ) : Prop where
  solvent : Solvent amount h as
  sum_eq : ∀ k, h k + sumOf amount as k = h' k

namespace Settles

lemma nil (h0 : ∀ k, 0 ≤ h k) : Settles amount h [] h := ⟨solvent_nil.mpr h0, fun k => by simp⟩

lemma nil_iff : Settles amount h [] h' ↔ (∀ k, 0 ≤ h k) ∧ ∀ k, h k = h' k :=
  ⟨fun hs => ⟨hs.solvent.nonneg, fun k => by simpa using hs.sum_eq k⟩,
    fun ⟨h0, he⟩ => ⟨solvent_nil.mpr h0, fun k => by simpa using he k⟩⟩

lemma eq_of_nil (hs : Settles amount h [] h') : h = h' := funext fun k => by simpa using hs.sum_eq k

lemma trans (hs : Settles amount h as h') (hs' : Settles amount h' bs h'') :
    Settles amount h (as ++ bs) h'' := by
  have he : (fun k => h k + sumOf amount as k) = h' := funext hs.sum_eq
  refine ⟨hs.solvent.append (he ▸ hs'.solvent), fun k => ?_⟩
  rw [sumOf_append, ← add_assoc, hs.sum_eq, hs'.sum_eq]

lemma cons_iff : Settles amount h (a :: as) h' ↔
    (∀ k, 0 ≤ h k) ∧ Settles amount (fun k => h k + amount a k) as h' := by
  constructor
  · rintro ⟨hs, he⟩
    obtain ⟨h0, hs⟩ := solvent_cons.mp hs
    exact ⟨h0, hs, fun k => by rw [← he k, sumOf_cons, add_assoc]⟩
  · rintro ⟨h0, hs, he⟩
    exact ⟨solvent_cons.mpr ⟨h0, hs⟩, fun k => by rw [← he k, sumOf_cons, add_assoc]⟩

lemma of_neutral (h0 : ∀ k, 0 ≤ h k) (hn : ∀ a ∈ as, ∀ k, amount a k = 0) :
    Settles amount h as h := by
  induction as with
  | nil => exact nil h0
  | cons a as ih =>
    have ha := hn a mem_cons_self
    refine cons_iff.mpr ⟨h0, ?_⟩
    simpa only [ha, add_zero] using ih fun b hb => hn b (mem_cons_of_mem _ hb)

end Settles
end

section

variable {K : Type*} [DecidableEq K]

def entry (m : K × ℤ) (k : K) : ℤ := if k = m.1 then m.2 else 0

lemma Solvent.prefix_of_single {l : List (K × ℤ)} {o : Option K}
    (hs : Solvent entry (fun _ => 0) l) (hunit : ∀ m ∈ l, m.2 = 1 ∨ m.2 = -1)
    (hpos : l.filter (fun m => 0 < m.2) = (o.map (·, (1 : ℤ))).toList) :
    l <+: o.elim [] fun k => [(k, 1), (k, -1)] := by
  -- the first entry cannot give anything back, so it is the one that takes
  match l, hs, hunit, hpos with
  | [], _, _, _ => exact nil_prefix
  | (a, v) :: l, hs, hunit, hpos =>
    obtain ⟨-, hs⟩ := solvent_cons.mp hs
    have hv : v = 1 := by
      have := hs.nonneg a
      rcases hunit (a, v) mem_cons_self with h | h
      · exact h
      · simp [entry, show v = -1 from h] at this
    subst hv
    rw [filter_cons_of_pos (by simp)] at hpos
    cases o with
    | none => simp at hpos
    | some k =>
      simp only [Option.map_some, Option.toList_some, List.cons.injEq, Prod.mk.injEq, and_true]
        at hpos
      obtain ⟨rfl, hrest⟩ := hpos
      have hneg : ∀ m ∈ l, m.2 = -1 := by
        intro m hm
        refine (hunit m (mem_cons_of_mem _ hm)).resolve_left fun h => ?_
        have := filter_eq_nil_iff.mp hrest m hm
        simp [h] at this
      refine cons_prefix_cons.mpr ⟨rfl, ?_⟩
      match l, hs, hneg with
      | [], _, _ => exact nil_prefix
      | (b, w) :: l, hs, hneg =>
        obtain ⟨-, hs⟩ := solvent_cons.mp hs
        obtain rfl : w = -1 := hneg (b, w) mem_cons_self
        have hb : b = a := by
          by_contra hne
          have := hs.nonneg b
          simp [entry, hne] at this
        subst hb
        match l, hs, hneg with
        | [], _, _ => exact prefix_refl _
        | (c, w) :: l, hs, hneg =>
          obtain ⟨-, hs⟩ := solvent_cons.mp hs
          obtain rfl : w = -1 := hneg (c, w) (mem_cons_of_mem _ mem_cons_self)
          have := hs.nonneg c
          by_cases hc : c = b <;> simp [entry, hc] at this

lemma sumOf_entry_of_pair {l : List (K × ℤ)} {o : Option K}
    (h : l <+: o.elim [] fun k => [(k, 1), (k, -1)]) (k : K) :
    sumOf entry l k = if l = [(k, 1)] then 1 else 0 := by
  cases o with
  | none =>
    obtain rfl := prefix_nil.mp h
    rfl
  | some a =>
    rcases prefix_cons_iff.mp h with rfl | ⟨l', rfl, h'⟩
    · rfl
    · rcases prefix_cons_iff.mp h' with rfl | ⟨l'', rfl, h''⟩
      · by_cases hk : k = a
        · simp [entry, hk]
        · simp [entry, hk, Ne.symm hk]
      · obtain rfl := prefix_nil.mp h''
        by_cases hk : k = a <;> simp [entry, hk]

end

section

variable {ι K : Type*} [Fintype ι]

/-- Every total is its base plus what the parties hold. -/
def Ledger (base total : K → ℤ) (held : ι → K → ℤ) : Prop :=
  ∀ k, total k = base k + ∑ i, held i k

variable {base total total' : K → ℤ} {held : ι → K → ℤ}

/-- **One booking** by one party keeps the ledger. -/
lemma Ledger.book [DecidableEq ι] (hl : Ledger base total held) (i : ι) {d : K → ℤ}
    (ht : ∀ k, total' k = total k + d k) :
    Ledger base total' (Function.update held i fun k => held i k + d k) := by
  intro k
  have hsum : ∑ j, Function.update held i (fun k => held i k + d k) j k = ∑ j, held j k + d k := by
    rw [← Finset.add_sum_erase _ _ (Finset.mem_univ i),
      ← Finset.add_sum_erase Finset.univ (fun j => held j k) (Finset.mem_univ i)]
    have : ∑ j ∈ Finset.univ.erase i, Function.update held i (fun k => held i k + d k) j k =
        ∑ j ∈ Finset.univ.erase i, held j k := by
      refine Finset.sum_congr rfl fun j hj => ?_
      rw [update_of_ne (Finset.ne_of_mem_erase hj)]
    rw [this, update_self]
    ring
  rw [ht, hl, hsum]
  ring

lemma Ledger.held_le (hl : Ledger base total held) (h0 : ∀ i k, 0 ≤ held i k) (i : ι) (k : K) :
    base k + held i k ≤ total k := by
  rw [hl]
  have := Finset.single_le_sum (fun j _ => h0 j k) (Finset.mem_univ i)
  omega

lemma Ledger.le_total (hl : Ledger base total held) (h0 : ∀ i k, 0 ≤ held i k) (k : K) :
    base k ≤ total k := by
  rw [hl]
  have := Finset.sum_nonneg fun i (_ : i ∈ Finset.univ) => h0 i k
  omega

lemma Ledger.total_eq_base (hl : Ledger base total held) (h0 : ∀ i k, held i k = 0) (k : K) :
    total k = base k := by
  rw [hl]
  simp [h0]

end
end Lodestar.Lib
