import Mathlib

/-!
# Counting the entries of an association list

How the number of entries with a property changes when a key is inserted and when
a key is erased.
-/

namespace Lodestar.Lib

variable {κ : Type*} [DecidableEq κ] {β : κ → Type*}

lemma countP_insert (p : Sigma β → Bool) (s : AList β) (a : κ) (b : β a) :
    (s.insert a b).entries.countP p = (s.erase a).entries.countP p + if p ⟨a, b⟩ then 1 else 0 := by
  rw [AList.entries_insert, List.countP_cons]
  rfl

lemma countP_erase_of_notMem (p : Sigma β → Bool) {s : AList β} {a : κ} (h : a ∉ s) :
    (s.erase a).entries.countP p = s.entries.countP p := by
  have he : (s.erase a).entries = s.entries := List.kerase_of_notMem_keys h
  rw [he]

lemma countP_erase_add (p : Sigma β → Bool) {s : AList β} {a : κ} {b : β a}
    (h : s.lookup a = some b) :
    (s.erase a).entries.countP p + (if p ⟨a, b⟩ then 1 else 0) = s.entries.countP p := by
  have hmem : (⟨a, b⟩ : Sigma β) ∈ s.entries := AList.mem_lookup_iff.mp h
  have hkey : a ∈ s.entries.keys := List.mem_keys_of_mem hmem
  obtain ⟨b', l₁, l₂, hl₁, he, hk⟩ := List.exists_of_kerase hkey
  have hb : b = b' := by
    have hmem' : (⟨a, b'⟩ : Sigma β) ∈ s.entries := by rw [he]; simp
    exact s.nodupKeys.eq_of_mk_mem hmem hmem'
  subst hb
  have herase : (s.erase a).entries = l₁ ++ l₂ := hk
  rw [herase, he, List.countP_append, List.countP_append, List.countP_cons]
  omega

end Lodestar.Lib
