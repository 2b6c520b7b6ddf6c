import Lodestar.LruStore.Store

/-!
# Chains of keys in a least-recently-used store

Keys are put in chains: every key of a chain is put right after the one that it follows.  Then
in the list of keys, the most recent first, a key stands right before the one that it follows,
or that one has been put again since (`Anchored`).  So eviction, which takes the last key, can
only part the last key from the one that it follows.

The values carry marks, and a chain is put with one mark at all its keys.  Then the marks of a
key are marks of the key that it follows (`Nested`): a key that comes back after its eviction
finds no key left that follows it, because that one would have been the last.
-/

namespace Lodestar.LruStore

open List
variable {K : Type*} [DecidableEq K]

def putKeys (cap : ℤ) (keys : List K) (key : K) : List K :=
  if key ∈ keys then key :: keys.filter (· ≠ key)
  else if cap < keys.length + 1 then (key :: keys).dropLast
  else key :: keys

lemma Recency.map_key_put {V : Type*} (cap : ℤ) (l : Recency K V) (key : K) (value : V) (now : ℤ) :
    (l.put cap key value now).map Entry.key = putKeys cap (l.map Entry.key) key := by
  unfold Recency.put putKeys
  rw [length_map]
  split
  · rw [filter_map]
    rfl
  · split
    · rw [map_dropLast, map_cons]
    · rw [map_cons]

/-! ### The order of the keys -/

structure IsForest (Follows : K → K → Prop) : Prop where
  irrefl : ∀ a, ¬ Follows a a
  unique : ∀ a a' b, Follows a b → Follows a' b → a = a'

/-- A key that follows `a` has `a` among the more recent keys or right behind it; only the last
key of a full store may miss the one that it follows. -/
def Anchored (Follows : K → K → Prop) (cap : ℤ) (keys : List K) : Prop :=
  ∀ l₁ b l₂, keys = l₁ ++ b :: l₂ → ∀ a, Follows a b →
    a ∈ l₁ ∨ l₂.head? = some a ∨ l₂ = [] ∧ a ∉ keys ∧ (keys.length : ℤ) = cap

variable {Follows : K → K → Prop} {cap : ℤ} {keys : List K} {key : K}
omit [DecidableEq K] in
lemma anchored_nil : Anchored Follows cap ([] : List K) := by
  intro l₁ b l₂ h
  simp at h

lemma Anchored.moveToFront (hf : IsForest Follows) (h : Anchored Follows cap keys)
    (hnodup : keys.Nodup) (hkey : key ∈ keys)
    (hlast : ∀ a, Follows a key → keys.head? = some a) :
    Anchored Follows cap (key :: keys.filter (· ≠ key)) := by
  have hlen : (key :: keys.filter (· ≠ key)).length = keys.length := by
    have herase : keys.filter (· ≠ key) = keys.erase key := by
      rw [hnodup.erase_eq_filter]
      exact filter_congr fun x _ => by simp [bne, BEq.beq]
    rw [length_cons, herase, length_erase_of_mem hkey]
    have := length_pos_of_mem hkey
    omega
  rintro l₁ b l₂ heq a hab
  rcases cons_eq_append_iff.mp heq with ⟨rfl, hb⟩ | ⟨m₁, rfl, hm⟩
  · -- the key itself stands in front of the one that it follows, which was first
    obtain ⟨rfl, rfl⟩ := List.cons.inj hb
    have ha := hlast a hab
    obtain ⟨rest, rfl⟩ : ∃ rest, keys = a :: rest := by
      cases keys with
      | nil => simp at ha
      | cons x rest => exact ⟨rest, by simpa using ha⟩
    have hne : a ≠ b := fun heq => hf.irrefl a (heq ▸ hab)
    exact .inr (.inl (by simp [hne]))
  · obtain ⟨k₁, k, rfl, hk₁, hk⟩ := filter_eq_append_iff.mp hm
    obtain ⟨k₀, k₂, rfl, hk₀, -, hk₂⟩ := filter_eq_cons_iff.mp hk
    by_cases hne : a = key
    · exact .inl (hne ▸ mem_cons_self)
    rcases h (k₁ ++ k₀) b k₂ (by simp) a hab with ha | ha | ⟨rfl, ha, hfull⟩
    · rcases mem_append.mp ha with ha | ha
      · refine .inl (mem_cons_of_mem _ ?_)
        rw [← hk₁]
        exact mem_filter.mpr ⟨ha, by simpa using hne⟩
      · exact (hk₀ a ha (by simpa using hne)).elim
    · obtain ⟨rest, rfl⟩ : ∃ rest, k₂ = a :: rest := by
        cases k₂ with
        | nil => simp at ha
        | cons x rest => exact ⟨rest, by simpa using ha⟩
      refine .inr (.inl ?_)
      rw [← hk₂, filter_cons_of_pos (by simpa using hne)]
      rfl
    · refine .inr (.inr ⟨by simpa using hk₂.symm, ?_, by rw [hlen, hfull]⟩)
      rw [mem_cons, not_or]
      exact ⟨hne, fun hmem => ha (mem_of_mem_filter hmem)⟩

lemma Anchored.addFront (h : Anchored Follows cap keys)
    (hlen : (keys.length : ℤ) + 1 ≤ cap) (hlast : ∀ a, Follows a key → keys.head? = some a) :
    Anchored Follows cap (key :: keys) := by
  rintro l₁ b l₂ heq a hab
  rcases cons_eq_append_iff.mp heq with ⟨rfl, hb⟩ | ⟨m₁, rfl, hm⟩
  · obtain ⟨rfl, rfl⟩ := List.cons.inj hb
    exact .inr (.inl (hlast a hab))
  · rcases h m₁ b l₂ hm a hab with ha | ha | ⟨-, -, hfull⟩
    · exact .inl (mem_cons_of_mem _ ha)
    · exact .inr (.inl ha)
    · omega

omit [DecidableEq K] in
lemma Anchored.addFront_dropLast {last : K} (h : Anchored Follows cap (keys ++ [last]))
    (hnodup : (keys ++ [last]).Nodup) (hkey : key ∉ keys ++ [last])
    (hlen : ((keys ++ [last]).length : ℤ) = cap)
    (hlast : ∀ a, Follows a key → (keys ++ [last]).head? = some a) :
    Anchored Follows cap (key :: keys) := by
  have hgone : last ∉ key :: keys := by
    rw [mem_cons, not_or]
    refine ⟨fun heq => hkey (by simp [heq]), fun hmem => ?_⟩
    exact (disjoint_of_nodup_append hnodup) hmem mem_cons_self
  have hfull : ((key :: keys).length : ℤ) = cap := by
    rw [← hlen]
    simp
  -- the key behind the last one that stays is the one that goes
  have hhead : ∀ (l : List K) (a : K), (l ++ [last]).head? = some a →
      l.head? = some a ∨ l = [] ∧ a = last := by
    intro l a hl
    cases l with
    | nil => exact .inr ⟨rfl, by simpa using hl.symm⟩
    | cons x l => exact .inl hl
  rintro l₁ b l₂ heq a hab
  rcases cons_eq_append_iff.mp heq with ⟨rfl, hb⟩ | ⟨m₁, rfl, rfl⟩
  · obtain ⟨rfl, rfl⟩ := List.cons.inj hb
    rcases hhead l₂ a (hlast a hab) with ha | ⟨rfl, rfl⟩
    · exact .inr (.inl ha)
    · exact .inr (.inr ⟨rfl, hgone, hfull⟩)
  · rcases h m₁ b (l₂ ++ [last]) (by simp) a hab with ha | ha | ⟨hnil, -⟩
    · exact .inl (mem_cons_of_mem _ ha)
    · rcases hhead l₂ a ha with ha | ⟨rfl, rfl⟩
      · exact .inr (.inl ha)
      · exact .inr (.inr ⟨rfl, hgone, hfull⟩)
    · simp at hnil

lemma Anchored.putKeys (hf : IsForest Follows) (h : Anchored Follows cap keys)
    (hnodup : keys.Nodup) (hlen : (keys.length : ℤ) ≤ cap) (hcap : 0 < cap)
    (hlast : ∀ a, Follows a key → keys.head? = some a) :
    Anchored Follows cap (putKeys cap keys key) := by
  unfold LruStore.putKeys
  by_cases hkey : key ∈ keys
  · rw [if_pos hkey]
    exact h.moveToFront hf hnodup hkey hlast
  · rw [if_neg hkey]
    split
    · rcases eq_nil_or_concat' keys with rfl | ⟨keys', last, rfl⟩
      · exact absurd hcap (by simp at *; omega)
      · rw [← cons_append, dropLast_concat]
        exact h.addFront_dropLast hnodup hkey (by omega) hlast
    · exact h.addFront (by omega) hlast

/-! ### The marks of the keys -/

variable {V M : Type*} {Marked : V → M → Prop} {l : Recency K V} {value : V} {now : ℤ} {mark : M}

/-- The marks of a key are marks of the key that it follows. -/
def Nested (Follows : K → K → Prop) (Marked : V → M → Prop) (l : Recency K V) : Prop :=
  ∀ x ∈ l, ∀ y ∈ l, Follows y.key x.key → ∀ m, Marked x.value m → Marked y.value m

lemma Recency.put_eq_cons (hcap : 0 < cap) (key : K) (value : V) (now : ℤ) :
    ∃ rest : Recency K V, l.put cap key value now = ⟨key, value, now⟩ :: rest ∧
      (∀ x ∈ rest, x ∈ l ∧ x.key ≠ key) ∧
      (Evicts cap l key → rest = l.dropLast) := by
  unfold Recency.put Evicts
  by_cases hkey : key ∈ l.map Entry.key
  · rw [if_pos hkey]
    exact ⟨_, rfl, fun x hx => by simpa using mem_filter.mp hx, fun h => (h.1 hkey).elim⟩
  · rw [if_neg hkey]
    have hold : ∀ x ∈ l, x ∈ l ∧ x.key ≠ key :=
      fun x hx => ⟨hx, fun heq => hkey (heq ▸ mem_map_of_mem hx)⟩
    split
    · have hl : l ≠ [] := by
        rintro rfl
        simp at *
        omega
      rw [dropLast_cons_of_ne_nil hl]
      exact ⟨_, rfl, fun x hx => hold x (mem_of_mem_dropLast hx), fun _ => rfl⟩
    · rename_i hroom
      exact ⟨_, rfl, hold, fun h => (hroom h.2).elim⟩

lemma Nested.put (hf : IsForest Follows) (h : Nested Follows Marked l)
    (ha : Anchored Follows cap (l.map Entry.key)) (hnodup : (l.map Entry.key).Nodup) (hcap : 0 < cap)
    (hvalue : ∀ m, Marked value m ↔ m = mark ∨ ∃ old, l.get key = some old ∧ Marked old m)
    (hparent : ∀ y ∈ l, Follows y.key key → Marked y.value mark) :
    Nested Follows Marked (l.put cap key value now) := by
  obtain ⟨rest, hput, hrest, hevict⟩ := Recency.put_eq_cons hcap key value now
  rw [hput]
  intro x hx y hy hfollows m hm
  rcases mem_cons.mp hx with rfl | hx <;> rcases mem_cons.mp hy with rfl | hy
  · exact (hf.irrefl _ hfollows).elim
  · obtain ⟨hyl, -⟩ := hrest y hy
    rcases (hvalue m).mp hm with rfl | ⟨old, hold, hm⟩
    · exact hparent y hyl hfollows
    · obtain ⟨x, hxl, rfl, rfl⟩ := (Recency.get_eq_some_iff hnodup).mp hold
      exact h x hxl y hyl hfollows m hm
  · obtain ⟨hxl, -⟩ := hrest x hx
    rw [hvalue]
    by_cases hkey : key ∈ l.map Entry.key
    · obtain ⟨y, hyl, rfl⟩ := mem_map.mp hkey
      exact .inr ⟨y.value, (Recency.get_eq_some_iff hnodup).mpr ⟨y, hyl, rfl, rfl⟩,
        h x hxl y hyl hfollows m hm⟩
    · -- a key that comes back: what follows it was the last key, and goes
      obtain ⟨l₁, l₂, rfl⟩ := append_of_mem hxl
      rw [map_append] at ha hkey hnodup
      rcases ha _ _ _ rfl key hfollows with hmem | hmem | ⟨hnil, -, hfull⟩
      · exact (hkey (by simp [hmem])).elim
      · exact (hkey (by simp [mem_of_mem_head? hmem])).elim
      · obtain rfl : l₂ = [] := by simpa using hnil
        have hev : Recency.Evicts cap (l₁ ++ [x]) key := by
          refine ⟨by simpa using hkey, ?_⟩
          simp at hfull ⊢
          omega
        rw [hevict hev, dropLast_concat] at hx
        exact ((disjoint_of_nodup_append hnodup) (mem_map_of_mem hx)
          mem_cons_self).elim
  · exact h x (hrest x hx).1 y (hrest y hy).1 hfollows m hm

/-! ### Chains -/

structure Chained (Follows : K → K → Prop) (Marked : V → M → Prop) (cap : ℤ) (l : Recency K V) :
    Prop where
  nodup : (l.map Entry.key).Nodup
  length_le : (l.length : ℤ) ≤ max cap 0
  anchored : Anchored Follows cap (l.map Entry.key)
  nested : Nested Follows Marked l

omit [DecidableEq K] in
lemma chained_nil : Chained Follows Marked cap ([] : Recency K V) :=
  ⟨by simp, by simp, anchored_nil, fun x hx => by simp at hx⟩

/-- The key that `key` follows, if there is one, is the most recent one and has the mark. -/
def Ready (Follows : K → K → Prop) (Marked : V → M → Prop) (l : Recency K V) (key : K) (mark : M) :
    Prop :=
  ∀ a, Follows a key → ∃ y rest, l = y :: rest ∧ y.key = a ∧ Marked y.value mark

lemma nodup_putKeys (h : keys.Nodup) (cap : ℤ) (key : K) : (putKeys cap keys key).Nodup := by
  unfold putKeys
  split
  · exact nodup_cons.mpr ⟨by simp, h.filter _⟩
  · rename_i hkey
    have hcons : (key :: keys).Nodup := nodup_cons.mpr ⟨hkey, h⟩
    split
    · exact hcons.sublist (dropLast_sublist _)
    · exact hcons

lemma length_putKeys_le (h : (keys.length : ℤ) ≤ max cap 0) (key : K) :
    ((putKeys cap keys key).length : ℤ) ≤ max cap 0 := by
  unfold putKeys
  split
  · rename_i hkey
    have : (keys.filter (· ≠ key)).length < keys.length :=
      length_filter_lt_length_iff_exists.mpr ⟨key, hkey, by simp⟩
    rw [length_cons]
    omega
  · split
    · simpa using h
    · rw [length_cons]
      omega

/-- **One put of a chain** keeps what holds of the entries, and leaves its key the most recent
one. -/
lemma Chained.put (hf : IsForest Follows) (h : Chained Follows Marked cap l)
    (hready : 0 < cap → Ready Follows Marked l key mark) (now : ℤ)
    (hvalue : ∀ m, Marked value m ↔ m = mark ∨ ∃ old, l.get key = some old ∧ Marked old m) :
    Chained Follows Marked cap (l.put cap key value now) ∧
      (0 < cap → ∃ rest, l.put cap key value now = ⟨key, value, now⟩ :: rest) := by
  have hkeys := Recency.map_key_put cap l key value now
  by_cases hcap : 0 < cap
  · have hlen : (l.map Entry.key).length = l.length := length_map _
    refine ⟨⟨?_, ?_, ?_, ?_⟩, fun _ => ?_⟩
    · rw [hkeys]
      exact nodup_putKeys h.nodup cap key
    · rw [← length_map Entry.key, hkeys]
      exact length_putKeys_le (by rw [hlen]; exact h.length_le) key
    · rw [hkeys]
      refine h.anchored.putKeys hf h.nodup ?_ hcap fun a ha => ?_
      · rw [hlen]
        exact h.length_le.trans (max_le le_rfl hcap.le)
      · obtain ⟨y, rest, rfl, rfl, -⟩ := hready hcap a ha
        rfl
    · refine h.nested.put hf h.anchored h.nodup hcap hvalue fun y hy hfollows => ?_
      obtain ⟨y', rest, rfl, hy', hmark⟩ := hready hcap _ hfollows
      have hnodup := h.nodup
      rcases mem_cons.mp hy with rfl | hy
      · exact hmark
      · rw [map_cons, nodup_cons, hy'] at hnodup
        exact (hnodup.1 (mem_map_of_mem hy)).elim
    · obtain ⟨rest, hput, -⟩ := Recency.put_eq_cons hcap key value now
      exact ⟨rest, hput⟩
  · -- a store without room stays empty
    have hlen := h.length_le
    rw [max_eq_right (not_lt.mp hcap)] at hlen
    obtain rfl : l = [] := eq_nil_of_length_eq_zero (by omega)
    have hnil : Recency.put cap ([] : Recency K V) key value now = [] := by
      simp [Recency.put]
      omega
    rw [hnil]
    exact ⟨chained_nil, fun h => (hcap h).elim⟩

omit [DecidableEq K] in
/-- **The last key of a full store** is the only one that may miss the key that it follows. -/
lemma Chained.missing (h : Chained Follows Marked cap l) {a b : K} (hb : b ∈ l.map Entry.key)
    (hfollows : Follows a b) (ha : a ∉ l.map Entry.key) :
    l.getLast?.map Entry.key = some b ∧ (l.length : ℤ) = cap := by
  obtain ⟨l₁, l₂, heq⟩ := append_of_mem hb
  rcases h.anchored l₁ b l₂ heq a hfollows with hmem | hmem | ⟨rfl, -, hfull⟩
  · exact (ha (by simp [heq, hmem])).elim
  · exact (ha (by simp [heq, mem_of_mem_head? hmem])).elim
  · rw [length_map] at hfull
    refine ⟨?_, hfull⟩
    rw [← getLast?_map, heq, getLast?_concat]

end Lodestar.LruStore
