import Lodestar.Lib.Run
import Lodestar.LruStore.Chains

/-!
# The store with its background eviction

`startEviction` calls `evict` again and again.  One pass reads the clock, then takes the keys of the
expired entries under the read lock, and then, key by key, takes the write lock and removes the entry
if it is there and still expired by the time at which the pass began.  Calls of `Put` and `Get` come
in between.  The clock does not go back; both the pass and `Put` read it.
-/

namespace Lodestar.LruStore

open Lib List Function
variable {K V : Type*} [DecidableEq K]

namespace LRUStore

section

variable (s : LRUStore K V) (ttl now : ℤ)

/-- `now.Sub(entry.lastAccessTime) > e.ttl`, for the entry of a key. -/
def expired (key : K) : Bool :=
  match (s.freeTable.lookup key).bind s.entries with
  | some entry => now - entry.lastAccessTime > ttl
  | none => false

/-- The first loop of `evict`. -/
def keysToEvict : List K := s.freeTable.keys.filter (s.expired ttl now)

/-- One round of the second loop of `evict`. -/
def evictKey (key : K) : LRUStore K V :=
  match s.freeTable.lookup key with
  | none => s
  | some e =>
    if s.expired ttl now key then
      { s with lruList := s.lruList.unlink e, freeTable := s.freeTable.erase key }
    else s

lemma cap_evictKey (key : K) : (s.evictKey ttl now key).cap = s.cap := by
  unfold evictKey
  split
  · rfl
  · split
    · rfl
    · rfl

end

variable {s : LRUStore K V} {ids : List EntryId} {l : Recency K V}

lemma Holds.expired_iff (h : Holds s ids l) (ttl now : ℤ) (key : K) :
    s.expired ttl now key = true ↔ ∃ entry ∈ l, entry.key = key ∧ ttl < now - entry.lastAccessTime := by
  constructor
  · intro hexp
    unfold expired at hexp
    split at hexp
    · rename_i entry hentry
      obtain ⟨e, hlook, he⟩ := Option.bind_eq_some_iff.mp hentry
      obtain ⟨hmem, hkey⟩ := (h.table key e).mp hlook
      have hl : some entry ∈ l.map some := by
        rw [← h.entries, ← he]
        exact mem_map_of_mem hmem
      refine ⟨entry, by simpa using hl, ?_, by simpa using hexp⟩
      simpa [he] using hkey
    · simp at hexp
  · rintro ⟨entry, hmem, rfl, hlt⟩
    -- the entry has a number, and the table finds it
    have hl : some entry ∈ ids.map s.entries := by
      rw [h.entries]
      exact mem_map_of_mem hmem
    obtain ⟨e, hid, he⟩ := mem_map.mp hl
    have hlook := (h.table entry.key e).mpr ⟨hid, by rw [he]; rfl⟩
    simpa [expired, hlook, he] using hlt

/-- **One key of a pass**: its entry goes if it is expired, and nothing else changes. -/
lemma Holds.evictKey (h : Holds s ids l) (ttl now : ℤ) (key : K) :
    ∃ ids', Holds (s.evictKey ttl now key) ids'
      (if s.expired ttl now key then l.filter (fun entry => entry.key ≠ key) else l) := by
  unfold LRUStore.evictKey
  cases hlook : s.freeTable.lookup key with
  | none =>
    have hexp : s.expired ttl now key = false := by simp [expired, hlook]
    rw [hexp]
    exact ⟨ids, h⟩
  | some e =>
    dsimp only
    split
    · obtain ⟨hmem, hkey⟩ := (h.table key e).mp hlook
      obtain ⟨i₁, i₂, rfl⟩ := append_of_mem hmem
      obtain ⟨l₁, entry, l₂, rfl, hentry, h₁, h₂⟩ := h.split
      obtain rfl : entry.key = key := by simpa [hentry] using hkey
      refine ⟨i₁ ++ i₂, ?_⟩
      rw [Recency.filter_key_ne h.nodup_keys]
      exact h.remove hentry h₁ h₂
    · exact ⟨ids, h⟩

end LRUStore

/-! ### Runs -/

inductive Pass (K : Type*) where
  | waiting
  /-- The clock was read. -/
  | started (now : ℤ)
  /-- The keys of expired entries were taken; these are left. -/
  | removing (now : ℤ) (keys : List K)

/-- The store with the clock and the background eviction.  The last three fields are not part of the
program: how many puts there were, and the number and the time of the last put of each key. -/
structure Evicting (K V : Type*) where
  store : LRUStore K V
  ttl : ℤ
  clock : ℤ
  pass : Pass K
  puts : ℕ
  lastPut : K → ℕ
  putTime : K → ℤ

/-- Time passes, a call, or a step of the background eviction; `evictKey` takes the key at a position
of those that are left, as a map has no order. -/
inductive Event (K V : Type*) where
  | tick (d : ℕ)
  | put (key : K) (value : V)
  | get (key : K)
  | start
  | snapshot
  | evictKey (i : ℕ)

namespace Evicting

def new (cap : ℕ) (ttl clock : ℤ) : Evicting K V where
  store := LRUStore.new cap
  ttl := ttl
  clock := clock
  pass := .waiting
  puts := 0
  lastPut := fun _ => 0
  putTime := fun _ => 0

/-- One event; `Get` changes nothing. -/
def step (σ : Evicting K V) : Event K V → Evicting K V
  | .tick d => { σ with clock := σ.clock + d }
  | .put key value =>
    { σ with
      store := (σ.store.put key value σ.clock).1
      puts := σ.puts + 1
      lastPut := update σ.lastPut key (σ.puts + 1)
      putTime := update σ.putTime key σ.clock }
  | .get _ => σ
  | .start =>
    match σ.pass with
    | .waiting => { σ with pass := .started σ.clock }
    | .started _ | .removing _ _ => σ
  | .snapshot =>
    match σ.pass with
    | .started now => { σ with pass := .removing now (σ.store.keysToEvict σ.ttl now) }
    | .waiting | .removing _ _ => σ
  | .evictKey i =>
    match σ.pass with
    | .removing now keys =>
      match keys[i]? with
      | some key =>
        { σ with
          store := σ.store.evictKey σ.ttl now key
          pass := .removing now (keys.eraseIdx i) }
      | none => if keys = [] then { σ with pass := .waiting } else σ
    | .waiting | .started _ => σ

def Has (σ : Evicting K V) (key : K) : Prop := σ.store.freeTable.lookup key ≠ none

/-- A key that a step of the background eviction removes was last put longer ago than the time to
live. -/
def SparesRecent (σ : Evicting K V) : Event K V → Prop
  | .evictKey i =>
    ∀ key, σ.Has key → ¬ (σ.step (.evictKey i)).Has key → σ.ttl < σ.clock - σ.putTime key
  | .tick _ | .put _ _ | .get _ | .start | .snapshot => True

structure Sound (cap : ℕ) (σ : Evicting K V) : Prop where
  /-- The list links the entries of the table, both ways and each of them once, in the order of the
  last puts. -/
  ordered : ∃ ids l, σ.store.Holds ids l ∧ l.Pairwise fun a b => σ.lastPut b.key < σ.lastPut a.key
  len_le : σ.store.len ≤ cap

structure Inv (cap : ℕ) (σ : Evicting K V) (ids : List EntryId) (l : Recency K V) : Prop where
  holds : σ.store.Holds ids l
  cap_eq : σ.store.cap = cap
  length_le : l.length ≤ cap
  sorted : l.Pairwise fun a b => σ.lastPut b.key < σ.lastPut a.key
  numbered : ∀ entry ∈ l, σ.lastPut entry.key ≤ σ.puts
  times : ∀ entry ∈ l, entry.lastAccessTime = σ.putTime entry.key
  /-- A pass does not see the future. -/
  pass_le : ∀ now keys, σ.pass = .started now ∨ σ.pass = .removing now keys → now ≤ σ.clock

variable {cap : ℕ} {σ : Evicting K V} {ids : List EntryId} {l : Recency K V}

lemma inv_new (cap : ℕ) (ttl clock : ℤ) : Inv cap (new cap ttl clock : Evicting K V) [] [] where
  holds := LRUStore.holds_new cap
  cap_eq := rfl
  length_le := Nat.zero_le cap
  sorted := List.Pairwise.nil
  numbered := by simp
  times := by simp
  pass_le := by simp [new]

lemma put_sublist (cap : ℤ) (l : Recency K V) (key : K) (value : V) (now : ℤ) :
    (l.put cap key value now).Sublist
      (⟨key, value, now⟩ :: l.filter fun entry => entry.key ≠ key) := by
  unfold Recency.put
  split
  · exact List.Sublist.refl _
  · rename_i hkey
    rw [Recency.filter_of_notMem hkey]
    split
    · exact dropLast_sublist _
    · exact List.Sublist.refl _

lemma length_put_le (h : l.length ≤ cap) (key : K) (value : V) (now : ℤ) :
    (l.put cap key value now).length ≤ cap := by
  have hkeys : (((l.put cap key value now).map Entry.key).length : ℤ) ≤ max (cap : ℤ) 0 := by
    rw [Recency.map_key_put]
    refine length_putKeys_le ?_ key
    rw [length_map]
    omega
  rw [length_map] at hkeys
  omega

section

variable (h : Inv cap σ ids l)
include h

lemma Inv.put (key : K) (value : V) :
    ∃ ids', Inv cap (σ.step (.put key value)) ids' (l.put cap key value σ.clock) := by
  obtain ⟨⟨ids', hholds⟩, -⟩ := h.holds.put key value σ.clock
  rw [h.cap_eq] at hholds
  have hsub := put_sublist (cap : ℤ) l key value σ.clock
  -- the other entries keep their number and their time
  have hother : ∀ entry ∈ l.filter (fun entry => entry.key ≠ key), entry ∈ l ∧ entry.key ≠ key := by
    intro entry hentry
    rw [mem_filter] at hentry
    exact ⟨hentry.1, by simpa using hentry.2⟩
  have hcases : ∀ entry ∈ l.put cap key value σ.clock,
      entry = ⟨key, value, σ.clock⟩ ∨ entry ∈ l ∧ entry.key ≠ key := by
    intro entry hentry
    rcases mem_cons.mp (hsub.subset hentry) with hnew | hold
    · exact .inl hnew
    · exact .inr (hother entry hold)
  refine ⟨ids', hholds, ?_, length_put_le h.length_le key value σ.clock, ?_, ?_, ?_, h.pass_le⟩
  · show (σ.store.put key value σ.clock).1.cap = cap
    rw [LRUStore.cap_put, h.cap_eq]
  · refine List.Pairwise.sublist hsub (pairwise_cons.mpr ⟨?_, ?_⟩)
    · intro entry hentry
      obtain ⟨hmem, hne⟩ := hother entry hentry
      have hle := h.numbered entry hmem
      show update σ.lastPut key (σ.puts + 1) entry.key <
        update σ.lastPut key (σ.puts + 1) key
      rw [update_of_ne hne, update_self]
      omega
    · refine (h.sorted.sublist filter_sublist).imp_of_mem ?_
      intro a b ha hb hab
      show update σ.lastPut key (σ.puts + 1) b.key <
        update σ.lastPut key (σ.puts + 1) a.key
      rw [update_of_ne (hother b hb).2, update_of_ne (hother a ha).2]
      exact hab
  · intro entry hentry
    show update σ.lastPut key (σ.puts + 1) entry.key ≤ σ.puts + 1
    rcases hcases entry hentry with rfl | ⟨hmem, hne⟩
    · rw [update_self]
    · rw [update_of_ne hne]
      have hle := h.numbered entry hmem
      omega
  · intro entry hentry
    show entry.lastAccessTime = update σ.putTime key σ.clock entry.key
    rcases hcases entry hentry with rfl | ⟨hmem, hne⟩
    · rw [update_self]
    · rw [update_of_ne hne]
      exact h.times entry hmem

lemma Inv.shrink {store : LRUStore K V} {ids' : List EntryId}
    {l' : Recency K V} (hholds : store.Holds ids' l') (hcap : store.cap = σ.store.cap)
    (hsub : l'.Sublist l) {pass : Pass K}
    (hpass : ∀ now keys, pass = .started now ∨ pass = .removing now keys → now ≤ σ.clock) :
    Inv cap { σ with store := store, pass := pass } ids' l' where
  holds := hholds
  cap_eq := hcap.trans h.cap_eq
  length_le := hsub.length_le.trans h.length_le
  sorted := h.sorted.sublist hsub
  numbered := fun entry hentry => h.numbered entry (hsub.subset hentry)
  times := fun entry hentry => h.times entry (hsub.subset hentry)
  pass_le := hpass

lemma Inv.evictKey (i : ℕ) :
    ∃ ids' l', Inv cap (σ.step (.evictKey i)) ids' l' := by
  rw [step]
  split
  · rename_i now keys hpass
    split
    · rename_i key hkey
      obtain ⟨ids', hholds⟩ := h.holds.evictKey σ.ttl now key
      refine ⟨ids', _, h.shrink hholds (LRUStore.cap_evictKey σ.store σ.ttl now key) ?_ ?_⟩
      · split
        · exact filter_sublist
        · exact List.Sublist.refl _
      · rintro now' keys' (h' | h') <;> cases h'
        exact h.pass_le now keys (.inr hpass)
    · split
      · exact ⟨ids, l, h.shrink h.holds rfl (List.Sublist.refl _) (by simp)⟩
      · exact ⟨ids, l, h⟩
  · exact ⟨ids, l, h⟩
  · exact ⟨ids, l, h⟩

lemma Inv.step (e : Event K V) : ∃ ids' l', Inv cap (σ.step e) ids' l' := by
  cases e with
  | tick d =>
    refine ⟨ids, l, h.holds, h.cap_eq, h.length_le, h.sorted, h.numbered, h.times, ?_⟩
    intro now keys hpass
    have hle := h.pass_le now keys hpass
    show now ≤ σ.clock + d
    omega
  | put key value =>
    obtain ⟨ids', hput⟩ := h.put key value
    exact ⟨ids', _, hput⟩
  | get key => exact ⟨ids, l, h⟩
  | start =>
    rw [Evicting.step]
    split
    · refine ⟨ids, l, h.shrink h.holds rfl (List.Sublist.refl _) ?_⟩
      rintro now keys (hpass | hpass)
      · exact (Pass.started.inj hpass).symm.le
      · simp at hpass
    · exact ⟨ids, l, h⟩
    · exact ⟨ids, l, h⟩
  | snapshot =>
    rw [Evicting.step]
    split
    · rename_i now hpass
      refine ⟨ids, l, h.shrink h.holds rfl (List.Sublist.refl _) ?_⟩
      rintro now' keys (hpass' | hpass')
      · simp at hpass'
      · obtain ⟨rfl, -⟩ := Pass.removing.inj hpass'
        exact h.pass_le now keys (.inl hpass)
    · exact ⟨ids, l, h⟩
    · exact ⟨ids, l, h⟩
  | evictKey i => exact h.evictKey i

lemma Inv.sound : Sound cap σ :=
  ⟨⟨ids, l, h.holds, h.sorted⟩, by rw [h.holds.len]; exact h.length_le⟩

lemma Inv.sparesRecent (e : Event K V) : σ.SparesRecent e := by
  cases e with
  | tick | put | get | start | snapshot => exact trivial
  | evictKey i =>
    intro key hhas hgone
    rw [Evicting.step] at hgone
    split at hgone
    · rename_i now keys hpass
      split at hgone
      · rename_i key' hkey'
        by_cases hexp : σ.store.expired σ.ttl now key = true
        · obtain ⟨entry, hmem, rfl, hlt⟩ := (h.holds.expired_iff σ.ttl now key).mp hexp
          have hnow := h.pass_le now keys (.inr hpass)
          rw [h.times entry hmem] at hlt
          omega
        · -- a key that is not expired stays
          refine absurd ?_ hgone
          show (σ.store.evictKey σ.ttl now key').freeTable.lookup key ≠ none
          unfold LRUStore.evictKey
          split
          · exact hhas
          · split
            · rename_i hexp'
              have hne : key ≠ key' := fun heq => hexp (heq ▸ hexp')
              show (σ.store.freeTable.erase key').lookup key ≠ none
              rw [AList.lookup_erase_ne hne]
              exact hhas
            · exact hhas
      · split at hgone
        · exact absurd hhas hgone
        · exact absurd hhas hgone
    · exact absurd hhas hgone
    · exact absurd hhas hgone

end
end Evicting

/-- **The store is sound** along every run of puts and gets with the steps of its background
eviction, and no step of it removes an entry that was put within the time to live before. -/
theorem evicting_sound (cap : ℕ) (ttl clock : ℤ) (es : List (Event K V)) :
    (es.foldl Evicting.step (Evicting.new cap ttl clock)).Sound cap ∧
      Along Evicting.step Evicting.SparesRecent (Evicting.new cap ttl clock) es := by
  have hnew : ∃ ids l, Evicting.Inv cap (Evicting.new cap ttl clock : Evicting K V) ids l :=
    ⟨[], [], Evicting.inv_new cap ttl clock⟩
  have hkeep : ∀ (σ : Evicting K V) (e : Event K V), (∃ ids l, Evicting.Inv cap σ ids l) →
      ∃ ids l, Evicting.Inv cap (σ.step e) ids l := by
    rintro σ e ⟨ids, l, h⟩
    exact h.step e
  refine ⟨?_, ?_⟩
  · obtain ⟨ids, l, h⟩ :=
      foldl_invariant (I := fun σ => ∃ ids l, Evicting.Inv cap σ ids l) hnew hkeep es
    exact h.sound
  · refine along_of_invariant (I := fun σ => ∃ ids l, Evicting.Inv cap σ ids l) hnew hkeep ?_
    rintro σ e ⟨ids, l, h⟩
    exact h.sparesRecent e

end Lodestar.LruStore
