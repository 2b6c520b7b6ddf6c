import Lodestar.Lib.LinkedList

/-!
# The bounded store with least-recently-used eviction

`LRUStore` of `pkg/utils/lrustore/lru_store.go`: a table of entries and a doubly linked list
of the same entries, the most recent first, between two sentinels.  The pointers of the
source are numbers of entries.  Each method is one critical section of the source's lock, and
the readings of the clock are arguments.

`Holds` says which entries the store has, in the order of the list, and the methods are
summed up by what they do to that list of entries: `Holds.put` and `Holds.get`.
-/

namespace Lodestar.LruStore

open Lib List Function

/-- `entry`, without its links. -/
structure Entry (K V : Type*) where
  key : K
  value : V
  lastAccessTime : ℤ

/-- The number of an entry, standing for the pointer to it. -/
abbrev EntryId := ℕ

def head : EntryId := 0

def tail : EntryId := 1

def addToHead (l : Pointers EntryId) (e : EntryId) : Pointers EntryId := l.insertAfter head e

def moveToHead (l : Pointers EntryId) (e : EntryId) : Pointers EntryId := addToHead (l.unlink e) e

/-- `removeTail`; the list between its sentinels has no nil pointers. -/
def removeTail (l : Pointers EntryId) : Option EntryId × Pointers EntryId :=
  match l.prev tail with
  | some e => if e = head then (none, l) else (some e, l.unlink e)
  | none => (none, l)

structure LRUStore (K V : Type*) where
  freeTable : AList (fun _ : K => EntryId)
  entries : EntryId → Option (Entry K V)
  lruList : Pointers EntryId
  cap : ℤ
  /-- The next address to be allocated. -/
  nextEntry : EntryId

namespace LRUStore

variable {K V : Type*} [DecidableEq K]

/-- `NewLRUStore`. -/
def new (cap : ℤ) : LRUStore K V where
  freeTable := ∅
  entries := fun _ => none
  lruList := ((⟨fun _ => none, fun _ => none⟩ : Pointers EntryId).setNext head (some tail)).setPrev
    tail (some head)
  cap := cap
  nextEntry := 2

def len (s : LRUStore K V) : ℕ := s.freeTable.keys.length

def get (s : LRUStore K V) (key : K) : Option V :=
  match s.freeTable.lookup key with
  | some e => (s.entries e).map Entry.value
  | none => none

/-- `Put`; it says whether an entry was evicted. -/
def put (s : LRUStore K V) (key : K) (value : V) (now : ℤ) : LRUStore K V × Bool :=
  match s.freeTable.lookup key with
  | some e =>
    let entry := (s.entries e).map fun entry => { entry with lastAccessTime := now, value := value }
    let s := { s with
      entries := update s.entries e entry
      lruList := moveToHead s.lruList e }
    (s, false)
  | none =>
    let e := s.nextEntry
    let s := { s with
      entries := update s.entries e (some ⟨key, value, now⟩)
      nextEntry := e + 1
      lruList := addToHead s.lruList e
      freeTable := s.freeTable.insert key e }
    if s.cap < s.len then
      match removeTail s.lruList with
      | (none, _) => (s, false)
      | (some removed, lruList) =>
        let freeTable := match s.entries removed with
          | some entry => s.freeTable.erase entry.key
          | none => s.freeTable
        ({ s with lruList := lruList, freeTable := freeTable }, true)
    else (s, false)

/-- The key of the entry that `removeTail` would take. -/
def leastRecentlyUsed (s : LRUStore K V) : Option K :=
  (removeTail s.lruList).1.bind fun e => (s.entries e).map Entry.key

end LRUStore

/-! ### What the store is for -/

abbrev Recency (K V : Type*) := List (Entry K V)

namespace Recency

variable {K V : Type*} [DecidableEq K]

def get (l : Recency K V) (key : K) : Option V :=
  (l.find? fun entry => entry.key = key).map Entry.value

/-- The entry becomes the most recent one; if it is new and there is no room for it, the least
recent one goes. -/
def put (cap : ℤ) (l : Recency K V) (key : K) (value : V) (now : ℤ) : Recency K V :=
  if key ∈ l.map Entry.key then ⟨key, value, now⟩ :: l.filter fun entry => entry.key ≠ key
  else if cap < l.length + 1 then (⟨key, value, now⟩ :: l).dropLast
  else ⟨key, value, now⟩ :: l

def Evicts (cap : ℤ) (l : Recency K V) (key : K) : Prop :=
  key ∉ l.map Entry.key ∧ cap < l.length + 1

variable {l : Recency K V}

lemma get_eq_some_iff (hnodup : (l.map Entry.key).Nodup) {key : K} {value : V} :
    l.get key = some value ↔ ∃ entry ∈ l, entry.key = key ∧ entry.value = value := by
  unfold get
  constructor
  · intro h
    obtain ⟨entry, hfind, hvalue⟩ := Option.map_eq_some_iff.mp h
    exact ⟨entry, mem_of_find?_eq_some hfind, by simpa using find?_some hfind, hvalue⟩
  · rintro ⟨entry, hmem, rfl, rfl⟩
    induction l with
    | nil => simp at hmem
    | cons x l ih =>
      rw [map_cons, nodup_cons] at hnodup
      rcases mem_cons.mp hmem with rfl | hmem
      · simp
      · have hne : x.key ≠ entry.key := fun h => hnodup.1 (h ▸ mem_map_of_mem hmem)
        simpa [hne] using ih hnodup.2 hmem

lemma get_eq_none_iff {key : K} : l.get key = none ↔ key ∉ l.map Entry.key := by
  simp [get]

lemma filter_of_notMem {key : K} (h : key ∉ l.map Entry.key) :
    (l.filter fun e => e.key ≠ key) = l := by
  refine filter_eq_self.mpr fun e he => decide_eq_true fun hkey => h ?_
  exact hkey ▸ mem_map_of_mem he

lemma filter_key_ne {l₁ l₂ : Recency K V} {entry : Entry K V}
    (hnodup : ((l₁ ++ entry :: l₂).map Entry.key).Nodup) :
    (l₁ ++ entry :: l₂).filter (fun x => x.key ≠ entry.key) = l₁ ++ l₂ := by
  rw [map_append, map_cons, nodup_middle, nodup_cons, ← map_append] at hnodup
  rw [filter_append, filter_cons_of_neg (by simp), ← filter_append]
  exact filter_of_notMem hnodup.1

lemma get_put {cap : ℤ} {key : K} (h : ¬ Evicts cap l key) (value : V) (now : ℤ) (k : K) :
    (l.put cap key value now).get k = if k = key then some value else l.get k := by
  unfold put
  by_cases hk : k = key
  · subst hk
    split
    · simp [get]
    · rename_i hmem
      rw [if_neg fun hcap => h ⟨hmem, hcap⟩]
      simp [get]
  · split
    · have hfind : (l.filter fun entry => entry.key ≠ key).find? (fun entry => entry.key = k) =
          l.find? fun entry => entry.key = k := by
        rw [find?_filter]
        congr 1
        funext entry
        by_cases he : entry.key = k <;> simp [he, hk]
      rw [get, find?_cons_of_neg (by simpa using Ne.symm hk), hfind]
      rfl
    · rename_i hmem
      rw [if_neg fun hcap => h ⟨hmem, hcap⟩]
      simp [get, Ne.symm hk]

/-- `put` without a bound: the last put of each key, the most recent first. -/
def record (l : Recency K V) (p : Entry K V) : Recency K V := p :: l.filter fun e => e.key ≠ p.key

lemma nodup_record (h : (l.map Entry.key).Nodup) (p : Entry K V) :
    ((l.record p).map Entry.key).Nodup :=
  nodup_cons.mpr ⟨by simp, h.sublist (filter_sublist.map _)⟩

/-- Among the first `n + 1` entries at most one has the key. -/
lemma take_filter (h : (l.map Entry.key).Nodup) (key : K) (n : ℕ) :
    (l.filter fun e => e.key ≠ key).take n =
      ((l.take (n + 1)).filter fun e => e.key ≠ key).take n := by
  induction l generalizing n with
  | nil => simp
  | cons e l ih =>
    rw [map_cons, nodup_cons] at h
    by_cases he : e.key = key
    · subst he
      have hn : e.key ∉ (l.take n).map Entry.key := fun hmem =>
        h.1 (map_subset _ (take_subset n l) hmem)
      rw [take_succ_cons, filter_cons_of_neg (by simp), filter_cons_of_neg (by simp),
        filter_of_notMem h.1, filter_of_notMem hn, take_take, min_self]
    · cases n with
      | zero => simp
      | succ n => simpa [he] using ih h.2 n

lemma put_take (h : (l.map Entry.key).Nodup) (cap : ℕ) (p : Entry K V) :
    Recency.put cap (l.take cap) p.key p.value p.lastAccessTime = (l.record p).take cap := by
  cases cap with
  | zero => simp [put]
  | succ n =>
    rw [record, take_succ_cons, take_filter h]
    have hlen := length_take_le (n + 1) l
    generalize l.take (n + 1) = m at hlen
    unfold put
    by_cases hmem : p.key ∈ m.map Entry.key
    · obtain ⟨e, he, hkey⟩ := mem_map.mp hmem
      have hlt : (m.filter fun e => e.key ≠ p.key).length < m.length :=
        length_filter_lt_length_iff_exists.mpr ⟨e, he, by simp [hkey]⟩
      rw [if_pos hmem, take_of_length_le (by omega)]
    · rw [if_neg hmem, filter_of_notMem hmem]
      split
      · have hfull : m.length = n + 1 := by omega
        rw [dropLast_eq_take, length_cons, hfull]
        rfl
      · rw [take_of_length_le (by omega)]

end Recency

/-! ### The store holds what it should -/

namespace LRUStore

variable {K V : Type*} [DecidableEq K] {s : LRUStore K V} {ids : List EntryId} {l : Recency K V}

/-- The entries with the numbers `ids` are the entries `l`, linked in this order, and the table
finds exactly these. -/
structure Holds (s : LRUStore K V) (ids : List EntryId) (l : Recency K V) : Prop where
  links : s.lruList.Represents head tail ids
  entries : ids.map s.entries = l.map some
  table : ∀ k e, s.freeTable.lookup k = some e ↔ e ∈ ids ∧ (s.entries e).map Entry.key = some k
  old : ∀ e ∈ ids, e < s.nextEntry
  sentinels : tail < s.nextEntry

lemma holds_new (cap : ℤ) : Holds (new cap : LRUStore K V) [] [] where
  links := ⟨by decide, .cons_cons (by simp [new, Pointers.Linked, Pointers.setNext, Pointers.setPrev])
    (.singleton _)⟩
  entries := rfl
  table := by simp [new]
  old := by simp
  sentinels := Nat.one_lt_two

omit [DecidableEq K] in
lemma removeTail_concat {links : Pointers EntryId} {e : EntryId}
    (h : links.Represents head tail (ids ++ [e])) :
    removeTail links = (some e, links.unlink e) := by
  have hne : e ≠ head := by
    have := h.nodup
    simp only [cons_append, nodup_cons] at this
    rintro rfl
    simp at this
  have hprev : links.prev tail = some e := by
    rw [h.prev_last, ← cons_append, getLast?_concat]
  simp [removeTail, hprev, hne]

section

variable (h : Holds s ids l)
include h

lemma Holds.map_key : (l.map Entry.key).map some = ids.map fun e => (s.entries e).map Entry.key := by
  have := congrArg (List.map (Option.map Entry.key)) h.entries
  simpa [comp_def] using this.symm

lemma Holds.mem_keys_iff (k : K) : k ∈ l.map Entry.key ↔ ∃ e, s.freeTable.lookup k = some e := by
  have : k ∈ l.map Entry.key ↔ some k ∈ (l.map Entry.key).map some := by simp
  rw [this, h.map_key, mem_map]
  exact exists_congr fun e => (h.table k e).symm

lemma Holds.nodup_ids : ids.Nodup := by
  have := h.links.nodup
  rw [cons_append, nodup_cons] at this
  exact this.2.of_append_left

lemma Holds.nodup_keys : (l.map Entry.key).Nodup := by
  refine List.Nodup.of_map some ?_
  rw [h.map_key]
  refine h.nodup_ids.map_on fun e he e' he' heq => ?_
  have hsome : (s.entries e).map Entry.key ∈ (l.map Entry.key).map some := by
    rw [h.map_key]
    exact mem_map_of_mem he
  obtain ⟨k, -, hk⟩ := mem_map.mp hsome
  have h₁ := (h.table k e).mpr ⟨he, hk.symm⟩
  have h₂ := (h.table k e').mpr ⟨he', by rw [← heq, ← hk]⟩
  exact Option.some.inj (h₁.symm.trans h₂)

lemma Holds.len : s.len = l.length := by
  rw [← length_map Entry.key]
  refine ((perm_ext_iff_of_nodup s.freeTable.keys_nodup h.nodup_keys).mpr fun k => ?_).length_eq
  rw [h.mem_keys_iff, ← AList.mem_keys, ← AList.lookup_isSome, Option.isSome_iff_exists]

lemma Holds.get (key : K) : s.get key = Recency.get l key := by
  unfold LRUStore.get
  cases hlook : s.freeTable.lookup key with
  | none =>
    refine (Recency.get_eq_none_iff.mpr fun hmem => ?_).symm
    obtain ⟨e, he⟩ := (h.mem_keys_iff key).mp hmem
    simp [hlook] at he
  | some e =>
    obtain ⟨hmem, hkey⟩ := (h.table key e).mp hlook
    obtain ⟨entry, hentry, hk⟩ := Option.map_eq_some_iff.mp hkey
    have hl : some entry ∈ l.map some := by
      rw [← h.entries, ← hentry]
      exact mem_map_of_mem hmem
    simp only [hentry]
    exact ((Recency.get_eq_some_iff h.nodup_keys).mpr ⟨entry, by simpa using hl, hk, rfl⟩).symm

omit h in
lemma Holds.split {i₁ i₂ : List EntryId} {e : EntryId} (h : Holds s (i₁ ++ e :: i₂) l) :
    ∃ l₁ entry l₂, l = l₁ ++ entry :: l₂ ∧ s.entries e = some entry ∧
      i₁.map s.entries = l₁.map some ∧ i₂.map s.entries = l₂.map some := by
  have := h.entries.symm
  rw [map_append, map_cons] at this
  obtain ⟨l₁, l', rfl, h₁, h'⟩ := map_eq_append_iff.mp this
  obtain ⟨entry, l₂, rfl, hentry, h₂⟩ := map_eq_cons_iff.mp h'
  exact ⟨l₁, entry, l₂, rfl, hentry.symm, h₁.symm, h₂.symm⟩

lemma Holds.leastRecentlyUsed : s.leastRecentlyUsed = l.getLast?.map Entry.key := by
  unfold LRUStore.leastRecentlyUsed
  rcases eq_nil_or_concat' ids with rfl | ⟨ids', e, rfl⟩
  · have hl : l = [] := by simpa using h.entries.symm
    subst hl
    simp [removeTail, h.links.prev_last]
  · obtain ⟨l₁, entry, l₂, rfl, hentry, -, h₂⟩ := h.split
    have hl₂ : l₂ = [] := by simpa using h₂.symm
    subst hl₂
    simp [removeTail_concat h.links, hentry]

omit h in
lemma Holds.remove {i₁ i₂ : List EntryId} {e : EntryId} {l₁ l₂ : Recency K V} {entry : Entry K V}
    (h : Holds s (i₁ ++ e :: i₂) l) (hentry : s.entries e = some entry)
    (h₁ : i₁.map s.entries = l₁.map some) (h₂ : i₂.map s.entries = l₂.map some) :
    Holds { s with lruList := s.lruList.unlink e, freeTable := s.freeTable.erase entry.key }
      (i₁ ++ i₂) (l₁ ++ l₂) where
  links := h.links.unlink
  entries := by rw [map_append, map_append, h₁, h₂]
  table := by
    intro k e'
    have hnodup := h.nodup_ids
    have he := (h.table entry.key e).mpr ⟨by simp, by simp [hentry]⟩
    dsimp only
    by_cases hk : k = entry.key
    · subst hk
      rw [AList.lookup_erase]
      refine iff_of_false (by simp) fun ⟨he', hkey⟩ => ?_
      have he'' := (h.table entry.key e').mpr ⟨by simp at he' ⊢; tauto, hkey⟩
      obtain rfl := Option.some.inj (he.symm.trans he'')
      grind
    · rw [AList.lookup_erase_ne hk, h.table]
      refine and_congr_left fun hkey => ?_
      have hne : e' ≠ e := by
        rintro rfl
        rw [hentry] at hkey
        exact hk (Option.some.inj hkey).symm
      simp [hne]
  old := fun e' he' => h.old e' (by simp at he' ⊢; tauto)
  sentinels := h.sentinels

lemma Holds.put_of_mem {key : K} (hkey : key ∈ l.map Entry.key) (value : V) (now : ℤ) :
    (∃ ids', Holds (s.put key value now).1 ids'
      (⟨key, value, now⟩ :: l.filter fun entry => entry.key ≠ key)) ∧
      (s.put key value now).2 = false := by
  obtain ⟨e, he⟩ := (h.mem_keys_iff key).mp hkey
  obtain ⟨hmem, hkey'⟩ := (h.table key e).mp he
  obtain ⟨i₁, i₂, rfl⟩ := append_of_mem hmem
  obtain ⟨l₁, entry, l₂, rfl, hentry, h₁, h₂⟩ := h.split
  have hids := h.nodup_ids
  have hne : ∀ e' ∈ i₁ ++ i₂, e' ≠ e := by grind
  obtain rfl : entry.key = key := by simpa [hentry] using hkey'
  rw [Recency.filter_key_ne h.nodup_keys]
  unfold LRUStore.put
  simp only [he, hentry]
  -- the entry keeps its key
  set f := update s.entries e (some ⟨entry.key, value, now⟩) with hf
  have hold : ∀ e' ∈ i₁ ++ i₂, f e' = s.entries e' := fun e' he' => update_of_ne (hne e' he') _ _
  have hsame : ∀ e', (f e').map Entry.key = (s.entries e').map Entry.key := by
    intro e'
    by_cases heq : e' = e
    · subst heq
      simp [hf, hentry]
    · rw [hf, update_of_ne heq]
  refine ⟨⟨e :: (i₁ ++ i₂), h.links.unlink.insertAfter ?_, ?_, fun k e' => ?_, fun e' he' => ?_,
    h.sentinels⟩, trivial⟩
  · have := h.links.nodup
    grind
  · have : (i₁ ++ i₂).map f = (l₁ ++ l₂).map some := by
      rw [map_congr_left hold, map_append, map_append, h₁, h₂]
    rw [map_cons, map_cons, ← this]
    simp [hf]
  · refine (h.table k e').trans (and_congr ?_ (by rw [← hsame]; rfl))
    simp only [mem_append, mem_cons]
    tauto
  · exact h.old e' (by simp at he' ⊢; tauto)

lemma Holds.insert {key : K} (hkey : key ∉ l.map Entry.key) (value : V) (now : ℤ) : Holds { s with
      entries := update s.entries s.nextEntry (some ⟨key, value, now⟩)
      nextEntry := s.nextEntry + 1
      lruList := addToHead s.lruList s.nextEntry
      freeTable := s.freeTable.insert key s.nextEntry } (s.nextEntry :: ids)
      (⟨key, value, now⟩ :: l) := by
  have hfresh : s.nextEntry ∉ ids := fun hmem => lt_irrefl _ (h.old _ hmem)
  have hold : ∀ e ∈ ids, update s.entries s.nextEntry (some ⟨key, value, now⟩) e =
      s.entries e := fun e he => update_of_ne (ne_of_mem_of_not_mem he hfresh) _ _
  refine ⟨h.links.insertAfter ?_, ?_, fun k e => ?_, fun e he => ?_, ?_⟩
  · have := h.sentinels
    simp only [cons_append, mem_cons, mem_append, not_mem_nil, or_false, not_or]
    exact ⟨fun h => by simp [h, head] at this, hfresh, this.ne'⟩
  · rw [map_cons, map_congr_left hold, h.entries]
    simp
  · dsimp only
    by_cases hk : k = key
    · subst hk
      rw [AList.lookup_insert, Option.some.injEq]
      constructor
      · rintro rfl
        simp
      · rintro ⟨hmem, hkey'⟩
        rcases mem_cons.mp hmem with rfl | hmem
        · rfl
        · rw [hold e hmem] at hkey'
          exact (hkey ((h.mem_keys_iff k).mpr ⟨e, (h.table k e).mpr ⟨hmem, hkey'⟩⟩)).elim
    · rw [AList.lookup_insert_ne hk, h.table]
      by_cases he : e = s.nextEntry
      · subst he
        simp [hfresh, Ne.symm hk]
      · simp [he]
  · rcases mem_cons.mp he with rfl | hmem
    · exact Nat.lt_succ_self _
    · exact (h.old e hmem).trans (Nat.lt_succ_self _)
  · exact h.sentinels.trans (Nat.lt_succ_self _)

/-- **A put** makes the entry the most recent one, and evicts the least recent one if the entry
is new and there is no room for it. -/
lemma Holds.put (key : K) (value : V) (now : ℤ) :
    (∃ ids', Holds (s.put key value now).1 ids' (Recency.put s.cap l key value now)) ∧
      ((s.put key value now).2 = true ↔ Recency.Evicts s.cap l key) := by
  unfold Recency.put Recency.Evicts
  by_cases hkey : key ∈ l.map Entry.key
  · obtain ⟨hput, hevict⟩ := h.put_of_mem hkey value now
    simp only [hkey, hevict, not_true_eq_false, false_and, Bool.false_eq_true, and_true]
    exact hput
  · have hnone : s.freeTable.lookup key = none := by
      rw [Option.eq_none_iff_forall_ne_some]
      exact fun e he => hkey ((h.mem_keys_iff key).mpr ⟨e, he⟩)
    have hins := h.insert hkey value now
    have hlen := hins.len
    unfold LRUStore.put
    simp only [hnone, hlen, length_cons, Nat.cast_add, Nat.cast_one]
    split
    · -- the last entry goes
      obtain ⟨ids', e, hids⟩ := (eq_nil_or_concat' (s.nextEntry :: ids)).resolve_left (by simp)
      rw [hids] at hins
      obtain ⟨l₁, entry, l₂, hl, hentry, h₁, h₂⟩ := hins.split
      have hl₂ : l₂ = [] := by simpa using h₂.symm
      subst hl₂
      have hrem := hins.remove hentry h₁ h₂
      have htail := removeTail_concat hins.links
      dsimp only at htail hentry
      simp only [htail, hentry]
      refine ⟨⟨ids', ?_⟩, by simp [*]⟩
      rw [hl]
      simpa using hrem
    · exact ⟨⟨_, hins⟩, by simp [*]⟩

omit h in
@[simp]
lemma cap_put (s : LRUStore K V) (key : K) (value : V) (now : ℤ) :
    (s.put key value now).1.cap = s.cap := by
  unfold LRUStore.put
  split
  · rfl
  · dsimp only
    split
    · split <;> rfl
    · rfl

end

lemma Holds.puts {cap : ℕ} (hcap : s.cap = cap) (hnodup : (l.map Entry.key).Nodup)
    (h : Holds s ids (l.take cap)) (ps : List (Entry K V)) :
    ∃ ids', Holds (ps.foldl (fun s p => (s.put p.key p.value p.lastAccessTime).1) s) ids'
      ((ps.foldl Recency.record l).take cap) := by
  induction ps generalizing s ids l with
  | nil => exact ⟨ids, h⟩
  | cons p ps ih =>
    obtain ⟨⟨ids', hput⟩, -⟩ := h.put p.key p.value p.lastAccessTime
    rw [hcap, Recency.put_take hnodup] at hput
    exact ih (by simpa using hcap) (Recency.nodup_record hnodup p) hput

/-- **The store remembers the keys that were put last**: after any puts, `Get` finds the value of
the last put of the key if the key is one of the `cap` most recent ones, and nothing otherwise. -/
theorem get_puts (cap : ℕ) (puts : List (Entry K V)) (key : K) :
    (puts.foldl (fun s p => (s.put p.key p.value p.lastAccessTime).1) (new cap)).get key =
      Recency.get ((puts.foldl Recency.record []).take cap) key := by
  have hnew : Holds (new cap : LRUStore K V) [] (take cap []) := by simpa using holds_new cap
  obtain ⟨ids, h⟩ := hnew.puts (l := []) rfl nodup_nil puts
  exact h.get key

end LRUStore
end Lodestar.LruStore
