import Lodestar.LruStore.Chains
import Lodestar.Indexer.PrefixHash

/-!
# The chains of blocks in the prefix table

The blocks of a prompt are added in their order.  The invariant of chains in a
least-recently-used store then says what the table looks like at any time
(`blockChains_run`): the pods of a block are pods of the block before it, where both are
stored, and only the least recently used block of a full store may miss the block before it.
-/

namespace Lodestar.Indexer

open LruStore List

namespace HashConfig

variable {cfg : HashConfig} {seed : UInt64} {prompts : List (List UInt8)}

/-- In the chain of some prompt the hash `b` comes right after `a`. -/
def Follows (cfg : HashConfig) (seed : UInt64) (prompts : List (List UInt8)) (a b : UInt64) : Prop :=
  ∃ t ∈ prompts, ∃ i, (cfg.getPrefixHashes seed t)[i]? = some a ∧
    (cfg.getPrefixHashes seed t)[i + 1]? = some b

section

variable (h : cfg.NoCollisions seed prompts)
include h

lemma NoCollisions.eq_of_getElem? {t t' : List UInt8}
    (ht : t ∈ prompts) (ht' : t' ∈ prompts) {i j : ℕ} {b : UInt64}
    (hi : (cfg.getPrefixHashes seed t)[i]? = some b)
    (hj : (cfg.getPrefixHashes seed t')[j]? = some b) :
    i = j ∧ ∀ k ≤ i, (cfg.getPrefixHashes seed t)[k]? = (cfg.getPrefixHashes seed t')[k]? := by
  obtain ⟨rfl, hilt, hjlt, htake⟩ := h.take_eq ht ht' hi hj
  refine ⟨rfl, fun k hk => ?_⟩
  have htake' : (cfg.fullBlocks t).take (k + 1) = (cfg.fullBlocks t').take (k + 1) := by
    have := congrArg (List.take (k + 1)) htake
    rwa [take_take, take_take, min_eq_left (by omega)] at this
  rw [getElem?_getPrefixHashes, getElem?_getPrefixHashes, if_pos (by omega), if_pos (by omega), htake']

lemma NoCollisions.isForest :
    IsForest (cfg.Follows seed prompts) where
  irrefl := by
    rintro a ⟨t, ht, i, hi, hi'⟩
    have := (h.eq_of_getElem? ht ht hi hi').1
    omega
  unique := by
    rintro a a' b ⟨t, ht, i, hi, hi'⟩ ⟨t', ht', j, hj, hj'⟩
    obtain ⟨hij, hbefore⟩ := h.eq_of_getElem? ht ht' hi' hj'
    obtain rfl : i = j := by omega
    have := hbefore i (by omega)
    rw [hi, hj] at this
    exact Option.some.inj this

lemma NoCollisions.linked {t : List UInt8} (ht : t ∈ prompts) :
    (cfg.getPrefixHashes seed t).IsChain (fun a b => ∀ x, cfg.Follows seed prompts x b → x = a) ∧
      ∀ b ∈ (cfg.getPrefixHashes seed t).head?, ∀ x, ¬ cfg.Follows seed prompts x b := by
  constructor
  · rw [isChain_iff_getElem]
    intro i hi x hx
    refine h.isForest.unique _ _ _ hx ⟨t, ht, i, ?_, ?_⟩
    · exact getElem?_eq_getElem _
    · exact getElem?_eq_getElem _
  · rintro b hb x ⟨t', ht', j, -, hj⟩
    rw [head?_eq_getElem?] at hb
    have := (h.eq_of_getElem? ht ht' hb hj).1
    omega

end
end HashConfig

namespace PrefixHashTable

variable {cfg : HashConfig} {prompts : List (List UInt8)} {c : PrefixHashTable}

/-- The store holds the entries `l`, and the chains of the prompts are orderly among them. -/
structure Orderly (cfg : HashConfig) (prompts : List (List UInt8)) (c : PrefixHashTable)
    (l : Recency UInt64 Block) : Prop where
  holds : ∃ ids, c.store.Holds ids l
  chained : Chained (cfg.Follows c.seed prompts) Block.Marked c.store.cap l

lemma orderly_new (seed : UInt64) (cap : ℤ) : Orderly cfg prompts (new seed cap) [] :=
  ⟨⟨_, LRUStore.holds_new cap⟩, chained_nil⟩

variable {l : Recency UInt64 Block} {model pod : String}

/-- **One round** of the loop of `AddPrefix`, for a block whose predecessor has just been
stored. -/
lemma Orderly.addBlock (hf : IsForest (cfg.Follows c.seed prompts)) (h : Orderly cfg prompts c l)
    {prefixHash : UInt64} (hready : 0 < c.store.cap →
      Ready (cfg.Follows c.seed prompts) Block.Marked l prefixHash (model, pod)) (now now' : Time) :
    ∃ l', Orderly cfg prompts (c.addBlock model pod prefixHash now now').1 l' ∧
      (0 < c.store.cap → ∃ y rest, l' = y :: rest ∧ y.key = prefixHash ∧
        y.value.Marked (model, pod)) := by
  obtain ⟨ids, hholds⟩ := h.holds
  set block := Block.withPod (c.store.get prefixHash) model pod now with hblock
  have hvalue : ∀ m, block.Marked m ↔ m = (model, pod) ∨
      ∃ old, l.get prefixHash = some old ∧ old.Marked m := by
    intro m
    rw [← hholds.get]
    exact Block.records_withPod (c.store.get prefixHash) model pod now m.1 m.2
  have hput := (hholds.put prefixHash block now').1
  obtain ⟨hchained, hfirst⟩ := h.chained.put hf hready now' hvalue
  refine ⟨l.put c.store.cap prefixHash block now', ⟨hput, ?_⟩, fun hcap => ?_⟩
  · have hcap : (c.addBlock model pod prefixHash now now').1.store.cap = c.store.cap :=
      LRUStore.cap_put _ _ _ _
    rw [hcap]
    exact hchained
  · obtain ⟨rest, hrest⟩ := hfirst hcap
    exact ⟨_, rest, hrest, rfl, (hvalue _).mpr (.inl rfl)⟩

lemma Orderly.addPrefix (hf : IsForest (cfg.Follows c.seed prompts)) {prefixHashes : List UInt64}
    (hlinked : prefixHashes.IsChain fun a b => ∀ x, cfg.Follows c.seed prompts x b → x = a)
    (h : Orderly cfg prompts c l) (hready : 0 < c.store.cap → ∀ b ∈ prefixHashes.head?,
      Ready (cfg.Follows c.seed prompts) Block.Marked l b (model, pod)) (now : ℕ → Time) :
    ∃ l', Orderly cfg prompts (c.addPrefix model pod prefixHashes now) l' := by
  induction prefixHashes generalizing c l now with
  | nil => exact ⟨l, h⟩
  | cons a prefixHashes ih =>
    obtain ⟨l', hl', hfirst⟩ := h.addBlock hf (fun hcap => hready hcap a rfl) (now 0) (now 1)
    have hcap : (c.addBlock model pod a (now 0) (now 1)).1.store.cap = c.store.cap :=
      LRUStore.cap_put _ _ _ _
    refine ih (c := (c.addBlock model pod a (now 0) (now 1)).1) hf hlinked.tail hl' ?_ _
    rw [hcap]
    intro hpos b hb x hx
    cases prefixHashes with
    | nil => simp at hb
    | cons b' prefixHashes =>
      obtain rfl : b' = b := by simpa using hb
      obtain ⟨y, rest, rfl, hy, hmark⟩ := hfirst hpos
      exact ⟨y, rest, rfl, hy.trans (hlinked.rel x hx).symm, hmark⟩

lemma orderly_run (seed : UInt64) (cap : ℤ) (adds : List PromptAdd)
    (hcoll : cfg.NoCollisions seed prompts) (hadds : ∀ a ∈ adds, a.tokens ∈ prompts) :
    ∃ l, Orderly cfg prompts ((new seed cap).run cfg adds) l := by
  induction adds using List.reverseRecOn with
  | nil => exact ⟨[], orderly_new seed cap⟩
  | append_singleton adds a ih =>
    obtain ⟨l, hl⟩ := ih fun a ha => hadds a (mem_append_left _ ha)
    have hseed : ((new seed cap).run cfg adds).seed = seed := seed_run _ _ _
    have ha : a.tokens ∈ prompts := hadds a (by simp)
    rw [run, foldl_append]
    rw [← hseed] at hcoll
    obtain ⟨hlinked, hhead⟩ := hcoll.linked ha
    exact hl.addPrefix hcoll.isForest hlinked (fun _ b hb x hx => (hhead b hb x hx).elim) a.now

/-- **The chains of blocks** of the prompts that were added, in every reachable state of the
table. -/
theorem blockChains_run (cfg : HashConfig) (seed : UInt64) (cap : ℤ) (adds : List PromptAdd)
    (hcoll : cfg.NoCollisions seed (adds.map PromptAdd.tokens)) :
    let c := (new seed cap).run cfg adds
    ∀ a ∈ adds, ∀ i parent block, (cfg.getPrefixHashes seed a.tokens)[i]? = some parent →
      (cfg.getPrefixHashes seed a.tokens)[i + 1]? = some block → c.stored block = true →
        (c.stored parent = true → ∀ model pod, c.records block model pod = true →
          c.records parent model pod = true) ∧
        (c.stored parent = false →
          c.store.leastRecentlyUsed = some block ∧ (c.store.len : ℤ) = cap) := by
  intro c a ha i parent block hparent hblock hstored
  have hmem : a.tokens ∈ adds.map PromptAdd.tokens := mem_map_of_mem ha
  obtain ⟨l, ⟨ids, hholds⟩, hchained⟩ :=
    orderly_run seed cap adds hcoll fun a ha => mem_map_of_mem ha
  have hseed : c.seed = seed := seed_run _ _ _
  have hcap : c.store.cap = cap := cap_run _ _ _
  have hfollows : cfg.Follows c.seed (adds.map PromptAdd.tokens) parent block :=
    ⟨a.tokens, hmem, i, by rw [hseed]; exact hparent, by rw [hseed]; exact hblock⟩
  have hkey : ∀ h, c.stored h = true ↔ h ∈ l.map Entry.key := by
    intro h
    rw [stored, hholds.get, ← not_iff_not, ← Recency.get_eq_none_iff]
    simp
  constructor
  · intro hstored' model pod hrec
    obtain ⟨x, hx, rfl⟩ := mem_map.mp ((hkey block).mp hstored)
    obtain ⟨y, hy, rfl⟩ := mem_map.mp ((hkey parent).mp hstored')
    have hget : ∀ x ∈ l, c.store.get x.key = some x.value := by
      intro x hx
      rw [hholds.get]
      exact (Recency.get_eq_some_iff hchained.nodup).mpr ⟨x, hx, rfl, rfl⟩
    rw [records, hget x hx] at hrec
    rw [records, hget y hy]
    exact hchained.nested x hx y hy hfollows (model, pod) hrec
  · intro hmissing
    have hnot : parent ∉ l.map Entry.key := by
      rw [← hkey, hmissing]
      simp
    rw [hholds.leastRecentlyUsed, hholds.len, ← hcap]
    exact hchained.missing ((hkey block).mp hstored) hfollows hnot

/-- Two prompts of three blocks in a table with room for two: the second block of the second
prompt has lost the first one, and is the next to go. -/
theorem blockChains_run_full :
    let adds : List PromptAdd := [⟨[1, 2, 3, 4, 5, 6], "m", "p", fun _ => 0⟩,
      ⟨[1, 2, 3, 4, 7, 8, 9], "m", "q", fun _ => 1⟩]
    let c := (new 7 2).run .polynomial adds
    HashConfig.polynomial.NoCollisions 7 (adds.map PromptAdd.tokens) ∧
      ∃ block, (HashConfig.polynomial.getPrefixHashes 7 [1, 2, 3, 4])[1]? = some block ∧
        c.store.leastRecentlyUsed = some block ∧ (c.store.len : ℤ) = 2 := by
  intro adds c
  have hcoll : HashConfig.polynomial.NoCollisions 7 (adds.map PromptAdd.tokens) := by decide +kernel
  refine ⟨hcoll, _, rfl, ?_⟩
  exact (blockChains_run .polynomial 7 2 adds hcoll ⟨[1, 2, 3, 4, 7, 8, 9], "m", "q", fun _ => 1⟩
    (by simp [adds]) 0 _ _ rfl rfl (by decide +kernel)).2 (by decide +kernel)

end PrefixHashTable
end Lodestar.Indexer
