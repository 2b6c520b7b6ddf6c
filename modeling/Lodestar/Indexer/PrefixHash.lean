import Lodestar.Lib.Run
import Lodestar.LruStore.Store
import Lodestar.Indexer.TreeNode

/-!
# The hash-based prefix table

`PrefixHashTable` of `pkg/utils/prefixcacheindexer/hash.go`.  A prompt is cut into blocks of
a fixed number of bytes; the hash of a block also depends on the hash of the block before it,
so that it stands for the prompt up to there.  The table records, under these hashes, the pods
that got a prompt with this beginning.

The hash function is a parameter.  `getElem?_getPrefixHashes` says what a hash stands for, and
`Block.records_withPod` what a block records after a round of the loop of `AddPrefix`.
-/

namespace Lodestar.Indexer

open Lib Lodestar.LruStore List

/-- What a table is configured with: the hash function `xxhash`, by seed, and
`AIBRIX_PREFIX_CACHE_BLOCK_SIZE`.  A block size of zero ends the program by a division by
zero. -/
structure HashConfig where
  sum64 : UInt64 → List UInt8 → UInt64
  prefixCacheBlockSize : ℕ+

structure Block where
  modelToPods : AList (fun _ : String => PodMap)

structure PrefixHashTable where
  seed : UInt64
  store : LRUStore UInt64 Block

/-! ### Hashes -/

def putUint64 (v : UInt64) : List UInt8 :=
  (List.range 8).map fun i => (v >>> (8 * i).toUInt64).toUInt8

namespace HashConfig

variable (cfg : HashConfig) (seed : UInt64)

/-- The digest of a block behind the hash of the block before it. -/
def blockHash (parentHash : UInt64) (block : List UInt8) : UInt64 :=
  cfg.sum64 seed (putUint64 parentHash ++ block)

/-- The loop of `getPrefixHashes` from the first of the given tokens on, for at most `fuel`
rounds. -/
def hashBlocks : ℕ → UInt64 → List UInt8 → List UInt64
  | 0, _, _ => []
  | fuel + 1, parentHash, tokens =>
    -- an incomplete block is not hashed
    if tokens.length < cfg.prefixCacheBlockSize then []
    else
      let currentHash := cfg.blockHash seed parentHash (tokens.take cfg.prefixCacheBlockSize)
      currentHash :: hashBlocks fuel currentHash (tokens.drop cfg.prefixCacheBlockSize)

def getPrefixHashes (tokens : List UInt8) : List UInt64 :=
  cfg.hashBlocks seed tokens.length seed tokens

/-- The first `n` blocks of the tokens. -/
def takeBlocks : ℕ → List UInt8 → List (List UInt8)
  | 0, _ => []
  | n + 1, tokens =>
    tokens.take cfg.prefixCacheBlockSize :: takeBlocks n (tokens.drop cfg.prefixCacheBlockSize)

def fullBlocks (tokens : List UInt8) : List (List UInt8) :=
  cfg.takeBlocks (tokens.length / cfg.prefixCacheBlockSize) tokens

def chainHash (blocks : List (List UInt8)) : UInt64 := blocks.foldl (cfg.blockHash seed) seed

variable {cfg seed}

@[simp]
lemma length_takeBlocks (n : ℕ) (tokens : List UInt8) : (cfg.takeBlocks n tokens).length = n := by
  induction n generalizing tokens with
  | zero => rfl
  | succ n ih => rw [takeBlocks, length_cons, ih]

lemma length_fullBlocks (tokens : List UInt8) :
    (cfg.fullBlocks tokens).length = tokens.length / cfg.prefixCacheBlockSize :=
  length_takeBlocks _ _

lemma hashBlocks_eq (fuel : ℕ) (parentHash : UInt64) (tokens : List UInt8)
    (hfuel : tokens.length ≤ fuel) :
    cfg.hashBlocks seed fuel parentHash tokens =
      ((cfg.fullBlocks tokens).scanl (cfg.blockHash seed) parentHash).tail := by
  have hpos := cfg.prefixCacheBlockSize.pos
  induction fuel generalizing parentHash tokens with
  | zero =>
    obtain rfl : tokens = [] := eq_nil_of_length_eq_zero (by omega)
    simp [hashBlocks, fullBlocks, takeBlocks]
  | succ fuel ih =>
    rw [hashBlocks]
    split
    · rename_i hshort
      rw [fullBlocks, Nat.div_eq_of_lt hshort]
      rfl
    · have hblocks : cfg.fullBlocks tokens = tokens.take cfg.prefixCacheBlockSize ::
          cfg.fullBlocks (tokens.drop cfg.prefixCacheBlockSize) := by
        rw [fullBlocks, fullBlocks, Nat.div_eq_sub_div hpos (by omega), takeBlocks, length_drop]
      have hdrop : (tokens.drop cfg.prefixCacheBlockSize).length ≤ fuel := by
        rw [length_drop]
        omega
      dsimp only
      rw [hblocks, scanl_cons, ih _ _ hdrop]
      cases cfg.fullBlocks (tokens.drop cfg.prefixCacheBlockSize) <;> simp

lemma length_getPrefixHashes (tokens : List UInt8) :
    (cfg.getPrefixHashes seed tokens).length = (cfg.fullBlocks tokens).length := by
  rw [getPrefixHashes, hashBlocks_eq _ _ _ le_rfl, length_tail, length_scanl]
  rfl

/-- **What a hash stands for**: the blocks up to its own. -/
lemma getElem?_getPrefixHashes (tokens : List UInt8) (i : ℕ) :
    (cfg.getPrefixHashes seed tokens)[i]? = if i < (cfg.fullBlocks tokens).length then
        some (cfg.chainHash seed ((cfg.fullBlocks tokens).take (i + 1))) else none := by
  rw [getPrefixHashes, hashBlocks_eq _ _ _ le_rfl, getElem?_tail, getElem?_scanl]
  rfl

/-- The chained hashes of the prompts do not collide: equal hashes stand for equal beginnings. -/
def NoCollisions (cfg : HashConfig) (seed : UInt64) (prompts : List (List UInt8)) : Prop :=
  ∀ t ∈ prompts, ∀ t' ∈ prompts, ∀ i < (cfg.getPrefixHashes seed t).length,
    ∀ j < (cfg.getPrefixHashes seed t').length,
      (cfg.getPrefixHashes seed t)[i]? = (cfg.getPrefixHashes seed t')[j]? →
        (cfg.fullBlocks t).take (i + 1) = (cfg.fullBlocks t').take (j + 1)

lemma NoCollisions.take_eq {prompts : List (List UInt8)} (h : cfg.NoCollisions seed prompts)
    {t t' : List UInt8} (ht : t ∈ prompts) (ht' : t' ∈ prompts) {i j : ℕ} {b : UInt64}
    (hi : (cfg.getPrefixHashes seed t)[i]? = some b)
    (hj : (cfg.getPrefixHashes seed t')[j]? = some b) :
    i = j ∧ i < (cfg.fullBlocks t).length ∧ i < (cfg.fullBlocks t').length ∧
      (cfg.fullBlocks t).take (i + 1) = (cfg.fullBlocks t').take (i + 1) := by
  obtain ⟨hilt, -⟩ := List.getElem?_eq_some_iff.mp hi
  obtain ⟨hjlt, -⟩ := List.getElem?_eq_some_iff.mp hj
  have htake := h t ht t' ht' i hilt j hjlt (hi.trans hj.symm)
  rw [length_getPrefixHashes] at hilt hjlt
  have hij : i = j := by
    have := congrArg List.length htake
    rw [length_take, length_take] at this
    omega
  subst hij
  exact ⟨rfl, hilt, hjlt, htake⟩

instance (prompts : List (List UInt8)) : Decidable (cfg.NoCollisions seed prompts) := by
  unfold NoCollisions
  infer_instance

/-- A polynomial hash function over blocks of two bytes, for examples. -/
def polynomial : HashConfig :=
  ⟨fun seed bytes => bytes.foldl (fun h b => 31 * h + b.toUInt64 + 1) seed, 2⟩

/-- The parent hash and the block of each round of `getPrefixHashes`. -/
def rounds (cfg : HashConfig) (seed : UInt64) (tokens : List UInt8) : List (UInt64 × List UInt8) :=
  (seed :: cfg.getPrefixHashes seed tokens).zip (cfg.fullBlocks tokens)

lemma take_scanl_iff {α β : Type*} {f : β → α → β} (k : ℕ) {s : β} {l m : List α}
    (hinj : ∀ p ∈ (s :: (l.scanl f s).tail).zip l, ∀ q ∈ (s :: (m.scanl f s).tail).zip m,
      f p.1 p.2 = f q.1 q.2 → p = q) :
    (l.scanl f s).tail.take k = (m.scanl f s).tail.take k ↔ l.take k = m.take k := by
  have hcons : ∀ s a (l : List α), (scanl f s (a :: l)).tail = f s a :: (l.scanl f (f s a)).tail := by
    intro s a l
    cases l <;> simp
  induction k generalizing s l m with
  | zero => simp
  | succ k ih =>
    cases l with
    | nil => cases m <;> simp
    | cons a l =>
      cases m with
      | nil => simp
      | cons b m =>
        rw [hcons, hcons] at hinj ⊢
        -- the rounds so far agree, so the parents do
        have hblock : f s a = f s b ↔ a = b :=
          ⟨fun h => congrArg Prod.snd (hinj (s, a) (by simp) (s, b) (by simp) h), fun h => h ▸ rfl⟩
        rw [take_succ_cons, take_succ_cons, take_succ_cons, take_succ_cons, cons.injEq, cons.injEq, hblock]
        refine and_congr_right ?_
        rintro rfl
        exact ih fun p hp q hq => hinj p (.tail _ hp) q (.tail _ hq)

/-- **The hashes stand for the beginnings of the prompts**, where the block hash is injective on the
pairs of parent hash and block that occur. -/
theorem take_getPrefixHashes_iff (cfg : HashConfig) (seed : UInt64) (t t' : List UInt8)
    (hinj : ∀ p ∈ cfg.rounds seed t, ∀ q ∈ cfg.rounds seed t',
      cfg.blockHash seed p.1 p.2 = cfg.blockHash seed q.1 q.2 → p = q) :
    (∀ u ∈ [t, t'], (cfg.getPrefixHashes seed u).length = u.length / cfg.prefixCacheBlockSize) ∧
      ∀ k, (cfg.getPrefixHashes seed t).take k = (cfg.getPrefixHashes seed t').take k ↔
        (cfg.fullBlocks t).take k = (cfg.fullBlocks t').take k := by
  refine ⟨fun u _ => by rw [length_getPrefixHashes, length_fullBlocks], fun k => ?_⟩
  simp only [rounds, getPrefixHashes, hashBlocks_eq _ _ _ le_rfl] at hinj ⊢
  exact take_scanl_iff k hinj

theorem take_getPrefixHashes_iff_unequal :
    (polynomial.getPrefixHashes 7 [1, 2, 3, 4, 5]).take 2 ≠
      (polynomial.getPrefixHashes 7 [1, 2, 3, 9]).take 2 := by
  rw [Ne, (take_getPrefixHashes_iff polynomial 7 _ _ (by decide +kernel)).2 2]
  decide

end HashConfig

/-! ### The table -/

namespace Block

def records (block : Block) (model pod : String) : Bool :=
  TreeNode.records block.modelToPods model pod

def Marked (block : Block) (m : String × String) : Prop := block.records m.1 m.2 = true

/-- The block that `AddPrefix` stores: the one found or a new one, with the pod. -/
def withPod (block : Option Block) (model pod : String) (now : Time) : Block :=
  match block with
  | none => ⟨(∅ : AList fun _ : String => PodMap).insert model ((∅ : PodMap).insert pod now)⟩
  | some block =>
    let blockPods := (block.modelToPods.lookup model).getD ∅
    ⟨block.modelToPods.insert model (blockPods.insert pod now)⟩

lemma records_withPod (block : Option Block) (model pod : String) (now : Time)
    (model' pod' : String) : (withPod block model pod now).records model' pod' = true ↔
      (model', pod') = (model, pod) ∨ ∃ old, block = some old ∧ old.records model' pod' = true := by
  cases block with
  | none =>
    simp only [withPod, records, TreeNode.records_insert, TreeNode.isSome_lookup_insert]
    by_cases hm : model' = model <;> simp [TreeNode.records]
  | some block =>
    simp only [withPod, records, TreeNode.records_insert, TreeNode.isSome_lookup_insert]
    by_cases hm : model' = model
    · subst hm
      cases hlook : block.modelToPods.lookup model' <;> simp [TreeNode.records, hlook]
    · simp [hm]

end Block

namespace PrefixHashTable

/-- `NewPrefixHashTable`, with the seed and `AIBRIX_PREFIX_CACHE_BLOCK_NUMBER`. -/
def new (seed : UInt64) (prefixCacheBlockNumber : ℤ) : PrefixHashTable :=
  ⟨seed, .new prefixCacheBlockNumber⟩

/-- One round of the loop of `AddPrefix`, with the two readings of the clock.  It says whether
the store evicted a block. -/
def addBlock (c : PrefixHashTable) (model pod : String) (prefixHash : UInt64) (now now' : Time) :
    PrefixHashTable × Bool :=
  let block := Block.withPod (c.store.get prefixHash) model pod now
  let (store, evicted) := c.store.put prefixHash block now'
  ({ c with store := store }, evicted)

def addPrefix (c : PrefixHashTable) (model pod : String) : List UInt64 → (ℕ → Time) → PrefixHashTable
  | [], _ => c
  | prefixHash :: prefixHashes, now =>
    (c.addBlock model pod prefixHash (now 0) (now 1)).1.addPrefix model pod prefixHashes
      fun i => now (i + 2)

/-- `matchPods`: whether a pod matches, the ready pods that are left and the matches.  The
percentage is entered for the ready pods that the block records; the others are deleted from the
map of the caller. -/
def matchPods (blockPods : PodMap) (readyPods : List String) (prefixMatchPods : AList fun _ : String => ℕ)
    (prefixMatchPercent : ℕ) : Bool × List String × AList fun _ : String => ℕ :=
  readyPods.foldl (fun (isMatch, readyPods, prefixMatchPods) pod =>
    if (blockPods.lookup pod).isSome then
      (true, readyPods, prefixMatchPods.insert pod prefixMatchPercent)
    else (isMatch, readyPods.filter (· ≠ pod), prefixMatchPods)) (false, readyPods, prefixMatchPods)

/-- What a search returns, with the ready pods that it leaves in the map of the caller. -/
structure Matches where
  prefixMatchPods : AList fun _ : String => ℕ
  matchedHashes : List UInt64
  readyPods : List String

/-- The loop of `seqSearchPrefix_returning_matchedprefixes` from the hash number `i` on, of
`total`. -/
def searchFrom (c : PrefixHashTable) (model : String) (total : ℕ) :
    ℕ → List UInt64 → List String → (AList fun _ : String => ℕ) → Matches
  | _, [], readyPods, prefixMatchPods => ⟨prefixMatchPods, [], readyPods⟩
  | i, prefixHash :: prefixHashes, readyPods, prefixMatchPods =>
    let prefixMatchPercent := (i + 1) * 100 / total
    match c.store.get prefixHash with
    | none => ⟨prefixMatchPods, [], readyPods⟩
    | some block =>
      let blockPods := (block.modelToPods.lookup model).getD ∅
      if blockPods.keys.length = 0 then ⟨prefixMatchPods, [], readyPods⟩
      else
        match matchPods blockPods readyPods prefixMatchPods prefixMatchPercent with
        | (false, readyPods, prefixMatchPods) => ⟨prefixMatchPods, [], readyPods⟩
        | (true, readyPods, prefixMatchPods) =>
          let rest := searchFrom c model total (i + 1) prefixHashes readyPods prefixMatchPods
          { rest with matchedHashes := prefixHash :: rest.matchedHashes }

/-- `seqSearchPrefix_returning_matchedprefixes`.  `seqSearchPrefix` is the same loop, but it
returns all hashes in the place of the matched ones. -/
def seqSearchPrefix (c : PrefixHashTable) (prefixHashes : List UInt64) (model : String)
    (readyPods : List String) : Matches :=
  c.searchFrom model prefixHashes.length 0 prefixHashes readyPods ∅

section

variable (cfg : HashConfig) (c : PrefixHashTable) (tokens : List UInt8) (model : String) (readyPods : List String)

/-- `MatchPrefix`: the matches and all hashes. -/
def matchPrefix : (AList fun _ : String => ℕ) × List UInt64 :=
  let prefixHashes := cfg.getPrefixHashes c.seed tokens
  ((c.seqSearchPrefix prefixHashes model readyPods).prefixMatchPods, prefixHashes)

/-- `MatchPrefix_returning_matchedprefixes`: the matches, the matched hashes and all hashes. -/
def matchPrefixReturningMatched : (AList fun _ : String => ℕ) × List UInt64 × List UInt64 :=
  let allPrefixHashes := cfg.getPrefixHashes c.seed tokens
  let r := c.seqSearchPrefix allPrefixHashes model readyPods
  (r.prefixMatchPods, r.matchedHashes, allPrefixHashes)

end

def stored (c : PrefixHashTable) (prefixHash : UInt64) : Bool := (c.store.get prefixHash).isSome

/-- The block of a hash is stored and records the pod for the model. -/
def records (c : PrefixHashTable) (prefixHash : UInt64) (model pod : String) : Bool :=
  (c.store.get prefixHash).any fun block => block.records model pod

/-- A prompt that is added for a model and a pod, with the readings of the clock. -/
structure PromptAdd where
  tokens : List UInt8
  model : String
  pod : String
  now : ℕ → Time

/-- `AddPrefix` with the hashes of the whole prompt. -/
def add (cfg : HashConfig) (c : PrefixHashTable) (a : PromptAdd) : PrefixHashTable :=
  c.addPrefix a.model a.pod (cfg.getPrefixHashes c.seed a.tokens) a.now

def run (cfg : HashConfig) (c : PrefixHashTable) (adds : List PromptAdd) : PrefixHashTable :=
  adds.foldl (add cfg) c

/-- No round of the loop of `AddPrefix` evicts a block. -/
def AddKeeps (c : PrefixHashTable) (model pod : String) : List UInt64 → (ℕ → Time) → Prop
  | [], _ => True
  | prefixHash :: prefixHashes, now =>
    let r := c.addBlock model pod prefixHash (now 0) (now 1)
    r.2 = false ∧ r.1.AddKeeps model pod prefixHashes fun i => now (i + 2)

instance AddKeeps.decidable (model pod : String) : ∀ (c : PrefixHashTable) (prefixHashes : List UInt64)
    (now : ℕ → Time), Decidable (c.AddKeeps model pod prefixHashes now)
  | _, [], _ => isTrue trivial
  | c, prefixHash :: prefixHashes, now =>
    let r := c.addBlock model pod prefixHash (now 0) (now 1)
    @instDecidableAnd (r.2 = false) _ inferInstance
      (AddKeeps.decidable model pod r.1 prefixHashes fun i => now (i + 2))

def NothingEvicted (cfg : HashConfig) (c : PrefixHashTable) (adds : List PromptAdd) : Prop :=
  Along (add cfg)
    (fun c a => c.AddKeeps a.model a.pod (cfg.getPrefixHashes c.seed a.tokens) a.now) c adds

instance (cfg : HashConfig) (c : PrefixHashTable) (adds : List PromptAdd) :
    Decidable (c.NothingEvicted cfg adds) :=
  inferInstanceAs (Decidable (Along _ _ c adds))

variable (c : PrefixHashTable) (model pod : String) (prefixHashes : List UInt64) (now : ℕ → Time)

@[simp]
lemma seed_addPrefix : (c.addPrefix model pod prefixHashes now).seed = c.seed := by
  induction prefixHashes generalizing c now with
  | nil => rfl
  | cons h hs ih => exact ih _ _

@[simp]
lemma cap_addPrefix : (c.addPrefix model pod prefixHashes now).store.cap = c.store.cap := by
  induction prefixHashes generalizing c now with
  | nil => rfl
  | cons h hs ih => exact (ih _ _).trans (LRUStore.cap_put _ _ _ _)

variable (cfg : HashConfig) (adds : List PromptAdd)

lemma seed_run : (c.run cfg adds).seed = c.seed := by
  induction adds generalizing c with
  | nil => rfl
  | cons a adds ih => exact (ih _).trans (seed_addPrefix _ _ _ _ _)

lemma cap_run : (c.run cfg adds).store.cap = c.store.cap := by
  induction adds generalizing c with
  | nil => rfl
  | cons a adds ih => exact (ih _).trans (cap_addPrefix _ _ _ _ _)

end PrefixHashTable
end Lodestar.Indexer
