import Lodestar.Lib.CommonPrefix
import Lodestar.Indexer.PrefixHash

/-!
# What matching against the prefix table finds

As long as nothing is evicted the table records exactly the beginnings of the prompts that were
added (`records_run`).  The search goes along the hashes of a prompt and narrows the pods down
block by block; for every ready pod it ends with the largest number of leading blocks that the
prompt shares with a prompt added for the pod (`matchPrefix_run`).
-/

namespace Lodestar.Indexer

open Lib Lodestar.LruStore List

namespace PrefixHashTable

variable {cfg : HashConfig} {c : PrefixHashTable}

/-! ### What the table records -/

section

variable (h : ∃ ids l, c.store.Holds ids l)
include h

lemma holds_addPrefix (model pod : String) (prefixHashes : List UInt64) (now : ℕ → Time) :
    ∃ ids l, (c.addPrefix model pod prefixHashes now).store.Holds ids l := by
  induction prefixHashes generalizing c now with
  | nil => exact h
  | cons a prefixHashes ih =>
    obtain ⟨ids, l, hl⟩ := h
    obtain ⟨ids', hl'⟩ := (hl.put a (Block.withPod (c.store.get a) model pod (now 0)) (now 1)).1
    exact ih ⟨ids', _, hl'⟩ _

lemma records_addBlock {model pod : String} {prefixHash : UInt64}
    {now now' : Time} (hkeeps : (c.addBlock model pod prefixHash now now').2 = false) (a : UInt64)
    (model' pod' : String) :
    (c.addBlock model pod prefixHash now now').1.records a model' pod' = true ↔
      a = prefixHash ∧ (model', pod') = (model, pod) ∨ c.records a model' pod' = true := by
  obtain ⟨ids, l, hl⟩ := h
  set block := Block.withPod (c.store.get prefixHash) model pod now with hblock
  obtain ⟨⟨ids', hput⟩, hevicts⟩ := hl.put prefixHash block now'
  have hroom : ¬ Recency.Evicts c.store.cap l prefixHash := by
    rw [← hevicts]
    exact fun htrue => Bool.false_ne_true (hkeeps.symm.trans htrue)
  have hget : (c.addBlock model pod prefixHash now now').1.store.get a =
      if a = prefixHash then some block else c.store.get a := by
    rw [hl.get a, ← Recency.get_put hroom block now' a]
    exact hput.get a
  rw [records, hget]
  by_cases ha : a = prefixHash
  · subst ha
    rw [if_pos rfl, Option.any_some, Block.records_withPod]
    simp only [true_and, records]
    refine or_congr_right ?_
    cases c.store.get a <;> simp
  · simp [ha, records]

lemma records_addPrefix {model pod : String}
    {prefixHashes : List UInt64} {now : ℕ → Time} (hkeeps : c.AddKeeps model pod prefixHashes now)
    (a : UInt64) (model' pod' : String) :
    (c.addPrefix model pod prefixHashes now).records a model' pod' = true ↔
      a ∈ prefixHashes ∧ (model', pod') = (model, pod) ∨ c.records a model' pod' = true := by
  induction prefixHashes generalizing c now with
  | nil => simp [addPrefix]
  | cons b prefixHashes ih =>
    have hnext : ∃ ids l, (c.addBlock model pod b (now 0) (now 1)).1.store.Holds ids l :=
      holds_addPrefix h model pod [b] now
    rw [addPrefix, ih hnext hkeeps.2, records_addBlock h hkeeps.1, mem_cons]
    tauto

/-- **Where nothing is evicted**, a history of adds records its prompts. -/
lemma records_run {adds : List PromptAdd}
    (hkeeps : c.NothingEvicted cfg adds) (b : UInt64) (model pod : String) :
    (c.run cfg adds).records b model pod = true ↔
      (∃ a ∈ adds, a.model = model ∧ a.pod = pod ∧ b ∈ cfg.getPrefixHashes c.seed a.tokens) ∨
        c.records b model pod = true := by
  induction adds generalizing c with
  | nil => simp [run]
  | cons a adds ih =>
    have hrun : c.run cfg (a :: adds) = (c.add cfg a).run cfg adds := rfl
    have hseed : (c.add cfg a).seed = c.seed := seed_addPrefix _ _ _ _ _
    have hnext : ∃ ids l, (c.add cfg a).store.Holds ids l := holds_addPrefix h _ _ _ _
    rw [hrun, ih hnext hkeeps.2, hseed, add, records_addPrefix h hkeeps.1]
    have hcomm : b ∈ cfg.getPrefixHashes c.seed a.tokens ∧ (model, pod) = (a.model, a.pod) ↔
        a.model = model ∧ a.pod = pod ∧ b ∈ cfg.getPrefixHashes c.seed a.tokens := by
      rw [Prod.mk.injEq, @eq_comm _ pod]
      tauto
    simp only [mem_cons, exists_eq_or_imp, hcomm]
    rw [or_assoc, or_left_comm]

end

lemma matchPods_loop (has : String → Bool) (percent : ℕ) (pods : List String) (isMatch : Bool)
    (ready : List String) (m : AList fun _ : String => ℕ) :
    let r := pods.foldl (fun (x : Bool × List String × AList fun _ : String => ℕ) pod =>
      if has pod then (true, x.2.1, x.2.2.insert pod percent)
      else (x.1, x.2.1.filter (· ≠ pod), x.2.2)) (isMatch, ready, m)
    (r.1 = true ↔ isMatch = true ∨ ∃ pod ∈ pods, has pod = true) ∧
      (∀ pod, pod ∈ r.2.1 ↔ pod ∈ ready ∧ (pod ∈ pods → has pod = true)) ∧
      ∀ pod, r.2.2.lookup pod =
        if pod ∈ pods ∧ has pod = true then some percent else m.lookup pod := by
  induction pods generalizing isMatch ready m with
  | nil => simp
  | cons p pods ih =>
    rw [foldl_cons]
    cases hp : has p with
    | true =>
      obtain ⟨h₁, h₂, h₃⟩ := ih true ready (m.insert p percent)
      refine ⟨h₁.trans (by simp [hp]), fun pod => (h₂ pod).trans ?_, fun pod => (h₃ pod).trans ?_⟩
      · by_cases hpod : pod = p <;> simp [hpod, hp]
      · by_cases hpod : pod = p
        · subst hpod
          simp [hp]
        · simp [hpod]
    | false =>
      obtain ⟨h₁, h₂, h₃⟩ := ih isMatch (ready.filter (· ≠ p)) m
      refine ⟨h₁.trans (by simp [hp]), fun pod => (h₂ pod).trans ?_, fun pod => (h₃ pod).trans ?_⟩
      all_goals by_cases hpod : pod = p <;> simp [hpod, hp]

/-- **One round** of the search stops at a block with none of the ready pods, and goes on with those
that the block records. -/
lemma searchFrom_cons (c : PrefixHashTable) (model : String) (total i : ℕ) (b : UInt64)
    (prefixHashes : List UInt64) (readyPods : List String) (m : AList fun _ : String => ℕ) :
    let r := c.searchFrom model total i (b :: prefixHashes) readyPods m
    (∀ pod ∈ readyPods, ¬ c.records b model pod = true) ∧
        (∀ pod, r.prefixMatchPods.lookup pod = m.lookup pod) ∧ r.matchedHashes = [] ∨
      ∃ ready m', (∃ pod ∈ readyPods, c.records b model pod = true) ∧
        (∀ pod, pod ∈ ready ↔ pod ∈ readyPods ∧ c.records b model pod = true) ∧
        (∀ pod, m'.lookup pod = if pod ∈ readyPods ∧ c.records b model pod = true then
          some ((i + 1) * 100 / total) else m.lookup pod) ∧
        let rest := c.searchFrom model total (i + 1) prefixHashes ready m'
        r = { rest with matchedHashes := b :: rest.matchedHashes } := by
  rw [searchFrom]
  cases hget : c.store.get b with
  | none => exact .inl ⟨by simp [records, hget], fun _ => rfl, rfl⟩
  | some block =>
    have hhas : ∀ pod, (((block.modelToPods.lookup model).getD ∅).lookup pod).isSome =
        c.records b model pod := by
      intro pod
      rw [records, hget, Option.any_some, Block.records, TreeNode.records]
      cases block.modelToPods.lookup model <;> simp
    dsimp only
    split
    · rename_i hempty
      refine .inl ⟨fun pod _ => ?_, fun _ => rfl, rfl⟩
      rw [← hhas, AList.lookup_isSome, AList.mem_keys, eq_nil_of_length_eq_zero hempty]
      exact not_mem_nil
    · obtain ⟨hmatch, hready, hlook⟩ := matchPods_loop (c.records b model) ((i + 1) * 100 / total)
        readyPods false readyPods m
      simp only [matchPods, hhas]
      split
      · rename_i ready m' heq
        rw [heq] at hmatch hlook
        have hnone : ∀ pod ∈ readyPods, ¬ c.records b model pod = true := fun pod hpod hrec =>
          Bool.false_ne_true (hmatch.mpr (.inr ⟨pod, hpod, hrec⟩))
        exact .inl ⟨hnone, fun pod => (hlook pod).trans (if_neg fun h => hnone pod h.1 h.2), rfl⟩
      · rename_i ready m' heq
        rw [heq] at hmatch hready hlook
        exact .inr ⟨ready, m', (hmatch.mp rfl).resolve_left Bool.false_ne_true,
          fun pod => (hready pod).trans (by tauto), hlook, rfl⟩

/-! ### The whole search -/

section

variable {α : Type*} (f : α → ℕ) (l : List α)

/-- The largest value of `f` on a list, 0 where it is empty. -/
def largest : ℕ := (l.map f).foldr max 0

lemma le_largest_iff (k : ℕ) : k ≤ largest f l ↔ k = 0 ∨ ∃ x ∈ l, k ≤ f x := by
  induction l with
  | nil => simp [largest]
  | cons y l ih =>
    have : largest f (y :: l) = max (f y) (largest f l) := rfl
    rw [this, le_max_iff, ih]
    simp
    tauto

lemma largest_le_iff (k : ℕ) : largest f l ≤ k ↔ ∀ x ∈ l, f x ≤ k := by
  rw [← not_lt, ← Nat.succ_le_iff, le_largest_iff]
  simp

end

/-- **The search** over hashes whose `j`-th records the pods with `i + j < L`. -/
lemma searchFrom_spec (c : PrefixHashTable) (model : String) (total : ℕ) (L : String → ℕ)
    (prefixHashes : List UInt64) (i : ℕ) (readyPods : List String)
    (prefixMatchPods : AList fun _ : String => ℕ)
    (hrec : ∀ j h, prefixHashes[j]? = some h → ∀ pod, c.records h model pod = true ↔ i + j < L pod)
    (hL : ∀ pod, L pod ≤ i + prefixHashes.length) :
    let r := c.searchFrom model total i prefixHashes readyPods prefixMatchPods
    (∀ pod, r.prefixMatchPods.lookup pod = if pod ∈ readyPods ∧ i < L pod then
        some (L pod * 100 / total) else prefixMatchPods.lookup pod) ∧
      r.matchedHashes.length = largest L readyPods - i := by
  induction prefixHashes generalizing i readyPods prefixMatchPods with
  | nil =>
    refine ⟨fun pod => (if_neg fun h => h.2.not_ge (hL pod)).symm, ?_⟩
    exact (Nat.sub_eq_zero_of_le ((largest_le_iff _ _ _).mpr fun pod _ => hL pod)).symm
  | cons prefixHash prefixHashes ih =>
    have hfirst : ∀ pod, c.records prefixHash model pod = true ↔ i < L pod := hrec 0 prefixHash rfl
    have hround := c.searchFrom_cons model total i prefixHash prefixHashes readyPods prefixMatchPods
    simp only [hfirst] at hround
    rcases hround with ⟨hnone, hsame, hzero⟩ | ⟨ready, m, ⟨best, hbest, hlt⟩, hready, hlook, hr⟩
    · refine ⟨fun pod => (hsame pod).trans (if_neg fun h => hnone pod h.1 h.2).symm, ?_⟩
      rw [hzero, length_nil, eq_comm, Nat.sub_eq_zero_iff_le, largest_le_iff]
      exact fun pod hpod => not_lt.mp (hnone pod hpod)
    · -- the pods that are left have the largest numbers
      have hlarge : largest L ready = largest L readyPods := by
        have hin := (largest_le_iff L ready _).mp le_rfl
        apply le_antisymm
        · exact (largest_le_iff _ _ _).mpr fun pod hpod =>
            (largest_le_iff L readyPods _).mp le_rfl pod ((hready pod).mp hpod).1
        · refine (largest_le_iff _ _ _).mpr fun pod hpod => ?_
          by_cases hpod' : i < L pod
          · exact hin pod ((hready pod).mpr ⟨hpod, hpod'⟩)
          · exact (not_lt.mp hpod').trans (hlt.le.trans (hin best ((hready best).mpr ⟨hbest, hlt⟩)))
      obtain ⟨hrest, hlen⟩ := ih (i + 1) ready m
        (fun j h hj pod => by rw [hrec (j + 1) h hj, Nat.add_right_comm, Nat.add_assoc])
        (fun pod => (hL pod).trans (by simp; omega))
      rw [hr]
      refine ⟨fun pod => ?_, ?_⟩
      · rw [hrest, hlook]
        by_cases hpod : pod ∈ readyPods ∧ i < L pod
        · rw [if_pos hpod, if_pos hpod]
          by_cases hmore : i + 1 < L pod
          · rw [if_pos ⟨(hready pod).mpr hpod, hmore⟩]
          · have : L pod = i + 1 := by omega
            rw [if_neg fun h => hmore h.2, this]
        · rw [if_neg fun h => hpod ((hready pod).mp h.1), if_neg hpod, if_neg hpod]
      · have := (largest_le_iff L readyPods _).mp le_rfl best hbest
        rw [length_cons, hlen, hlarge]
        omega

/-- A pod is found exactly if the first block records it. -/
lemma mem_searchFrom_iff {c : PrefixHashTable} {model pod : String} (total i : ℕ)
    (prefixHashes : List UInt64) (readyPods : List String) (m : AList fun _ : String => ℕ) :
    pod ∈ (c.searchFrom model total i prefixHashes readyPods m).prefixMatchPods ↔
      pod ∈ m ∨ pod ∈ readyPods ∧ ∃ b ∈ prefixHashes.head?, c.records b model pod = true := by
  induction prefixHashes generalizing i readyPods m with
  | nil => simp [searchFrom]
  | cons b prefixHashes ih =>
    rcases c.searchFrom_cons model total i b prefixHashes readyPods m with
      ⟨hnone, hsame, -⟩ | ⟨ready, m', -, hready, hlook, hr⟩
    · rw [← AList.lookup_isSome, hsame, AList.lookup_isSome]
      simp only [head?_cons, Option.mem_some_iff, exists_eq_left']
      exact ⟨.inl, Or.rec id fun h => absurd h.2 (hnone pod h.1)⟩
    · have hm' : pod ∈ m' ↔ pod ∈ m ∨ pod ∈ readyPods ∧ c.records b model pod = true := by
        rw [← AList.lookup_isSome, hlook, ← AList.lookup_isSome]
        split
        · simp_all
        · simp_all
      rw [hr, ih, hready]
      simp only [head?_cons, Option.mem_some_iff, exists_eq_left']
      tauto

/-! ### Prompts -/

/-- The largest number of leading full blocks that a prompt shares with a prompt added for the
model and the pod. -/
def sharedBlocks (cfg : HashConfig) (adds : List PromptAdd) (tokens : List UInt8)
    (model pod : String) : ℕ :=
  largest (fun a => lcpLen (cfg.fullBlocks tokens) (cfg.fullBlocks a.tokens))
    (adds.filter fun a => a.model = model ∧ a.pod = pod)

lemma lt_sharedBlocks_iff (adds : List PromptAdd) (tokens : List UInt8) (model pod : String) (i : ℕ) :
    i < sharedBlocks cfg adds tokens model pod ↔ ∃ a ∈ adds, a.model = model ∧ a.pod = pod ∧
      i < lcpLen (cfg.fullBlocks tokens) (cfg.fullBlocks a.tokens) := by
  rw [← Nat.succ_le_iff, sharedBlocks, le_largest_iff]
  simp [and_assoc]

lemma mem_getPrefixHashes_iff {seed : UInt64} {prompts : List (List UInt8)}
    (h : cfg.NoCollisions seed prompts) {t t' : List UInt8} (ht : t ∈ prompts) (ht' : t' ∈ prompts)
    {i : ℕ} {b : UInt64} (hb : (cfg.getPrefixHashes seed t)[i]? = some b) :
    b ∈ cfg.getPrefixHashes seed t' ↔ i < lcpLen (cfg.fullBlocks t) (cfg.fullBlocks t') := by
  rw [← Nat.succ_le_iff, le_lcpLen_iff]
  constructor
  · intro hmem
    obtain ⟨j, hj⟩ := mem_iff_getElem?.mp hmem
    obtain ⟨rfl, hi, hi', htake⟩ := h.take_eq ht ht' hb hj
    exact ⟨hi, hi', htake⟩
  · rintro ⟨hi, hi', htake⟩
    rw [HashConfig.getElem?_getPrefixHashes, if_pos (Nat.lt_of_succ_le hi)] at hb
    refine mem_iff_getElem?.mpr ⟨i, ?_⟩
    rw [HashConfig.getElem?_getPrefixHashes, if_pos (Nat.lt_of_succ_le hi'), ← htake]
    exact hb

/-- **What matching finds** in a table from which nothing was evicted. -/
theorem matchPrefix_run (cfg : HashConfig) (seed : UInt64) (cap : ℤ) (adds : List PromptAdd)
    (hkeeps : (new seed cap).NothingEvicted cfg adds) (tokens : List UInt8)
    (hcoll : cfg.NoCollisions seed (tokens :: adds.map PromptAdd.tokens)) (model : String)
    (readyPods : List String) :
    let c := (new seed cap).run cfg adds
    let L := sharedBlocks cfg adds tokens model
    let N := tokens.length / cfg.prefixCacheBlockSize
    let r := c.matchPrefixReturningMatched cfg tokens model readyPods
    (∀ pod ∈ readyPods, r.1.lookup pod = if L pod = 0 then none else some (100 * L pod / N)) ∧
      (∀ pod ∉ readyPods, r.1.lookup pod = none) ∧
      r.2.1.length = largest L readyPods ∧
      (c.matchPrefix cfg tokens model readyPods).1 = r.1 := by
  intro c L N r
  have hseed : c.seed = seed := seed_run _ _ _
  set hashes := cfg.getPrefixHashes seed tokens with hhashes
  have hN : hashes.length = N := by
    rw [hhashes, HashConfig.length_getPrefixHashes, HashConfig.length_fullBlocks]
  have hr : r = ((c.seqSearchPrefix hashes model readyPods).prefixMatchPods,
      (c.seqSearchPrefix hashes model readyPods).matchedHashes, hashes) := by
    rw [hhashes, ← hseed]
    rfl
  -- the table records the pods with which a beginning is shared
  have hrec : ∀ i b, hashes[i]? = some b → ∀ pod, c.records b model pod = true ↔ 0 + i < L pod := by
    intro i b hb pod
    have hempty : (new seed cap).records b model pod = false := rfl
    rw [records_run ⟨[], [], LRUStore.holds_new cap⟩ hkeeps, hempty, Nat.zero_add,
      lt_sharedBlocks_iff]
    simp only [Bool.false_eq_true, or_false]
    refine exists_congr fun a => and_congr_right fun ha => and_congr_right fun _ =>
      and_congr_right fun _ => ?_
    exact mem_getPrefixHashes_iff hcoll mem_cons_self
      (mem_cons_of_mem _ (mem_map_of_mem ha)) hb
  have hL : ∀ pod, L pod ≤ 0 + hashes.length := by
    intro pod
    by_contra hle
    have hlt : hashes.length < sharedBlocks cfg adds tokens model pod := by
      rw [Nat.zero_add] at hle
      exact not_le.mp hle
    obtain ⟨a, -, -, -, h⟩ := (lt_sharedBlocks_iff _ _ _ _ _).mp hlt
    rw [HashConfig.length_getPrefixHashes] at h
    exact absurd (lcpLen_le_left (cfg.fullBlocks tokens) (cfg.fullBlocks a.tokens)) (by omega)
  obtain ⟨hlook, hlen⟩ := searchFrom_spec c model hashes.length L hashes 0 readyPods ∅ hrec hL
  rw [hr]
  refine ⟨fun pod hpod => (hlook pod).trans ?_, fun pod hpod => (hlook pod).trans ?_, hlen, ?_⟩
  · by_cases hzero : L pod = 0
    · rw [if_neg (by omega), if_pos hzero, AList.lookup_empty]
    · rw [if_pos ⟨hpod, by omega⟩, if_neg hzero, hN, Nat.mul_comm]
  · rw [if_neg fun h => hpod h.1, AList.lookup_empty]
  · rw [hhashes, ← hseed]
    rfl

/-- Two prompts for one model: the prompt shares two of its three blocks with the first and one
with the second. -/
theorem matchPrefix_run_two :
    let adds : List PromptAdd := [⟨[1, 2, 3, 4, 5, 6], "m", "p", fun _ => 0⟩,
      ⟨[1, 2, 9, 9, 5, 6], "m", "q", fun _ => 1⟩]
    let c := (new 7 100).run .polynomial adds
    let r := c.matchPrefixReturningMatched .polynomial [1, 2, 3, 4, 9, 9, 9] "m" ["p", "q", "r"]
    (new 7 100).NothingEvicted .polynomial adds ∧
      HashConfig.polynomial.NoCollisions 7 ([1, 2, 3, 4, 9, 9, 9] :: adds.map PromptAdd.tokens) ∧
      r.1.lookup "p" = some 66 ∧ r.1.lookup "q" = some 33 ∧ r.1.lookup "r" = none ∧
      r.2.1.length = 2 := by
  intro adds c r
  have hkeeps : (new 7 100).NothingEvicted .polynomial adds := by decide +kernel
  have hcoll : HashConfig.polynomial.NoCollisions 7
      ([1, 2, 3, 4, 9, 9, 9] :: adds.map PromptAdd.tokens) := by decide +kernel
  obtain ⟨hin, -, hlen, -⟩ := matchPrefix_run .polynomial 7 100 adds hkeeps [1, 2, 3, 4, 9, 9, 9] hcoll
    "m" ["p", "q", "r"]
  refine ⟨hkeeps, hcoll, (hin "p" (by decide)).trans ?_, (hin "q" (by decide)).trans ?_,
    (hin "r" (by decide)).trans ?_, hlen.trans ?_⟩ <;> decide +kernel

end PrefixHashTable
end Lodestar.Indexer
