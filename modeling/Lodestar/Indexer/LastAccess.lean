import Lodestar.LruStore.Background
import Lodestar.Indexer.HashMatching

/-!
# The last access to the prefix of a prompt

`GetPodPrefixLastAccess` of `hash.go`.  Its scan goes on as long as a block records any ready pod.
Unlike the search of `MatchPrefix` it does not drop a pod that a block does not record, so behind a
hole that eviction has left it finds the pod again.  `lastAccess_iff` says that the two agree where no
block lacks a pod that a later block records.
-/

namespace Lodestar.Indexer.PrefixHashTable

open LruStore List

/-- `UnixMilli` of a time in nanoseconds. -/
def unixMilli (t : Time) : ℤ := t / 1000000

/-- The loop over the ready pods: whether the block records one, and the timestamps. -/
def accessPods (modelPods : PodMap) (readyPods : List String)
    (podLastAccess : AList fun _ : String => ℤ) : Bool × AList fun _ : String => ℤ :=
  readyPods.foldl (fun (anyMatch, podLastAccess) pod =>
    match modelPods.lookup pod with
    | some lastAccess => (true, podLastAccess.insert pod (unixMilli lastAccess))
    | none => (anyMatch, podLastAccess)) (false, podLastAccess)

/-- The loop over the hashes. -/
def accessFrom (c : PrefixHashTable) (model : String) (readyPods : List String) :
    List UInt64 → (AList fun _ : String => ℤ) → AList fun _ : String => ℤ
  | [], podLastAccess => podLastAccess
  | prefixHash :: prefixHashes, podLastAccess =>
    match c.store.get prefixHash with
    | none => podLastAccess
    | some block =>
      let modelPods := (block.modelToPods.lookup model).getD ∅
      if modelPods.keys.length = 0 then podLastAccess
      else
        match accessPods modelPods readyPods podLastAccess with
        | (false, podLastAccess) => podLastAccess
        | (true, podLastAccess) => c.accessFrom model readyPods prefixHashes podLastAccess

/-- `GetPodPrefixLastAccess`: pods that are not found get 0. -/
def getPodPrefixLastAccess (c : PrefixHashTable) (prefixHashes : List UInt64) (model : String)
    (readyPods : List String) : AList fun _ : String => ℤ :=
  readyPods.foldl (fun podLastAccess pod =>
    if pod ∈ podLastAccess then podLastAccess else podLastAccess.insert pod 0)
    (c.accessFrom model readyPods prefixHashes ∅)

/-- The timestamp of a pod at the block of a hash. -/
def stamp (c : PrefixHashTable) (model pod : String) (prefixHash : UInt64) : Option Time :=
  (c.store.get prefixHash).bind fun block => ((block.modelToPods.lookup model).getD ∅).lookup pod

/-- The leading blocks that record one of the pods. -/
def leading (c : PrefixHashTable) (model : String) (pods : List String) (prefixHashes : List UInt64) :
    List UInt64 :=
  prefixHashes.takeWhile fun b => pods.any fun pod => (c.stamp model pod b).isSome

/-- The timestamps of a pod at the leading blocks of the pods. -/
def stamps (c : PrefixHashTable) (model : String) (pods : List String) (prefixHashes : List UInt64)
    (pod : String) : List Time :=
  (c.leading model pods prefixHashes).filterMap (c.stamp model pod)

variable {c : PrefixHashTable} {model pod : String} {readyPods : List String}

lemma isSome_stamp (b : UInt64) : (c.stamp model pod b).isSome = c.records b model pod := by
  unfold stamp records
  cases c.store.get b with
  | none => rfl
  | some block =>
    show (((block.modelToPods.lookup model).getD ∅).lookup pod).isSome = TreeNode.records _ _ _
    unfold TreeNode.records
    cases block.modelToPods.lookup model <;> rfl

lemma leading_cons (pods : List String) (b : UInt64) (prefixHashes : List UInt64) :
    c.leading model pods (b :: prefixHashes) = if pods.any fun pod => (c.stamp model pod b).isSome then
      b :: c.leading model pods prefixHashes else [] := by
  rw [leading, takeWhile_cons]
  rfl

lemma accessPods_loop (pod : String) (modelPods : PodMap) (pods : List String) (anyMatch : Bool)
    (m : AList fun _ : String => ℤ) :
    let r := pods.foldl (fun (x : Bool × AList fun _ : String => ℤ) pod =>
      match modelPods.lookup pod with
      | some lastAccess => (true, x.2.insert pod (unixMilli lastAccess))
      | none => x) (anyMatch, m)
    r.1 = (anyMatch || pods.any fun pod => (modelPods.lookup pod).isSome) ∧
      r.2.lookup pod = (if pod ∈ pods then (modelPods.lookup pod).map unixMilli else none).or
        (m.lookup pod) := by
  induction pods generalizing anyMatch m with
  | nil => simp
  | cons p pods ih =>
    rw [foldl_cons]
    cases hp : modelPods.lookup p with
    | none =>
      obtain ⟨h₁, h₂⟩ := ih anyMatch m
      refine ⟨h₁.trans (by simp [hp]), h₂.trans ?_⟩
      by_cases hpod : pod = p
      · subst hpod
        simp [hp]
      · simp [hpod]
    | some t =>
      obtain ⟨h₁, h₂⟩ := ih true (m.insert p (unixMilli t))
      refine ⟨h₁.trans (by simp [hp]), h₂.trans ?_⟩
      by_cases hpod : pod = p
      · subst hpod
        split <;> simp [hp]
      · simp [hpod]

/-- **The scan** leaves the timestamp of the last block that records the pod. -/
lemma lookup_accessFrom (hpod : pod ∈ readyPods) (prefixHashes : List UInt64)
    (m : AList fun _ : String => ℤ) :
    (c.accessFrom model readyPods prefixHashes m).lookup pod =
      ((c.stamps model readyPods prefixHashes pod).getLast?.map unixMilli).or
        (m.lookup pod) := by
  induction prefixHashes generalizing m with
  | nil => rfl
  | cons b prefixHashes ih =>
    have hstop : (readyPods.any fun pod => (c.stamp model pod b).isSome) = false →
        (c.stamps model readyPods (b :: prefixHashes) pod).getLast? = none := by
      intro hnone
      rw [stamps, leading_cons, hnone]
      rfl
    rw [accessFrom]
    cases hget : c.store.get b with
    | none =>
      rw [hstop (by simp [stamp, hget])]
      rfl
    | some block =>
      have hstamp : ∀ pod, c.stamp model pod b =
          ((block.modelToPods.lookup model).getD ∅).lookup pod := fun pod => by simp [stamp, hget]
      dsimp only
      generalize (block.modelToPods.lookup model).getD ∅ = modelPods at hstamp ⊢
      split
      · rename_i hempty
        have hnone : ∀ p, modelPods.lookup p = none := by
          intro p
          rw [AList.lookup_eq_none, AList.mem_keys, eq_nil_of_length_eq_zero hempty]
          exact not_mem_nil
        rw [hstop (by simp [hstamp, hnone])]
        rfl
      · obtain ⟨hany, hlook⟩ := accessPods_loop pod modelPods readyPods false m
        change (accessPods modelPods readyPods m).1 = _ at hany
        change (accessPods modelPods readyPods m).2.lookup pod = _ at hlook
        rw [if_pos hpod, ← hstamp] at hlook
        simp only [← hstamp, Bool.false_or] at hany
        split
        · rename_i m' heq
          rw [heq] at hany hlook
          have hno : c.stamp model pod b = none := by
            simpa using any_eq_false.mp hany.symm pod hpod
          rw [hstop hany.symm, hlook, hno]
        · rename_i m' heq
          rw [heq] at hany hlook
          unfold stamps at ih ⊢
          rw [ih, hlook, leading_cons, ← hany, if_pos rfl, filterMap_cons]
          cases c.stamp model pod b with
          | none => rfl
          | some t =>
            rw [getLast?_cons]
            cases (List.filterMap (c.stamp model pod) _).getLast? <;> rfl

lemma lookup_fill (readyPods : List String) (m : AList fun _ : String => ℤ) :
    (readyPods.foldl (fun m pod => if pod ∈ m then m else m.insert pod 0) m).lookup pod =
      (m.lookup pod).or (if pod ∈ readyPods then some 0 else none) := by
  induction readyPods generalizing m with
  | nil => simp
  | cons p pods ih =>
    rw [foldl_cons, ih]
    by_cases hp : p ∈ m
    · rw [if_pos hp]
      by_cases hpod : pod = p
      · subst hpod
        obtain ⟨t, ht⟩ := Option.isSome_iff_exists.mp (AList.lookup_isSome.mpr hp)
        simp [ht]
      · simp [hpod]
    · rw [if_neg hp]
      by_cases hpod : pod = p
      · subst hpod
        simp [AList.lookup_eq_none.mpr hp]
      · simp [hpod]

/-- No block that the scan visits lacks a ready pod that a later one records. -/
def Unbroken (c : PrefixHashTable) (model : String) (readyPods : List String)
    (prefixHashes : List UInt64) : Prop :=
  ∀ pod ∈ readyPods, (c.leading model readyPods prefixHashes).Pairwise fun b b' =>
    c.records b' model pod = true → c.records b model pod = true

section

variable (hpod : pod ∈ readyPods) (prefixHashes : List UInt64)
include hpod

lemma stamps_prefix :
    c.stamps model [pod] prefixHashes pod <+: c.stamps model readyPods prefixHashes pod := by
  refine IsPrefix.filterMap _ ?_
  induction prefixHashes with
  | nil => exact prefix_rfl
  | cons b prefixHashes ih =>
    rw [leading_cons, leading_cons, any_cons, any_nil, Bool.or_false]
    split
    · rename_i hb
      rw [if_pos (any_eq_true.mpr ⟨pod, hpod, hb⟩)]
      exact (prefix_cons_inj b).mpr ih
    · exact nil_prefix

/-- The scan sees of a pod what its leading blocks say exactly if the pod is unbroken. -/
lemma stamps_eq_iff :
    c.stamps model readyPods prefixHashes pod = c.stamps model [pod] prefixHashes pod ↔
      (c.leading model readyPods prefixHashes).Pairwise fun b b' =>
        c.records b' model pod = true → c.records b model pod = true := by
  unfold stamps
  induction prefixHashes with
  | nil => simp [leading]
  | cons b prefixHashes ih =>
    rw [leading_cons, leading_cons, any_cons, any_nil, Bool.or_false]
    by_cases hb : (c.stamp model pod b).isSome = true
    · obtain ⟨t, ht⟩ := Option.isSome_iff_exists.mp hb
      rw [if_pos (any_eq_true.mpr ⟨pod, hpod, hb⟩), if_pos hb, filterMap_cons_some ht,
        filterMap_cons_some ht, cons_inj_right, ih, pairwise_cons, ← isSome_stamp, hb]
      simp
    · rw [if_neg hb]
      split
      · -- nothing that comes later may record the pod
        have hnone : c.stamp model pod b = none := by simpa using hb
        simp only [filterMap_cons_none hnone, filterMap_nil, filterMap_eq_nil_iff, pairwise_cons,
          ← isSome_stamp, hnone, Option.isSome_iff_ne_none, ne_eq, not_true_eq_false, imp_false,
          not_not]
        exact ⟨fun h => ⟨h, pairwise_iff_getElem.mpr fun i j hi hj hij hne =>
          absurd (h _ (getElem_mem hj)) hne⟩, fun h => h.1⟩
      · simp

end

/-- **The last access agrees with the matches**, that is, it is not zero exactly for the ready pods
that `MatchPrefix` reports, and of these it is the timestamp at the last of the leading blocks, where no
block lacks a pod that a later one records; and only there, if a pod has no timestamp twice. -/
theorem lastAccess_iff (cfg : HashConfig) (c : PrefixHashTable) (tokens : List UInt8) (model : String)
    (readyPods : List String)
    (hclock : ∀ pod ∈ readyPods,
      0 ∉ (c.stamps model readyPods (cfg.getPrefixHashes c.seed tokens) pod).map unixMilli) :
    let hashes := cfg.getPrefixHashes c.seed tokens
    let found := (c.matchPrefix cfg tokens model readyPods).1
    let own := fun pod => (c.stamps model [pod] hashes pod).getLast?.map unixMilli
    let agree := ∀ pod ∈ readyPods, ∃ millis,
      (c.getPodPrefixLastAccess hashes model readyPods).lookup pod = some millis ∧
        (millis ≠ 0 ↔ pod ∈ found) ∧ (pod ∈ found → own pod = some millis)
    (c.Unbroken model readyPods hashes → agree) ∧
      ((∀ pod ∈ readyPods, ((c.stamps model readyPods hashes pod).map unixMilli).Nodup) →
        agree → c.Unbroken model readyPods hashes) := by
  intro hashes found own agree
  have hfound : ∀ pod ∈ readyPods, pod ∈ found ↔ c.stamps model [pod] hashes pod ≠ [] := by
    intro pod hpod
    refine (mem_searchFrom_iff _ _ _ _ _).trans ?_
    simp only [← isSome_stamp, AList.notMem_empty, false_or, hpod, true_and]
    show (∃ b ∈ hashes.head?, _) ↔ _
    unfold stamps
    cases hashes with
    | nil => simp [leading]
    | cons b hashes =>
      cases hb : c.stamp model pod b <;> simp [leading_cons, hb]
  have hlook : ∀ pod ∈ readyPods, (c.getPodPrefixLastAccess hashes model readyPods).lookup pod =
      some (((c.stamps model readyPods hashes pod).getLast?.map unixMilli).getD 0) := by
    intro pod hpod
    rw [getPodPrefixLastAccess, lookup_fill, lookup_accessFrom hpod, if_pos hpod,
      AList.lookup_empty]
    cases Option.map unixMilli _ <;> rfl
  have hne : ∀ pod ∈ readyPods, ∀ t ∈ (c.stamps model readyPods hashes pod).getLast?,
      unixMilli t ≠ 0 := by
    intro pod hpod t ht hzero
    exact hclock pod hpod (hzero ▸ mem_map_of_mem (mem_of_getLast? ht))
  refine ⟨fun hunbroken pod hpod => ?_, fun hnodup hagree pod hpod => ?_⟩
  · have heq := (stamps_eq_iff hpod hashes).mpr (hunbroken pod hpod)
    refine ⟨_, hlook pod hpod, ?_, fun hmem => ?_⟩
    · rw [hfound pod hpod, ← heq]
      cases hlast : (c.stamps model readyPods hashes pod).getLast? with
      | none => simpa using hlast
      | some t =>
        exact iff_of_true (hne pod hpod t hlast) fun hnil => by simp [hnil] at hlast
    · rw [hfound pod hpod, ← heq, ← getLast?_isSome] at hmem
      obtain ⟨t, ht⟩ := Option.isSome_iff_exists.mp hmem
      simp [own, ← heq, ht]
  · refine (stamps_eq_iff hpod hashes).mp ?_
    obtain ⟨millis, hmillis, hmatch, hown⟩ := hagree pod hpod
    obtain ⟨rest, hrest⟩ : c.stamps model [pod] hashes pod <+: c.stamps model readyPods hashes pod :=
      stamps_prefix hpod hashes
    cases hlast : rest.getLast? with
    | none =>
      rw [← hrest, getLast?_eq_none_iff.mp hlast, append_nil]
    | some t =>
      -- the scan ends behind the leading blocks, with a timestamp that is none of theirs
      have hend : (c.stamps model readyPods hashes pod).getLast? = some t := by
        rw [← hrest, getLast?_append, hlast]
        rfl
      obtain rfl : unixMilli t = millis := by
        simpa [hlook pod hpod, hend] using hmillis
      have hlead := hown (hmatch.mp (hne pod hpod t hend))
      obtain ⟨t', ht', heq⟩ := Option.map_eq_some_iff.mp hlead
      have hnodup := hnodup pod hpod
      rw [← hrest, map_append, nodup_append] at hnodup
      exact absurd heq (hnodup.2.2 _ (mem_map_of_mem (mem_of_getLast? ht')) _
        (mem_map_of_mem (mem_of_getLast? hlast)))

/-- A prompt of two blocks that one pod has added whole, and another its first block. -/
def twice : PrefixHashTable :=
  ((new 7 100).add .polynomial ⟨[1, 2, 3, 4], "m", "p", fun i => (i + 1) * 1000000⟩).add
    .polynomial ⟨[1, 2], "m", "q", fun _ => 9000000⟩

theorem lastAccess_twice :
    let hashes := HashConfig.polynomial.getPrefixHashes twice.seed [1, 2, 3, 4]
    twice.Unbroken "m" ["p", "q"] hashes ∧ ∃ millis,
      (twice.getPodPrefixLastAccess hashes "m" ["p", "q"]).lookup "p" = some millis ∧
      (millis ≠ 0 ↔ "p" ∈ (twice.matchPrefix .polynomial [1, 2, 3, 4] "m" ["p", "q"]).1) := by
  intro hashes
  have hunbroken : twice.Unbroken "m" ["p", "q"] hashes := by
    unfold Unbroken
    decide +kernel
  obtain ⟨millis, hmillis, hfound, -⟩ := (lastAccess_iff .polynomial twice [1, 2, 3, 4] "m"
    ["p", "q"] (by decide +kernel)).1 hunbroken "p" mem_cons_self
  exact ⟨hunbroken, millis, hmillis, hfound⟩

/-- The time to live of the first block of a prompt runs out; then another pod gets this block.  The
first pod is found at the second block, although it does not match. -/
theorem lastAccess_behind_hole :
    let c := (new 7 100).add .polynomial ⟨[1, 2, 3, 4], "m", "p", fun i => i * 1000000⟩
    let evicted : PrefixHashTable :=
      { c with store := (c.store.keysToEvict 2500000 4000000).foldl (·.evictKey 2500000 4000000) c.store }
    let c' := evicted.add .polynomial ⟨[1, 2], "m", "q", fun _ => 5000000⟩
    (c'.getPodPrefixLastAccess (HashConfig.polynomial.getPrefixHashes 7 [1, 2, 3, 4]) "m"
        ["p", "q"]).lookup "p" = some 2 ∧
      (c'.matchPrefix .polynomial [1, 2, 3, 4] "m" ["p", "q"]).1.lookup "p" = none := by
  decide +kernel

end Lodestar.Indexer.PrefixHashTable
