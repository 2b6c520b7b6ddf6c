import Lodestar.Indexer.Matching

/-!
# What an eviction does to the tree

`Evict` collects the subtree of every stale node and then evicts the collected
nodes one by one.  A subtree can be collected several times, and a node may be
evicted after its ancestors: its parent pointer then leads to a record whose
links have been cleared.  `Evicted c₀ c path done` describes the tree `c` between
two rounds of the loop, relative to the tree `c₀` before the eviction and to the
nodes `done` that have been evicted so far.
-/

namespace Lodestar.Indexer

open Lib List Function

namespace LPRadixCache

/-- The node is not the root and has exceeded its time to live. -/
def Stale (c : LPRadixCache) (now : Time) (n : NodeId) : Prop :=
  n ∈ c.allNodes ∧ n ≠ c.rootNode ∧ c.doesExceededTTL n now = true

def Doomed (c : LPRadixCache) (path : NodeId → List Token) (now : Time) (n : NodeId) : Prop :=
  n ∈ c.allNodes ∧ ∃ s, c.Stale now s ∧ path s <+: path n

/-- The tree `c` after the nodes `done` of `c₀` have been evicted. -/
structure Evicted (c₀ c : LPRadixCache) (done : List NodeId) : Prop where
  rootNode : c.rootNode = c₀.rootNode
  nextNodeID : c.nextNodeID = c₀.nextNodeID
  allNodes : ∀ n, n ∈ c.allNodes ↔ n ∈ c₀.allNodes ∧ n ∉ done
  nodup : c.allNodes.Nodup
  contextLength : ∀ n, (c.heap n).contextLength = (c₀.heap n).contextLength
  key : ∀ n, n ∉ done → (c.heap n).key = (c₀.heap n).key
  value : ∀ n, n ∉ done → (c.heap n).value = (c₀.heap n).value
  parent : ∀ n, n ∉ done → (c.heap n).parent = (c₀.heap n).parent
  children : ∀ n ∈ c₀.allNodes, n ∉ done → ∀ t m, (c.heap n).children.lookup t = some m ↔
    (c₀.heap n).children.lookup t = some m ∧ m ∉ done
  gone : ∀ n ∈ done, (c.heap n).parent = none ∧ (c.heap n).children = ∅ ∧
    (c.heap n).modelToPods = ∅ ∧ (c.heap n).value = [] ∧ (c.heap n).key = []

lemma Evicted.refl {c : LPRadixCache} {path : NodeId → List Token} (hw : WF c path) :
    Evicted c c [] :=
  ⟨rfl, rfl, by simp, hw.nodup, fun _ => rfl, fun _ _ => rfl, fun _ _ => rfl, fun _ _ => rfl,
    by simp, by simp⟩

/-! ### One round of the loop -/

def cleared (nd : TreeNode) : TreeNode :=
  { nd with parent := none, children := ∅, modelToPods := ∅, value := [], key := [] }

lemma evictNode_gone {c₀ c : LPRadixCache} {done : List NodeId} (h : Evicted c₀ c done)
    {y : NodeId} (hy : y ∈ done) : c.evictNode y = c := by
  obtain ⟨hpar, hch, hpods, hval, hkey⟩ := h.gone y hy
  have hall : c.allNodes.erase y = c.allNodes :=
    erase_of_not_mem fun hm => ((h.allNodes y).mp hm).2 hy
  have hheap : Function.update c.heap y (cleared (c.heap y)) = c.heap := by
    cases hnd : c.heap y
    simp_all [cleared]
  unfold evictNode
  split
  · rfl
  · simp only [hpar, modify, hall]
    exact congrArg (fun hp => ({ c with heap := hp } : LPRadixCache)) hheap

variable {c₀ c : LPRadixCache} {path : NodeId → List Token} {model podIP : String}

section

variable {done : List NodeId} {y : NodeId}

lemma evictNode_frame (c : LPRadixCache) (y : NodeId) :
    (c.evictNode y).rootNode = c.rootNode ∧ (c.evictNode y).nextNodeID = c.nextNodeID ∧
      (y ≠ c.rootNode → (c.evictNode y).allNodes = c.allNodes.erase y) := by
  unfold evictNode
  split
  · rename_i hy
    exact ⟨rfl, rfl, fun hne => absurd hy hne⟩
  · cases hpar : (c.heap y).parent with
    | none => simp [hpar]
    | some p => cases hkey : (c.heap y).key <;> simp [hpar, hkey]

lemma Evicted.congr {done' : List NodeId} (h : Evicted c₀ c done)
    (hm : ∀ n, n ∈ done' ↔ n ∈ done) : Evicted c₀ c done' :=
  ⟨h.rootNode, h.nextNodeID, fun n => by rw [hm n]; exact h.allNodes n, h.nodup, h.contextLength,
    fun n hn => h.key n (by rwa [← hm n]), fun n hn => h.value n (by rwa [← hm n]),
    fun n hn => h.parent n (by rwa [← hm n]),
    fun n hn hd t m => by rw [hm m]; exact h.children n hn (by rwa [← hm n]) t m,
    fun n hn => h.gone n ((hm n).mp hn)⟩

/-- The chain of parents of a node that still has its links. -/
structure Chain (c₀ c : LPRadixCache) (path : NodeId → List Token) (done : List NodeId)
    (y p : NodeId) (t : Token) (r : List Token) : Prop where
  parent : (c.heap y).parent = some p
  key : (c.heap y).key = t :: r
  child : (c₀.heap p).children.lookup t = some y
  mem : p ∈ c₀.allNodes
  nodup : (c.ancestors p).Nodup
  self_notMem : y ∉ c.ancestors p
  parent_mem : p ∈ c.ancestors p
  clear : ∀ n ∈ c.ancestors p, n ∈ c₀.allNodes ∧ path n <+: path y ∧ n ≠ y ∧
    ∀ z ∈ c₀.allNodes, z ∈ done → path n <+: path z → path z <+: path y → z = n

variable (hw : WF c₀ path) (h : Evicted c₀ c done) (hy : y ∈ c₀.allNodes) (hyr : y ≠ c₀.rootNode)
  {p n : NodeId} {t : Token} {r : List Token}

section

variable (hc : Chain c₀ c path done y p t r)
include h hyr hc

lemma Chain.heap_eq (n : NodeId) : (c.evictNode y).heap n = if n = y then cleared (c.heap y)
      else { c.heap n with
        children := if n = p then (c.heap p).children.erase t else (c.heap n).children
        modelToPods := if n ∈ c.ancestors p then ((c.heap n).removePodsOf (c.heap y)).modelToPods
          else (c.heap n).modelToPods } := by
  have hpy : p ≠ y := fun he => hc.self_notMem (he ▸ hc.parent_mem)
  have hall := heap_modifyAll (fun _ (nd : TreeNode) => nd.removePodsOf (c.heap y))
    (c.ancestors p) c hc.nodup
  unfold evictNode
  rw [if_neg (h.rootNode ▸ hyr)]
  simp only [hc.parent, hc.key, modify]
  by_cases hn : n = y
  · subst hn
    rw [update_self, update_of_ne hpy.symm, hall, if_neg hc.self_notMem]
    simp [cleared]
  · rw [update_of_ne hn, if_neg hn]
    by_cases hnp : n = p
    · subst hnp
      rw [hall, if_pos hc.parent_mem, if_pos rfl, if_pos hc.parent_mem]
      simp [TreeNode.removePodsOf]
    · rw [update_of_ne hnp, hall]
      split <;> rfl

lemma Chain.has_eq (hny : n ≠ y) (model podIP : String) : (c.evictNode y).has model podIP n =
      (c.has model podIP n && !(decide (n ∈ c.ancestors p) && c.has model podIP y)) := by
  rw [has, TreeNode.hasPodForModel_eq, hc.heap_eq h hyr n, if_neg hny]
  by_cases hna : n ∈ c.ancestors p
  · simp only [hna, if_true, ← TreeNode.hasPodForModel_eq, TreeNode.hasPodForModel_removePodsOf]
    rfl
  · simp only [hna, if_false, ← TreeNode.hasPodForModel_eq]
    simp [has]

end

include hw h hy hyr

lemma Evicted.chain (hyd : y ∉ done) : ∃ p t r, Chain c₀ c path done y p t r := by
  obtain ⟨p, t, r, hp, hpar, hkey, hchild, hpath⟩ := hw.trie.up y hy hyr
  have hlt : path p <+: path y ∧ (path p).length < (path y).length :=
    (hw.trie.parent_shorter hy hpar).2
  have hcut : ∀ n, n ∈ done → (c.heap n).parent = none := fun n hn => (h.gone n hn).1
  have hchain := fun fuel => hw.trie.chainUp_cut (D := fun n => n ∈ done) h.parent hcut fuel hp
  refine ⟨p, t, r, (h.parent y hyd).trans hpar, (h.key y hyd).trans hkey, hchild, hp,
    (hchain _).1, ?_, ?_, ?_⟩
  · intro hm
    have := ((hchain _).2 y hm).2.1.length_le
    omega
  · rw [ancestors, chainUp]
    split <;> simp
  · intro n hn
    obtain ⟨hn', hnp, hz⟩ := (hchain _).2 n hn
    refine ⟨hn', hnp.trans hlt.1, ?_, fun z hzm hzd hnz hzy => ?_⟩
    · rintro rfl
      have := hnp.length_le
      omega
    · rcases hw.trie.prefix_parent hy hzm hpar hzy with rfl | hzp
      · exact absurd hzd hyd
      · exact hz z hzm hzd hnz hzp

lemma Evicted.step : Evicted c₀ (c.evictNode y) (y :: done) := by
  by_cases hyd : y ∈ done
  · -- the node is gone already, and nothing happens
    rw [evictNode_gone h hyd]
    refine h.congr fun n => ?_
    rw [mem_cons]
    exact ⟨fun hn => hn.elim (fun he => he ▸ hyd) id, .inr⟩
  · obtain ⟨p, t, r, hc⟩ := h.chain hw hy hyr hyd
    obtain ⟨hroot, hnext, hall⟩ := evictNode_frame c y
    have hall := hall (h.rootNode ▸ hyr)
    have hkept := fun n (hn : n ∉ y :: done) => (hc.heap_eq h hyr n).trans
      (if_neg fun he : n = y => hn (he ▸ mem_cons_self))
    have hold : ∀ n, n ∉ y :: done → n ∉ done := fun n hn hd => hn (mem_cons_of_mem y hd)
    refine ⟨hroot.trans h.rootNode, hnext.trans h.nextNodeID, ?_, ?_, ?_, ?_, ?_, ?_, ?_, ?_⟩
    · intro n
      rw [hall, h.nodup.mem_erase_iff, h.allNodes n, mem_cons]
      tauto
    · rw [hall]
      exact h.nodup.erase y
    · intro n
      rw [hc.heap_eq h hyr n]
      split
      · rename_i hny
        exact hny ▸ h.contextLength y
      · exact h.contextLength n
    · exact fun n hn => hkept n hn ▸ h.key n (hold n hn)
    · exact fun n hn => hkept n hn ▸ h.value n (hold n hn)
    · exact fun n hn => hkept n hn ▸ h.parent n (hold n hn)
    · intro n hn₀ hn a m
      have hnd := hold n hn
      rw [hkept n hn, mem_cons, not_or]
      by_cases hnp : n = p
      · -- the parent loses the evicted child, which is stored under `t`, and no other
        subst hnp
        rw [if_pos rfl]
        by_cases ha : a = t
        · subst ha
          rw [hc.child]
          refine iff_of_false (by simp) ?_
          rintro ⟨he, hmy, _⟩
          exact absurd (Option.some.inj he).symm hmy
        · rw [AList.lookup_erase_ne ha, h.children n hn₀ hnd]
          refine and_congr_right fun hm => (and_iff_right ?_).symm
          rintro rfl
          exact ha (hw.trie.child_injective hn₀ hc.mem hm hc.child).2
      · rw [if_neg hnp, h.children n hn₀ hnd]
        refine and_congr_right fun hm => (and_iff_right ?_).symm
        rintro rfl
        exact hnp (hw.trie.child_injective hn₀ hc.mem hm hc.child).1
    · intro n hn
      rw [hc.heap_eq h hyr n]
      split
      · exact ⟨rfl, rfl, rfl, rfl, rfl⟩
      · -- a node that was gone before has nothing left to lose
        rename_i hny
        obtain ⟨hpar, hch, hpods, hval, hkey⟩ := h.gone n ((mem_cons.mp hn).resolve_left hny)
        refine ⟨hpar, ?_, ?_, hval, hkey⟩
        · split
          · rename_i hnp
            rw [← hnp, hch]
            rfl
          · exact hch
        · dsimp only
          split
          · exact TreeNode.removePodsOf_of_empty hpods (c.heap y)
          · exact hpods

lemma Evicted.has_of_step (hn : (c.evictNode y).has model podIP n = true) :
    c.has model podIP n = true := by
  by_cases hyd : y ∈ done
  · rwa [evictNode_gone h hyd] at hn
  · obtain ⟨p, t, r, hc⟩ := h.chain hw hy hyr hyd
    by_cases hny : n = y
    · rw [has, hc.heap_eq h hyr n, if_pos hny] at hn
      simp [cleared, TreeNode.hasPodForModel] at hn
    · rw [hc.has_eq h hyr hny, Bool.and_eq_true] at hn
      exact hn.1

/-- **How a pod is lost**: to an evicted node below that records it, with nothing
gone in between. -/
lemma Evicted.lost (hn : n ∉ y :: done) (hb : c.has model podIP n = true)
    (ha : (c.evictNode y).has model podIP n = false) :
    c.has model podIP y = true ∧ path n <+: path y ∧
      ∀ z ∈ c₀.allNodes, z ∈ done → path n <+: path z → ¬ path z <+: path y := by
  have hny : n ≠ y := fun he => hn (he ▸ mem_cons_self)
  have hnd : n ∉ done := fun hd => hn (mem_cons_of_mem y hd)
  by_cases hyd : y ∈ done
  · rw [evictNode_gone h hyd, hb] at ha
    simp at ha
  · obtain ⟨p, t, r, hc⟩ := h.chain hw hy hyr hyd
    rw [hc.has_eq h hyr hny, hb] at ha
    obtain ⟨hna, hhas⟩ : n ∈ c.ancestors p ∧ c.has model podIP y = true := by simpa using ha
    obtain ⟨_, hpre, _, hclear⟩ := hc.clear n hna
    exact ⟨hhas, hpre, fun z hz hzd hnz hzy => hnd (hclear z hz hzd hnz hzy ▸ hzd)⟩

end

/-! ### The nodes that are collected -/

variable {now : Time} {order : RangeOrder}

lemma mem_childList (n m : NodeId) :
    m ∈ c.childList n ↔ ∃ t, (c.heap n).children.lookup t = some m := by
  rw [childList, mem_map]
  constructor
  · rintro ⟨⟨t, m'⟩, he, rfl⟩
    exact ⟨t, AList.mem_lookup_iff.mpr he⟩
  · rintro ⟨t, ht⟩
    exact ⟨⟨t, m⟩, AList.mem_lookup_iff.mp ht, rfl⟩

variable {n : NodeId}

lemma WF.nodup_childList (hw : WF c path) (hn : n ∈ c.allNodes) : (c.childList n).Nodup := by
  have hent : (c.heap n).children.entries.Nodup := List.Nodup.of_map _ (c.heap n).children.nodupKeys
  refine List.Nodup.map_on ?_ hent
  rintro ⟨s, a⟩ ha ⟨t, b⟩ hb (rfl : a = b)
  obtain ⟨-, rfl⟩ := hw.trie.child_injective hn hn (AList.mem_lookup_iff.mpr ha)
    (AList.mem_lookup_iff.mpr hb)
  rfl

/-- **What is collected** for a node: itself and everything below it. -/
lemma WF.mem_collectNodeAndChildren (hw : WF c path) (hn : n ∈ c.allNodes) (hnr : n ≠ c.rootNode)
    (m : NodeId) :
    m ∈ c.collectNodeAndChildren order n ↔ m ∈ c.allNodes ∧ path n <+: path m := by
  have hsucc : Trie.Successors c.links
      fun m => (order.children n m (c.childList m)).reverse := by
    refine ⟨fun a _ b => ?_, fun a ha => ?_⟩
    · rw [mem_reverse, (order.children_perm n a _).mem_iff]
      exact mem_childList a b
    · rw [nodup_reverse, (order.children_perm n a _).nodup_iff]
      exact hw.nodup_childList ha
  have hfin : {m | c.links.nodes m}.Finite := by
    refine (c.allNodes.toFinset.finite_toSet).subset fun m hm => ?_
    simpa [links] using hm
  have hcard : (c.links.under path [n]).ncard ≤ c.allNodes.length := by
    have hsub : c.links.under path [n] ⊆ (c.allNodes.toFinset : Set NodeId) := by
      intro m hm
      simpa [links] using hm.1
    calc (c.links.under path [n]).ncard ≤ ((c.allNodes.toFinset : Set NodeId)).ncard :=
          Set.ncard_le_ncard hsub (c.allNodes.toFinset.finite_toSet)
      _ = c.allNodes.toFinset.card := Set.ncard_coe_finset _
      _ ≤ c.allNodes.length := toFinset_card_le _
  rw [collectNodeAndChildren, if_neg hnr,
    hw.trie.mem_collect_iff hsucc hfin _ [n] (by simpa [links] using hn) (by simp) hcard]
  simp [Links.under, links]

lemma collectNodeAndChildren_head (order : RangeOrder) (hn : n ∈ c.allNodes)
    (hnr : n ≠ c.rootNode) :
    ∃ l, c.collectNodeAndChildren order n = n :: l := by
  obtain ⟨k, hk⟩ : ∃ k, c.allNodes.length = k + 1 :=
    Nat.exists_eq_succ_of_ne_zero (length_pos_of_mem hn).ne'
  rw [collectNodeAndChildren, if_neg hnr, hk]
  exact ⟨_, rfl⟩

lemma WF.doomed_ne_root (hw : WF c path) (hd : c.Doomed path now n) : n ≠ c.rootNode := by
  rintro rfl
  obtain ⟨_, s, ⟨hs, hsr, _⟩, hpre⟩ := hd
  rw [hw.path_root] at hpre
  exact hsr (hw.trie.eq_root_of_path_nil hs (prefix_nil.mp hpre))

lemma WF.evictable (hw : WF c path) (hd : c.Doomed path now n) : n ∈ c.allNodes ∧ n ≠ c.rootNode :=
  ⟨hd.1, hw.doomed_ne_root hd⟩

/-- **What is evicted**: the nodes at or below a stale one. -/
lemma WF.mem_nodesToEvict (hw : WF c path) (m : NodeId) :
    m ∈ c.nodesToEvict now order ↔ c.Doomed path now m := by
  rw [nodesToEvict, mem_flatMap]
  constructor
  · rintro ⟨n, hn, hm⟩
    have hn : n ∈ c.allNodes := (order.nodes_perm _).mem_iff.mp hn
    split at hm
    · rename_i hst
      obtain ⟨hm', hpre⟩ := (hw.mem_collectNodeAndChildren hn hst.1 m).mp hm
      exact ⟨hm', n, ⟨hn, hst.1, hst.2⟩, hpre⟩
    · simp at hm
  · rintro ⟨hm, n, ⟨hn, hnr, hst⟩, hpre⟩
    refine ⟨n, (order.nodes_perm _).mem_iff.mpr hn, ?_⟩
    rw [if_pos ⟨hnr, hst⟩]
    exact (hw.mem_collectNodeAndChildren hn hnr m).mpr ⟨hm, hpre⟩

/-- Every node of the list is stale or comes after a stale node above it. -/
def Guarded (c : LPRadixCache) (path : NodeId → List Token) (now : Time) (ys : List NodeId) : Prop :=
  ∀ pre y post, ys = pre ++ y :: post → c.Stale now y ∨ ∃ s ∈ pre, c.Stale now s ∧ path s <+: path y

lemma Guarded.append {ys zs : List NodeId} (hy : Guarded c path now ys)
    (hz : Guarded c path now zs) : Guarded c path now (ys ++ zs) := by
  intro pre y post he
  rcases append_eq_append_iff.mp he with ⟨w, hpre, hzs⟩ | ⟨w, hys, hpost⟩
  · rcases hz w y post hzs with hst | ⟨s, hs, hst⟩
    · exact .inl hst
    · exact .inr ⟨s, by rw [hpre]; exact mem_append_right _ hs, hst⟩
  · cases w with
    | nil =>
      rcases hz [] y post (by simpa using hpost.symm) with hst | ⟨s, hs, _⟩
      · exact .inl hst
      · simp at hs
    | cons a w =>
      obtain ⟨rfl, -⟩ := List.cons.inj hpost
      exact hy pre y w hys

lemma WF.guarded_nodesToEvict (hw : WF c path) : Guarded c path now (c.nodesToEvict now order) := by
  have hmem : ∀ n ∈ order.nodes c.allNodes, n ∈ c.allNodes := fun n hn =>
    (order.nodes_perm _).mem_iff.mp hn
  rw [nodesToEvict]
  generalize order.nodes c.allNodes = ns at hmem ⊢
  induction ns with
  | nil => intro pre y post he; simp at he
  | cons n ns ih =>
    rw [flatMap_cons]
    refine .append ?_ (ih fun m hm => hmem m (mem_cons_of_mem n hm))
    have hn := hmem n mem_cons_self
    split
    · rename_i hst
      have hstale : c.Stale now n := ⟨hn, hst.1, hst.2⟩
      intro pre y post he
      obtain ⟨l, hl⟩ := collectNodeAndChildren_head order hn hst.1
      have hy : y ∈ c.collectNodeAndChildren order n := by rw [he]; simp
      obtain ⟨_, hpre⟩ := (hw.mem_collectNodeAndChildren hn hst.1 y).mp hy
      cases pre with
      | nil =>
        rw [hl] at he
        exact .inl ((List.cons.inj he).1 ▸ hstale)
      | cons a pre =>
        rw [hl] at he
        exact .inr ⟨a, by simp, (List.cons.inj he).1 ▸ hstale, (List.cons.inj he).1 ▸ hpre⟩
    · intro pre y post he
      simp at he

/-! ### The whole loop -/

section

lemma Evicted.run (hw : WF c₀ path) : ∀ (ys : List NodeId) (c : LPRadixCache) (done : List NodeId),
    (∀ y ∈ ys, y ∈ c₀.allNodes ∧ y ≠ c₀.rootNode) → Evicted c₀ c done →
      Evicted c₀ (ys.foldl evictNode c) (ys.reverse ++ done) ∧ ∀ model podIP n,
        (ys.foldl evictNode c).has model podIP n = true → c.has model podIP n = true := by
  intro ys
  induction ys with
  | nil => exact fun c done _ h => ⟨h, fun _ _ _ hn => hn⟩
  | cons y ys ih =>
    intro c done hys h
    obtain ⟨hy, hyr⟩ := hys y mem_cons_self
    obtain ⟨hrun, hhas⟩ := ih (c.evictNode y) (y :: done)
      (fun z hz => hys z (mem_cons_of_mem y hz)) (h.step hw hy hyr)
    rw [reverse_cons, append_assoc]
    exact ⟨hrun, fun model podIP n hn => h.has_of_step hw hy hyr (hhas model podIP n hn)⟩

lemma Evicted.keeps (hw : WF c₀ path) {now : Time} (hn : n ∈ c₀.allNodes)
    (hdoom : ¬ c₀.Doomed path now n)
    (hno : ∀ s, c₀.Stale now s → path n <+: path s → c₀.has model podIP s = false)
    (ys : List NodeId) (hys : ∀ y ∈ ys, c₀.Doomed path now y) (hguard : Guarded c₀ path now ys)
    (hhas : c₀.has model podIP n = true) :
    (ys.foldl evictNode c₀).has model podIP n = true := by
  induction ys using List.reverseRecOn with
  | nil => exact hhas
  | append_singleton pre y ih =>
    have hdoomed : ∀ z ∈ pre, c₀.Doomed path now z := fun z hz => hys z (mem_append_left _ hz)
    have hgpre : Guarded c₀ path now pre := fun p z q he =>
      hguard p z (q ++ [y]) (by rw [he, append_assoc]; rfl)
    have hkeep := ih hdoomed hgpre
    obtain ⟨hev, hhas₀⟩ := Evicted.run hw pre c₀ [] (fun z hz => hw.evictable (hdoomed z hz))
      (Evicted.refl hw)
    have hy : c₀.Doomed path now y := hys y (by simp)
    by_contra hlost
    have hnot : n ∉ y :: (pre.reverse ++ []) := by
      intro hmem
      rcases mem_cons.mp hmem with rfl | hmem
      · exact hdoom hy
      · exact hdoom (hdoomed n (by simpa using hmem))
    obtain ⟨hhasy, hpre, hclear⟩ := hev.lost hw hy.1 (hw.doomed_ne_root hy) hnot hkeep
      (by simpa using hlost)
    have hhasy₀ := hhas₀ model podIP y hhasy
    -- `y` is not stale, as it records the pod; so a stale node above it is gone already
    rcases hguard pre y [] rfl with hst | ⟨s, hs, hst, hsy⟩
    · rw [hno y hst hpre] at hhasy₀
      simp at hhasy₀
    · rcases prefix_or_prefix_of_prefix hsy hpre with hsn | hns
      · exact hdoom ⟨hn, s, hst, hsn⟩
      · exact hclear s hst.1 (by simpa using hs) hns hsy

variable (hw : WF c₀ path) (now : Time) (order : RangeOrder)
include hw

lemma evict_run :
    Evicted c₀ (c₀.evict now order) (c₀.nodesToEvict now order).reverse ∧ ∀ model podIP n,
      (c₀.evict now order).has model podIP n = true → c₀.has model podIP n = true := by
  have hrun := Evicted.run hw (c₀.nodesToEvict now order) c₀ []
    (fun z hz => hw.evictable ((hw.mem_nodesToEvict z).mp hz)) (Evicted.refl hw)
  rwa [append_nil] at hrun

lemma evict_evicted : Evicted c₀ (c₀.evict now order) (c₀.nodesToEvict now order).reverse :=
  (evict_run hw now order).1

lemma mem_reverse_nodesToEvict (n : NodeId) :
    n ∈ (c₀.nodesToEvict now order).reverse ↔ c₀.Doomed path now n := by
  rw [mem_reverse, hw.mem_nodesToEvict]

lemma mem_allNodes_evict (n : NodeId) :
    n ∈ (c₀.evict now order).allNodes ↔ n ∈ c₀.allNodes ∧ ¬ c₀.Doomed path now n := by
  rw [(evict_evicted hw now order).allNodes, mem_reverse_nodesToEvict hw]

/-- **The tree after an eviction is well formed**, in whatever order the nodes were
visited and however often they were collected. -/
lemma evict_wf : WF (c₀.evict now order) path := by
  have hev := evict_evicted hw now order
  have hd := mem_reverse_nodesToEvict hw now order
  have hnodes := mem_allNodes_evict hw now order
  have hnot : ∀ n ∈ (c₀.evict now order).allNodes, n ∉ (c₀.nodesToEvict now order).reverse :=
    fun n hn => ((hev.allNodes n).mp hn).2
  refine ⟨?_, ?_, ?_, ?_, hev.nodup⟩
  · refine hw.trie.prune (D := c₀.Doomed path now) hev.rootNode ?_ ?_ hnodes
      (fun n hn => hev.key n (hnot n hn)) (fun n hn => hev.parent n (hnot n hn)) ?_
    · exact fun hroot => hw.doomed_ne_root hroot rfl
    · rintro p t n hp hc ⟨_, s, hst, hpre⟩
      exact ⟨(hw.down hp hc).1, s, hst, hpre.trans (hw.trie.prefix_child hp hc)⟩
    · intro p hp t n
      rw [← hd n]
      exact hev.children p ((hnodes p).mp hp).1 (hnot p hp) t n
  · intro n hn
    rw [hev.contextLength]
    exact hw.contextLength_eq n ((hnodes n).mp hn).1
  · intro n hn
    rw [hev.value n (hnot n hn), hev.key n (hnot n hn)]
    exact hw.value_eq n ((hnodes n).mp hn).1
  · intro n hn
    rw [hev.nextNodeID]
    exact hw.lt_nextNodeID n ((hnodes n).mp hn).1

end

lemma persistent_evictNode (c : LPRadixCache) (y n : NodeId) :
    ((c.evictNode y).heap n).persistent = (c.heap n).persistent := by
  have hall : ∀ ns nd, ((c.modifyAll ns fun _ (parent : TreeNode) => parent.removePodsOf nd).heap
      n).persistent = (c.heap n).persistent := fun ns nd =>
    (Same.modifyAll (g := TreeNode.persistent) (fun _ _ => by rfl) ns c).heap n
  unfold evictNode
  split
  · rfl
  · rw [field_modify TreeNode.persistent _ _ _ fun _ => by rfl]
    cases (c.heap y).parent with
    | none => rfl
    | some p =>
      cases (c.heap y).key with
      | nil => exact hall _ _
      | cons t r => exact (field_modify TreeNode.persistent _ _ _ fun _ => by rfl).trans (hall _ _)

lemma persistent_evict (c : LPRadixCache) (now : Time) (order : RangeOrder) (n : NodeId) :
    ((c.evict now order).heap n).persistent = (c.heap n).persistent := by
  unfold evict
  generalize c.nodesToEvict now order = ys
  induction ys generalizing c with
  | nil => rfl
  | cons y ys ih => exact (ih (c.evictNode y)).trans (persistent_evictNode c y n)

end LPRadixCache
end Lodestar.Indexer
