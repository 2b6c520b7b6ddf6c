import Lodestar.Indexer.Matching

/-!
# The tree as a set of added prefixes

Without eviction and re-homing the tree is a compressed form of the list of
prefixes that were added: a node records a pod exactly when one of the prefixes
added for that model and pod runs through it, and each added prefix ends at a
node (`Represents`).  The three kinds of nodes an insertion leaves (old ones,
new leaves, nodes that split an edge) keep this, so it holds after any sequence
of additions (`represents_addAll`).

On such a tree the matcher finds, for a query, the longest common prefix with an
added sequence (`bestMatch`): `recordedLen_eq_bestMatch` follows the matched path
node by node.
-/

namespace Lodestar.Indexer

open Lib List

namespace LPRadixCache

/-- One call of `AddPrefix`, with the clock readings it makes. -/
structure Add where
  tokens : List Token
  model : String
  podIP : String
  now : ℕ → Time
  stamp : NodeId → Time

/-- The tree after a sequence of calls of `AddPrefix`. -/
def addAll (c : LPRadixCache) (adds : List Add) : LPRadixCache :=
  adds.foldl (fun c a => (c.addPrefix a.tokens a.model a.podIP a.now a.stamp).cache) c

/-- The largest common-prefix length of the tokens and a sequence that was added
for the model and the pod. -/
def bestMatch (adds : List Add) (tokens : List Token) (model podIP : String) : ℕ :=
  ((adds.filter fun a => a.model = model ∧ a.podIP = podIP).map
    fun a => lcpLen tokens a.tokens).foldr max 0

structure Represents (c : LPRadixCache) (path : NodeId → List Token) (adds : List Add) : Prop where
  has_iff : ∀ n ∈ c.allNodes, ∀ model podIP, c.has model podIP n = true ↔
    ∃ a ∈ adds, a.model = model ∧ a.podIP = podIP ∧ path n <+: a.tokens
  spelled : ∀ a ∈ adds, ∃ n ∈ c.allNodes, path n = a.tokens

lemma represents_new (now : Time) : Represents (LPRadixCache.new now) (fun _ => []) [] := by
  refine ⟨?_, by simp⟩
  intro n hn model podIP
  have hn : n = 0 := by simpa [LPRadixCache.new, newTreeNode] using hn
  subst hn
  simp [has, LPRadixCache.new, newTreeNode, TreeNode.hasPodForModel, TreeNode.zero]

lemma Represents.grows {c c' : LPRadixCache} {path path' : NodeId → List Token} {adds : List Add}
    {S : NodeId → Prop} (h : Represents c path adds) (hg : Grows S c c' path path') :
    Represents c' path' adds := by
  refine ⟨?_, ?_⟩
  · intro n hn model podIP
    by_cases hold : n ∈ c.allNodes
    · rw [has, TreeNode.hasPodForModel_eq, hg.pods_eq n hold, hg.path_eq n hold]
      exact h.has_iff n hold model podIP
    · rw [has, TreeNode.hasPodForModel_eq]
      rcases hg.new n hn hold with ⟨hpods, hleaf⟩ | ⟨ch, _, hch, hpre, hpods, hbelow⟩
      · -- a new leaf records nothing, and no added prefix runs through it
        rw [hpods]
        constructor
        · intro hfalse
          simp [TreeNode.records] at hfalse
        · rintro ⟨a, ha, _, _, hna⟩
          obtain ⟨y, hy, hya⟩ := h.spelled a ha
          exact absurd (hya ▸ hna) (hleaf y hy)
      · -- a prefix runs through the new node exactly when it runs through `ch`
        rw [hpods, ← TreeNode.hasPodForModel_eq, ← has, h.has_iff ch hch]
        constructor
        · rintro ⟨a, ha, hm, hp, hca⟩
          exact ⟨a, ha, hm, hp, hpre.trans hca⟩
        · rintro ⟨a, ha, hm, hp, hna⟩
          obtain ⟨y, hy, hya⟩ := h.spelled a ha
          exact ⟨a, ha, hm, hp, hya ▸ hbelow y hy (hya ▸ hna)⟩
  · intro a ha
    obtain ⟨n, hn, hna⟩ := h.spelled a ha
    exact ⟨n, hg.mem n hn, (hg.path_eq n hn).trans hna⟩

lemma Represents.addPrefix {c : LPRadixCache} {path : NodeId → List Token} {adds : List Add}
    (hw : WF c path) (h : Represents c path adds) (a : Add) (hpod : a.podIP ≠ "") :
    ∃ path', WF (c.addPrefix a.tokens a.model a.podIP a.now a.stamp).cache path' ∧
      Represents (c.addPrefix a.tokens a.model a.podIP a.now a.stamp).cache path' (adds ++ [a]) := by
  obtain ⟨path', hw', hg, hmem, hpath⟩ := insert_spec hw a.tokens a.now
  have hr := h.grows hg
  have hs : SameShape (c.insert a.tokens a.now).cache
      (c.addPrefix a.tokens a.model a.podIP a.now a.stamp).cache := addPrefix_sameShape
  refine ⟨path', hs.wf hw', ?_, ?_⟩
  · intro n hn model podIP
    rw [hs.allNodes] at hn
    rw [has, addPrefix_hasPodForModel hw' hmem hpath hpod hn, ← has, hr.has_iff n hn]
    constructor
    · rintro (⟨b, hb, hm, hp, hnb⟩ | ⟨rfl, rfl, hna⟩)
      · exact ⟨b, mem_append_left _ hb, hm, hp, hnb⟩
      · exact ⟨a, by simp, rfl, rfl, hna⟩
    · rintro ⟨b, hb, hm, hp, hnb⟩
      rcases mem_append.mp hb with hb | hb
      · exact .inl ⟨b, hb, hm, hp, hnb⟩
      · obtain rfl := List.mem_singleton.mp hb
        exact .inr ⟨hm.symm, hp.symm, hnb⟩
  · intro b hb
    rw [hs.allNodes]
    rcases mem_append.mp hb with hb | hb
    · exact hr.spelled b hb
    · obtain rfl := List.mem_singleton.mp hb
      exact ⟨_, hmem, hpath⟩

lemma represents_addAll (t : Time) (adds : List Add) (hpod : ∀ a ∈ adds, a.podIP ≠ "") :
    ∃ path, WF ((LPRadixCache.new t).addAll adds) path ∧
      Represents ((LPRadixCache.new t).addAll adds) path adds := by
  induction adds using List.reverseRecOn with
  | nil => exact ⟨_, WF.new t, represents_new t⟩
  | append_singleton adds a ih =>
    obtain ⟨path, hw, hr⟩ := ih fun b hb => hpod b (mem_append_left _ hb)
    rw [addAll, foldl_append]
    exact hr.addPrefix hw a (hpod a (by simp))

/-! ### The matched path finds the best added prefix -/

variable {c : LPRadixCache} {path : NodeId → List Token} {adds : List Add} {model podIP : String}

/-- The additions for the model and the pod that run through a node. -/
def Through (adds : List Add) (model podIP : String) (p : List Token) (a : Add) : Prop :=
  a ∈ adds ∧ a.model = model ∧ a.podIP = podIP ∧ p <+: a.tokens

/-- What is left of an added prefix beyond a node on its way. -/
def Add.beyond (a : Add) (p : List Token) : List Token := a.tokens.drop p.length

lemma Through.tokens_eq {p : List Token} {a : Add} (h : Through adds model podIP p a) :
    a.tokens = p ++ a.beyond p := by
  obtain ⟨w, hw⟩ := h.2.2.2
  rw [Add.beyond, ← hw, drop_left]

lemma Through.child (hw : WF c path) (hr : Represents c path adds) {node : NodeId} {t : Token}
    {w : List Token} (hn : node ∈ c.allNodes) {a : Add}
    (ha : Through adds model podIP (path node) a) (hb : a.beyond (path node) = t :: w) :
    ∃ child, (c.heap node).children.lookup t = some child ∧
      Through adds model podIP (path child) a := by
  obtain ⟨y, hy, hya⟩ := hr.spelled a ha.1
  have hpre : path node ++ [t] <+: path y := ⟨w, by rw [hya, ha.tokens_eq, hb]; simp⟩
  obtain ⟨child, hc, hcy⟩ := hw.trie.descend hn hy hpre
  exact ⟨child, hc, ha.1, ha.2.1, ha.2.2.1, hya ▸ hcy⟩

lemma Through.beyond_child (hw : WF c path) {node child : NodeId} {t : Token}
    (hn : node ∈ c.allNodes) (hc : (c.heap node).children.lookup t = some child) {a : Add}
    (ha : Through adds model podIP (path child) a) :
    Through adds model podIP (path node) a ∧
      a.beyond (path node) = (c.heap child).key ++ a.beyond (path child) := by
  have hpc : path child = path node ++ (c.heap child).key := hw.trie.path_child hn hc
  have hthr : Through adds model podIP (path node) a :=
    ⟨ha.1, ha.2.1, ha.2.2.1, (hpc ▸ prefix_append _ _).trans ha.2.2.2⟩
  refine ⟨hthr, ?_⟩
  have h1 := ha.tokens_eq
  rw [hthr.tokens_eq, hpc, append_assoc] at h1
  rw [hpc]
  exact append_cancel_left h1

/-- `M` is the largest common-prefix length of the tokens and what is left, beyond
`p`, of an added prefix through `p`; zero if there is none. -/
structure IsBest (adds : List Add) (model podIP : String) (p tokens : List Token) (M : ℕ) :
    Prop where
  le : ∀ a, Through adds model podIP p a → lcpLen tokens (a.beyond p) ≤ M
  attained : M = 0 ∨ ∃ a, Through adds model podIP p a ∧ lcpLen tokens (a.beyond p) = M

lemma isBest_nil (p : List Token) : IsBest adds model podIP p [] 0 :=
  ⟨fun a _ => by simp, .inl rfl⟩

lemma isBest_zero {p : List Token} {t : Token} {rest : List Token}
    (h : ∀ a, Through adds model podIP p a → ∀ w, a.beyond p ≠ t :: w) :
    IsBest adds model podIP p (t :: rest) 0 := by
  refine ⟨fun a ha => ?_, .inl rfl⟩
  cases hb : a.beyond p with
  | nil => simp
  | cons s w =>
    rw [lcpLen_cons, if_neg]
    rintro rfl
    exact h a ha w hb

section

variable (hw : WF c path) (hr : Represents c path adds) {node child : NodeId} {t : Token}
  {rest : List Token} (hn : node ∈ c.allNodes)
  (hc : (c.heap node).children.lookup t = some child)
include hw hr hn hc

lemma lcpLen_beyond_of_child {a : Add} (ha : Through adds model podIP (path node) a)
    (rest : List Token) : lcpLen (t :: rest) (a.beyond (path node)) = 0 ∨
      Through adds model podIP (path child) a := by
  cases hb : a.beyond (path node) with
  | nil => exact .inl (lcpLen_nil_right _)
  | cons s w =>
    by_cases hts : t = s
    · subst hts
      obtain ⟨child', hc', ha'⟩ := ha.child hw hr hn hb
      obtain rfl : child = child' := Option.some.inj (hc.symm.trans hc')
      exact .inr ha'
    · exact .inl (by rw [lcpLen_cons, if_neg hts])

/-- The best match at a node from the one at the child on the way. -/
lemma IsBest.above {M k : ℕ} {rest' : List Token}
    (hlen : ∀ a, Through adds model podIP (path child) a →
      lcpLen (t :: rest) (a.beyond (path node)) = k + lcpLen rest' (a.beyond (path child)))
    (hM : IsBest adds model podIP (path child) rest' M) :
    IsBest adds model podIP (path node) (t :: rest)
      ((if c.has model podIP child then k else 0) + M) := by
  have hhas := hr.has_iff child (hw.down hn hc).1 model podIP
  refine ⟨fun a ha => ?_, ?_⟩
  · rcases lcpLen_beyond_of_child hw hr hn hc ha rest with h0 | hthr
    · omega
    · rw [hlen a hthr, if_pos (hhas.mpr ⟨a, hthr⟩)]
      exact Nat.add_le_add_left (hM.le a hthr) k
  · by_cases hh : c.has model podIP child = true
    · rw [if_pos hh]
      obtain ⟨a, ha, hla⟩ : ∃ a, Through adds model podIP (path child) a ∧
          lcpLen rest' (a.beyond (path child)) = M := by
        rcases hM.attained with rfl | h
        · obtain ⟨a, ha⟩ := hhas.mp hh
          exact ⟨a, ha, Nat.le_zero.mp (hM.le a ha)⟩
        · exact h
      exact .inr ⟨a, (ha.beyond_child hw hn hc).1, by rw [hlen a ha, hla]⟩
    · -- nothing added for the pod runs through the child, so nothing below counts
      rw [if_neg hh, Nat.zero_add]
      rcases hM.attained with h0 | ⟨a, ha, _⟩
      · exact .inl h0
      · exact absurd (hhas.mpr ⟨a, ha⟩) hh

end

lemma recordedLen_isBest (hw : WF c path) (hr : Represents c path adds) : ∀ (fuel : ℕ)
    (node : NodeId) (tokens : List Token), node ∈ c.allNodes → tokens.length < fuel →
    IsBest adds model podIP (path node) tokens
      (c.recordedLen model podIP (matchedPathFrom fuel c node tokens)) := by
  intro fuel
  induction fuel with
  | zero => intro node tokens _ hlt; omega
  | succ fuel ih =>
    intro node tokens hn hlt
    cases tokens with
    | nil => exact isBest_nil _
    | cons t rest =>
      cases hc : (c.heap node).children.lookup t with
      | none =>
        rw [matchedPathFrom_of_none hc]
        refine isBest_zero fun a ha w hb => ?_
        obtain ⟨child, hc', _⟩ := ha.child hw hr hn hb
        rw [hc] at hc'
        simp at hc'
      | some child =>
        obtain ⟨hch, _, _, r, hkey⟩ := hw.down hn hc
        by_cases hk : matchLen (c.heap child).key (t :: rest) = (c.heap child).key.length
        · obtain ⟨rest', hrest⟩ := (lcpLen_eq_left_iff _ _).mp hk
          rw [matchedPathFrom_of_full hc hk, ← hrest, drop_left, hrest]
          have hlen : rest'.length < fuel := by
            have := congrArg List.length hrest
            rw [length_append, hkey, length_cons] at this
            omega
          refine (ih child rest' hch hlen).above hw hr hn hc fun a ha => ?_
          rw [(ha.beyond_child hw hn hc).2, ← hrest, lcpLen_append]
        · have hlt' := lt_of_le_of_ne (lcpLen_le_left _ _) hk
          rw [matchedPathFrom_of_part hc hk, recordedLen_cons]
          refine (isBest_nil (path child)).above hw hr hn hc fun a ha => ?_
          rw [(ha.beyond_child hw hn hc).2, lcpLen_comm, lcpLen_append_of_lt hlt', matchLen]
          simp

lemma le_bestMatch {a : Add} (ha : a ∈ adds) (hm : a.model = model) (hp : a.podIP = podIP)
    (tokens : List Token) : lcpLen tokens a.tokens ≤ bestMatch adds tokens model podIP := by
  refine le_max_of_le' 0 (mem_map_of_mem ?_) le_rfl
  simp [ha, hm, hp]

lemma foldr_max_mem (l : List ℕ) : l.foldr max 0 = 0 ∨ l.foldr max 0 ∈ l := by
  induction l with
  | nil => exact .inl rfl
  | cons a l ih =>
    rw [foldr_cons, mem_cons]
    rcases max_choice a (l.foldr max 0) with h | h <;> rw [h]
    · exact .inr (.inl rfl)
    · exact ih.imp_right .inr

lemma bestMatch_attained (adds : List Add) (tokens : List Token) (model podIP : String) :
    bestMatch adds tokens model podIP = 0 ∨ ∃ a ∈ adds, a.model = model ∧ a.podIP = podIP ∧
        lcpLen tokens a.tokens = bestMatch adds tokens model podIP := by
  refine (foldr_max_mem _).imp_right fun h => ?_
  obtain ⟨a, ha, hla⟩ := mem_map.mp h
  obtain ⟨hmem, hm, hp⟩ : a ∈ adds ∧ a.model = model ∧ a.podIP = podIP := by simpa using ha
  exact ⟨a, hmem, hm, hp, hla⟩

lemma recordedLen_eq_bestMatch (hw : WF c path) (hr : Represents c path adds)
    (tokens : List Token) : c.recordedLen model podIP (c.matchedPath tokens) =
      bestMatch adds tokens model podIP := by
  have hbest : IsBest adds model podIP (path c.rootNode) tokens
      (c.recordedLen model podIP (c.matchedPath tokens)) :=
    recordedLen_isBest hw hr (tokens.length + 1) c.rootNode tokens hw.root_mem (Nat.lt_succ_self _)
  rw [hw.path_root] at hbest
  apply Nat.le_antisymm
  · rcases hbest.attained with h0 | ⟨a, ⟨ha, hm, hp, _⟩, hla⟩
    · omega
    · rw [← hla]
      exact le_bestMatch ha hm hp tokens
  · rcases bestMatch_attained adds tokens model podIP with h0 | ⟨a, ha, hm, hp, hla⟩
    · omega
    · rw [← hla]
      exact hbest.le a ⟨ha, hm, hp, nil_prefix⟩

/-- **The hit percentage after any additions** is the integer part of
`100 * L / len(tokens)`, where `L` is the largest common-prefix length of the
tokens and a sequence added for the same model and pod. -/
theorem hitRatio_addAll (t : Time) (adds : List Add) (hpod : ∀ a ∈ adds, a.podIP ≠ "")
    (tokens : List Token) (model podIP : String) (now : ℕ → Time) :
    ((LPRadixCache.new t).addAll adds).getCacheHitRatioForTargetPod tokens model podIP now =
      100 * bestMatch adds tokens model podIP / tokens.length := by
  obtain ⟨path, hw, hr⟩ := represents_addAll t adds hpod
  rw [getCacheHitRatioForTargetPod_eq hw, recordedLen_eq_bestMatch hw hr]

/-- Two sequences that share two tokens, and a query that follows the second one
for three of its four tokens. -/
theorem hitRatio_addAll_shared :
    let adds : List Add := [⟨[1, 2, 3], "m", "10.0.0.1", fun _ => 0, fun _ => 0⟩,
      ⟨[1, 2, 4, 5], "m", "10.0.0.1", fun _ => 0, fun _ => 0⟩]
    ((LPRadixCache.new 0).addAll adds).getCacheHitRatioForTargetPod [1, 2, 4, 6] "m" "10.0.0.1"
        (fun _ => 0) = 75 ∧ bestMatch adds [1, 2, 4, 6] "m" "10.0.0.1" = 3 := by
  refine ⟨?_, by decide⟩
  exact (hitRatio_addAll 0 _ (by decide) _ _ _ _).trans (by decide)

end LPRadixCache
end Lodestar.Indexer
