import Lodestar.Indexer.Insertion

/-!
# The per-pod hit percentage

`matchPrefixWithPodHelper` walks down the matched path and puts the result
together on the way back: the tokens on a node count when the node records the
pod, and the tokens below count in any case.  So the matched length is
`recordedLen`, the number of tokens on those nodes of the matched path that
record the pod (`matchPrefixWithPodHelper_spec`), and the percentage is
`100 * recordedLen / len(tokens)` rounded down (`getCacheHitRatioForTargetPod_eq`).

When no recording node of the path lies below one that does not record the pod
(`Contiguous`), this is the length of the longest prefix on recording nodes, and
the `append` of the source writes back the tokens it read: the caller's array is
unchanged.
-/

namespace Lodestar.Indexer

open Lib List

namespace LPRadixCache

section

variable (c : LPRadixCache) (model podIP : String)

def has (n : NodeId) : Bool :=
  (c.heap n).hasPodForModel model podIP

/-- The number of tokens on nodes of the path that record the pod. -/
def recordedLen (steps : List (NodeId × ℕ)) : ℕ :=
  (steps.map fun e => if c.has model podIP e.1 then e.2 else 0).sum

/-- The number of tokens on the recording nodes before the first other one. -/
def contiguousLen (steps : List (NodeId × ℕ)) : ℕ :=
  ((steps.takeWhile fun e => c.has model podIP e.1).map Prod.snd).sum

/-- No recording node comes after one that does not record the pod. -/
def Contiguous (steps : List (NodeId × ℕ)) : Prop :=
  steps.Pairwise fun a b => c.has model podIP b.1 → c.has model podIP a.1

end

/-- The length of the matched slice, zero when there is none. -/
def PodMatch.len (r : PodMatch) : ℕ :=
  match r.found with
  | none => 0
  | some (_, _, len) => len

variable {c : LPRadixCache} {model podIP : String} {path : NodeId → List Token}

@[simp] lemma recordedLen_nil : c.recordedLen model podIP [] = 0 := rfl

@[simp] lemma recordedLen_cons (e : NodeId × ℕ) (steps : List (NodeId × ℕ)) :
    c.recordedLen model podIP (e :: steps) =
      (if c.has model podIP e.1 then e.2 else 0) + c.recordedLen model podIP steps := by
  simp [recordedLen]

lemma recordedLen_eq_zero {steps : List (NodeId × ℕ)}
    (h : ∀ e ∈ steps, c.has model podIP e.1 = false) : c.recordedLen model podIP steps = 0 := by
  induction steps with
  | nil => rfl
  | cons e steps ih =>
    rw [recordedLen_cons, h e (by simp), ih fun e' he' => h e' (mem_cons_of_mem e he')]
    simp

lemma recordedLen_eq_contiguousLen {steps : List (NodeId × ℕ)}
    (h : c.Contiguous model podIP steps) :
    c.recordedLen model podIP steps = c.contiguousLen model podIP steps := by
  induction steps with
  | nil => rfl
  | cons e steps ih =>
    obtain ⟨he, hs⟩ := pairwise_cons.mp h
    by_cases hh : c.has model podIP e.1 = true
    · rw [recordedLen_cons, ih hs]
      simp [contiguousLen, hh]
    · have hno : ∀ e' ∈ e :: steps, c.has model podIP e'.1 = false := by
        intro e' he'
        rcases mem_cons.mp he' with rfl | he'
        · simpa using hh
        · rw [← Bool.not_eq_true]
          exact fun h' => hh (he e' he' h')
      rw [recordedLen_eq_zero hno]
      simp [contiguousLen, hh]

/-! ### The matched path and the paths of the nodes -/

/-- **The matched path** consists of the nodes whose edge the tokens enter. -/
lemma WF.mem_matchedPathFrom_iff (hw : WF c path) : ∀ (fuel : ℕ) (node : NodeId)
    (rest : List Token), node ∈ c.allNodes → rest.length < fuel → ∀ n k,
      (n, k) ∈ matchedPathFrom fuel c node rest ↔ ∃ p t, p ∈ c.allNodes ∧
        (c.heap p).children.lookup t = some n ∧ path node <+: path p ∧
        path p ++ [t] <+: path node ++ rest ∧
        k = matchLen (c.heap n).key ((path node ++ rest).drop (path p).length) := by
  intro fuel
  induction fuel with
  | zero => intro node rest _ hlt; omega
  | succ fuel ih =>
    intro node rest hn hlt n k
    cases rest with
    | nil =>
      rw [append_nil]
      refine iff_of_false (by simp) ?_
      rintro ⟨p, t, _, _, hnp, hpt, _⟩
      have hlen := hpt.length_le.trans hnp.length_le
      simp at hlen
    | cons t rest =>
      -- a node further down lies under the child at `t`
      have hdown : ∀ p a, p ∈ c.allNodes → path node <+: path p →
          path p ++ [a] <+: path node ++ t :: rest → p = node ∧ a = t ∨
          ∃ child, (c.heap node).children.lookup t = some child ∧ path child <+: path p := by
        intro p a hp hnp hpa
        rcases (hw.trie.under_cases hn hp).mp hnp with rfl | ⟨b, child, hc, hcp⟩
        · rw [prefix_append_right_inj, cons_prefix_cons] at hpa
          exact .inl ⟨rfl, hpa.1⟩
        · obtain ⟨r, -, hpath⟩ := hw.trie.path_child_cons hn hc
          have hpre := hcp.trans ((prefix_append _ _).trans hpa)
          rw [hpath, prefix_append_right_inj, cons_prefix_cons] at hpre
          exact .inr ⟨child, hpre.1 ▸ hc, hcp⟩
      cases hc : (c.heap node).children.lookup t with
      | none =>
        rw [matchedPathFrom_of_none hc]
        refine iff_of_false (by simp) ?_
        rintro ⟨p, a, hp, hpn, hnp, hpa, _⟩
        rcases hdown p a hp hnp hpa with ⟨rfl, rfl⟩ | ⟨child, hc', _⟩
        · simp [hc] at hpn
        · simp [hc] at hc'
      | some child =>
        obtain ⟨hch, _, _, r, hkey⟩ := hw.down hn hc
        have hpathch : path child = path node ++ (c.heap child).key := hw.trie.path_child hn hc
        have hfirst : matchLen (c.heap child).key (t :: rest) =
            matchLen (c.heap child).key ((path node ++ t :: rest).drop (path node).length) := by
          rw [drop_left]
        -- the nodes after the child are those under it
        obtain ⟨steps, hsteps, hunder⟩ : ∃ steps, matchedPathFrom (fuel + 1) c node (t :: rest) =
            (child, matchLen (c.heap child).key (t :: rest)) :: steps ∧
            ((n, k) ∈ steps ↔ ∃ p a, p ∈ c.allNodes ∧ (c.heap p).children.lookup a = some n ∧
              path child <+: path p ∧ path p ++ [a] <+: path node ++ t :: rest ∧
              k = matchLen (c.heap n).key ((path node ++ t :: rest).drop (path p).length)) := by
          by_cases hk : matchLen (c.heap child).key (t :: rest) = (c.heap child).key.length
          · obtain ⟨rest', hrest⟩ := (lcpLen_eq_left_iff _ _).mp hk
            have hlen := congrArg List.length hrest
            rw [length_append, hkey, length_cons] at hlen
            refine ⟨_, by rw [matchedPathFrom_of_full hc hk, hk], ?_⟩
            rw [← hrest, drop_left, ih child rest' hch (by omega), hpathch, append_assoc]
          · refine ⟨_, matchedPathFrom_of_part hc hk, iff_of_false (by simp) ?_⟩
            -- the tokens would use up the whole key of the child
            rintro ⟨p, a, _, _, hcp, hpa, _⟩
            have hpre := hcp.trans ((prefix_append _ _).trans hpa)
            rw [hpathch, prefix_append_right_inj] at hpre
            exact hk ((lcpLen_eq_left_iff _ _).mpr hpre)
        rw [hsteps, mem_cons, hunder, Prod.mk.injEq]
        constructor
        · rintro (⟨rfl, rfl⟩ | ⟨p, a, hp, hpn, hcp, hpa, hk'⟩)
          · exact ⟨node, t, hn, hc, prefix_refl _, by simp, hfirst⟩
          · exact ⟨p, a, hp, hpn, (hw.trie.prefix_child hn hc).trans hcp, hpa, hk'⟩
        · rintro ⟨p, a, hp, hpn, hnp, hpa, hk'⟩
          rcases hdown p a hp hnp hpa with ⟨rfl, rfl⟩ | ⟨child', hc', hcp⟩
          · obtain rfl : child = n := Option.some.inj (hc.symm.trans hpn)
            exact .inl ⟨rfl, hk'.trans hfirst.symm⟩
          · obtain rfl : child = child' := Option.some.inj (hc.symm.trans hc')
            exact .inr ⟨p, a, hp, hpn, hcp, hpa, hk'⟩

lemma WF.mem_matchedPath_iff (hw : WF c path) (tokens : List Token) (n : NodeId) (k : ℕ) :
    (n, k) ∈ c.matchedPath tokens ↔ ∃ p t, p ∈ c.allNodes ∧
      (c.heap p).children.lookup t = some n ∧ path p ++ [t] <+: tokens ∧
      k = matchLen (c.heap n).key (tokens.drop (path p).length) := by
  rw [matchedPath, hw.mem_matchedPathFrom_iff _ _ _ hw.root_mem (Nat.lt_succ_self _), hw.path_root]
  simp

lemma overwrite_same (array : List Token) (i len : ℕ) :
    overwrite array i ((array.drop i).take len) = array := by
  unfold overwrite
  rw [← drop_drop, append_assoc, ← prefix_append_drop ( take_prefix _ _), take_append_drop]

/-! ### The recursion of the matcher -/

structure OnlyVisited (c c' : LPRadixCache) : Prop where
  rootNode : c'.rootNode = c.rootNode
  allNodes : c'.allNodes = c.allNodes
  nextNodeID : c'.nextNodeID = c.nextNodeID
  heap : ∀ n, ∃ ts, c'.heap n = { c.heap n with lastAccess := ts }

namespace OnlyVisited

variable {c c' c'' : LPRadixCache}

lemma refl (c : LPRadixCache) : OnlyVisited c c := ⟨rfl, rfl, rfl, fun _ => ⟨_, rfl⟩⟩

lemma trans (h : OnlyVisited c c') (h' : OnlyVisited c' c'') : OnlyVisited c c'' := by
  refine ⟨h'.rootNode.trans h.rootNode, h'.allNodes.trans h.allNodes,
    h'.nextNodeID.trans h.nextNodeID, fun n => ?_⟩
  obtain ⟨ts, hts⟩ := h.heap n
  obtain ⟨ts', hts'⟩ := h'.heap n
  exact ⟨ts', by rw [hts', hts]⟩

lemma visit (c : LPRadixCache) (n : NodeId) (now : Time) : OnlyVisited c (c.visit n now) := by
  refine ⟨rfl, rfl, rfl, fun m => ?_⟩
  by_cases h : m = n
  · subst h
    exact ⟨now, heap_modify_self _ _ _⟩
  · exact ⟨_, heap_modify_of_ne _ _ h⟩

section

variable (h : OnlyVisited c c')
include h

lemma sameShape : SameShape c c' := by
  refine ⟨h.rootNode, h.allNodes, h.nextNodeID, fun n => ?_⟩
  obtain ⟨ts, hts⟩ := h.heap n
  rw [hts]
  rfl

lemma modelToPods (n : NodeId) :
    (c'.heap n).modelToPods = (c.heap n).modelToPods := by
  obtain ⟨ts, hts⟩ := h.heap n
  rw [hts]

lemma refCounterByPod (n : NodeId) :
    (c'.heap n).refCounterByPod = (c.heap n).refCounterByPod := by
  obtain ⟨ts, hts⟩ := h.heap n
  rw [hts]

lemma has_eq (model podIP : String) :
    c'.has model podIP = c.has model podIP := by
  funext n
  simp [has, TreeNode.hasPodForModel_eq, h.modelToPods n]

lemma contiguous_iff (model podIP : String) (steps : List (NodeId × ℕ)) :
    c'.Contiguous model podIP steps ↔ c.Contiguous model podIP steps := by
  simp [Contiguous, h.has_eq]

end
end OnlyVisited

/-- What the matcher returns at `node` for the tokens of `array` from `start` on,
when they run through `steps`. -/
structure Matched (c : LPRadixCache) (node : NodeId) (array : List Token) (start : ℕ)
    (model podIP : String) (steps : List (NodeId × ℕ)) (r : PodMatch) : Prop where
  visited : OnlyVisited c r.cache
  len_eq : r.len = c.recordedLen model podIP steps
  isSome : c.has model podIP node = true → r.found.isSome = true
  array_eq : c.Contiguous model podIP steps → r.array = array
  start_eq : c.Contiguous model podIP steps → ∀ d s l, r.found = some (d, s, l) → 0 < l → s = start

variable {c c' : LPRadixCache} {node : NodeId} {array array' : List Token} {start : ℕ}
  {steps : List (NodeId × ℕ)}

lemma Matched.fallback (hv : OnlyVisited c c') (h0 : c.recordedLen model podIP steps = 0)
    (ha : c.Contiguous model podIP steps → array' = array) :
    Matched c node array start model podIP steps
      ⟨c', array', if (c.heap node).hasPodForModel model podIP then some (node, start, 0)
        else none⟩ := by
  refine ⟨hv, ?_, ?_, ha, ?_⟩
  · rw [h0]
    cases (c.heap node).hasPodForModel model podIP <;> rfl
  · intro h
    have h : (c.heap node).hasPodForModel model podIP = true := h
    simp [h]
  · intro _ d s l hf hl
    cases hh : (c.heap node).hasPodForModel model podIP <;> simp [hh] at hf
    omega

lemma Matched.here {node d : NodeId} {start l : ℕ} (hv : OnlyVisited c c')
    (hl : l = c.recordedLen model podIP steps)
    (ha : c.Contiguous model podIP steps → array' = array) :
    Matched c node array start model podIP steps ⟨c', array', some (d, start, l)⟩ := by
  refine ⟨hv, hl, fun _ => rfl, ha, ?_⟩
  intro _ d' s' l' hf _
  simp only [Option.some.injEq, Prod.mk.injEq] at hf
  exact hf.2.1.symm

lemma Matched.of_visited {array : List Token} {r : PodMatch} (hv : OnlyVisited c c')
    (h : Matched c' node array start model podIP steps r) :
    Matched c node array start model podIP steps r := by
  refine ⟨hv.trans h.visited, ?_, ?_, ?_, ?_⟩
  · simp [h.len_eq, recordedLen, hv.has_eq]
  · rw [← hv.has_eq]
    exact h.isSome
  · rw [← hv.contiguous_iff]
    exact h.array_eq
  · rw [← hv.contiguous_iff]
    exact h.start_eq

lemma Matched.aboveChild {c : LPRadixCache} {node child : NodeId} {array : List Token}
    {start k : ℕ} {r : PodMatch} (h : Matched c child array (start + k) model podIP steps r) :
    Matched c node array start model podIP ((child, k) :: steps)
      (r.aboveChild start k child (c.has model podIP child) fun c' array' =>
        ⟨c', array', if (c.heap node).hasPodForModel model podIP then some (node, start, 0)
          else none⟩) := by
  have htail : c.Contiguous model podIP ((child, k) :: steps) → c.Contiguous model podIP steps :=
    fun hc => (pairwise_cons.mp hc).2
  have hlen := h.len_eq
  unfold PodMatch.aboveChild
  cases hf : r.found with
  | none =>
    have hno : c.has model podIP child = false := by
      rw [← Bool.not_eq_true]
      intro hh
      have := h.isSome hh
      rw [hf] at this
      simp at this
    refine .fallback h.visited ?_ fun hc => h.array_eq (htail hc)
    rw [recordedLen_cons, ← hlen, hno]
    simp [PodMatch.len, hf]
  | some x =>
    obtain ⟨d, s, len⟩ := x
    have hlen : len = c.recordedLen model podIP steps := by
      rw [← hlen, PodMatch.len, hf]
    cases hh : c.has model podIP child with
    | false =>
      refine ⟨h.visited, ?_, fun _ => rfl, fun hc => h.array_eq (htail hc), ?_⟩
      · rw [recordedLen_cons, hh, ← hlen]
        simp [PodMatch.len]
      · -- nothing below counts, as the child does not record the pod
        intro hc d' s' l' hf' hl'
        obtain ⟨hhd, _⟩ := pairwise_cons.mp hc
        have h0 : c.recordedLen model podIP steps = 0 := by
          refine recordedLen_eq_zero fun e he => ?_
          rw [← Bool.not_eq_true]
          intro hhe
          have := hhd e he hhe
          rw [hh] at this
          simp at this
        simp only [Bool.false_eq_true, if_false, Option.some.injEq, Prod.mk.injEq] at hf'
        omega
    | true =>
      by_cases hpos : len > 0
      · simp only [hpos]
        refine .here h.visited ?_ fun hc => ?_
        · rw [recordedLen_cons, hh, ← hlen]
          simp
        · have hs := h.start_eq (htail hc) d s len hf hpos
          rw [h.array_eq (htail hc), hs]
          exact overwrite_same array (start + k) len
      · simp only [hpos]
        refine .here h.visited ?_ fun hc => h.array_eq (htail hc)
        rw [recordedLen_cons, hh, ← hlen]
        simp only [if_true]
        omega

/-- **What the matcher returns**: the number of matched tokens on nodes that record
the pod. -/
lemma matchPrefixWithPodHelper_spec (model podIP : String) : ∀ (fuel : ℕ) (c : LPRadixCache)
    (path : NodeId → List Token) (node : NodeId) (array : List Token) (start : ℕ) (now : ℕ → Time),
    WF c path → node ∈ c.allNodes → (array.drop start).length < fuel →
    Matched c node array start model podIP (matchedPathFrom fuel c node (array.drop start))
      (matchPrefixWithPodHelper fuel c node array start model podIP now) := by
  intro fuel
  induction fuel with
  | zero => intro c path node array start now _ _ hlt; omega
  | succ fuel ih =>
    intro c path node array start now hw hn hlt
    cases hdrop : array.drop start with
    | nil =>
      simp only [matchPrefixWithPodHelper, hdrop, matchedPathFrom]
      exact .fallback (OnlyVisited.refl c) rfl fun _ => rfl
    | cons t rest =>
      have hv := OnlyVisited.visit c node (now 0)
      have hs := hv.sameShape
      have hw1 := hs.wf hw
      have hchs : ((c.visit node (now 0)).heap node).children = (c.heap node).children :=
        hs.children node
      cases hc : (c.heap node).children.lookup t with
      | none =>
        simp only [matchPrefixWithPodHelper, hdrop, hchs, hc, matchedPathFrom_of_none hc]
        exact .fallback hv rfl fun _ => rfl
      | some child =>
        obtain ⟨hch, _, _, r, hkey⟩ := hw.down hn hc
        have hkeys : ((c.visit node (now 0)).heap child).key = (c.heap child).key :=
          hs.key child
        have hhas : ((c.visit node (now 0)).heap child).hasPodForModel model podIP =
            c.has model podIP child := congrFun (hv.has_eq model podIP) child
        have hkpos : matchLen (c.heap child).key (t :: rest) > 0 := by
          rw [hkey, matchLen, lcpLen_cons_self]
          omega
        simp only [matchPrefixWithPodHelper, hdrop, hchs, hc, hkeys, hhas, hkpos, if_true]
        by_cases hk : matchLen (c.heap child).key (t :: rest) = (c.heap child).key.length
        · rw [matchedPathFrom_of_full hc hk]
          simp only [hk, if_true]
          by_cases hend : (c.heap child).key.length = (t :: rest).length
          · -- the tokens end with the child's key
            rw [hend, drop_length]
            simp only [if_true]
            cases hh : c.has model podIP child with
            | true => exact .here hv (by simp [hh]) fun _ => rfl
            | false => exact .fallback hv (by simp [hh]) fun _ => rfl
          · simp only [hend, if_false]
            have hdd : array.drop (start + (c.heap child).key.length) =
                (t :: rest).drop (c.heap child).key.length := by
              rw [← drop_drop, hdrop]
            have hrec := ih (c.visit node (now 0)) path child array
              (start + (c.heap child).key.length) (fun i => now (i + 1)) hw1 hch (by
                rw [hdd, length_drop]
                rw [hdrop, length_cons] at hlt
                rw [length_cons]
                omega)
            rw [hs.matchedPathFrom_eq, hdd] at hrec
            exact (hrec.of_visited hv).aboveChild
        · -- the tokens end or diverge inside the edge to the child
          rw [matchedPathFrom_of_part hc hk]
          simp only [hk, if_false]
          cases hh : c.has model podIP child with
          | true => exact .here hv (by simp [hh]) fun _ => rfl
          | false => exact .fallback hv (by simp [hh]) fun _ => rfl

section

variable (hw : WF c path) (tokens : List Token) (model podIP : String) (now : ℕ → Time)
include hw

lemma matchPrefixWithPod_spec : Matched c c.rootNode tokens 0 model podIP (c.matchedPath tokens)
      (c.matchPrefixWithPod tokens model podIP now) :=
  matchPrefixWithPodHelper_spec model podIP (tokens.length + 1) c path c.rootNode tokens 0 now hw
    hw.root_mem (Nat.lt_succ_self _)

/-- **The percentage** counts the tokens on the nodes that record the pod. -/
lemma getCacheHitRatioForTargetPod_eq : c.getCacheHitRatioForTargetPod tokens model podIP now =
      100 * c.recordedLen model podIP (c.matchedPath tokens) / tokens.length := by
  have hlen := (matchPrefixWithPod_spec hw tokens model podIP now).len_eq
  unfold getCacheHitRatioForTargetPod
  unfold PodMatch.len at hlen
  cases hf : (c.matchPrefixWithPod tokens model podIP now).found with
  | none =>
    simp only [hf] at hlen
    simp [← hlen]
  | some x =>
    obtain ⟨d, s, len⟩ := x
    simp only [hf] at hlen ⊢
    rw [← hlen]
    by_cases h0 : len = 0
    · simp [h0]
    · rw [if_neg h0, Nat.mul_comm]

end
end LPRadixCache
end Lodestar.Indexer
