import Lodestar.Lib.CommonPrefix

/-!
# Compressed tries held together by links

A compressed trie is a set of nodes with links: each node but the root has a
key, a non-empty list, and a link to its parent, and the parent stores it under
the first entry of that key.  `Links` is the bare links, over any type of nodes
and any type of entries; `Trie L path` says that they form a trie in which
`path n` is the concatenation of the keys from the root to `n`.
* `chainUp`, `Trie.mem_chainUp_iff`: following the parent links from `n` visits
  exactly the nodes whose path starts `path n`, each once.
* `collect`, `Trie.mem_collect_iff`: a depth-first search with a stack visits
  exactly the nodes whose path is started by the path of a node on the stack.
-/

namespace Lodestar.Lib

/-- Nodes with a key, a link to the parent and links to the children. -/
structure Links (ν τ : Type*) where
  root : ν
  nodes : ν → Prop
  key : ν → List τ
  parent : ν → Option ν
  child : ν → τ → Option ν

variable {ν τ : Type*}
variable {L : Links ν τ} {path : ν → List τ}

/-- **A compressed trie**: the links of `L` agree with the paths `path`. -/
structure Trie (L : Links ν τ) (path : ν → List τ) : Prop where
  root_mem : L.nodes L.root
  path_root : path L.root = []
  parent_root : L.parent L.root = none
  up : ∀ n, L.nodes n → n ≠ L.root → ∃ p t r, L.nodes p ∧ L.parent n = some p ∧
    L.key n = t :: r ∧ L.child p t = some n ∧ path n = path p ++ L.key n
  down : ∀ p t n, L.nodes p → L.child p t = some n →
    L.nodes n ∧ n ≠ L.root ∧ L.parent n = some p ∧ ∃ r, L.key n = t :: r

/-- The link from a node to its parent, as a relation. -/
def Links.Link (L : Links ν τ) (p n : ν) : Prop := L.nodes n ∧ L.parent n = some p

namespace Trie

open Relation (ReflTransGen)
variable (h : Trie L path) {p n m y : ν} {t : τ}
include h

section

variable (hp : L.nodes p) (hc : L.child p t = some n)
include hp hc

lemma path_child : path n = path p ++ L.key n := by
  obtain ⟨hn, hr, hpar, _⟩ := h.down p t n hp hc
  obtain ⟨q, _, _, _, hq, _, _, hpath⟩ := h.up n hn hr
  obtain rfl : q = p := Option.some.inj (hq.symm.trans hpar)
  exact hpath

lemma prefix_child : path p <+: path n :=
  ⟨L.key n, (h.path_child hp hc).symm⟩

lemma path_child_cons :
    ∃ r, L.key n = t :: r ∧ path n = path p ++ t :: r := by
  obtain ⟨r, hr⟩ := (h.down p t n hp hc).2.2.2
  exact ⟨r, hr, by rw [h.path_child hp hc, hr]⟩

end

/-- A node is the child of one node only, under one token. -/
lemma child_injective {q : ν} {s : τ} (hp : L.nodes p) (hq : L.nodes q)
    (hc : L.child p t = some n) (hc' : L.child q s = some n) : p = q ∧ t = s := by
  obtain ⟨-, -, hpar, r, hk⟩ := h.down p t n hp hc
  obtain ⟨-, -, hpar', r', hk'⟩ := h.down q s n hq hc'
  exact ⟨Option.some.inj (hpar.symm.trans hpar'), (List.cons.inj (hk.symm.trans hk')).1⟩

lemma eq_root_of_path_nil (hn : L.nodes n) (hp : path n = []) : n = L.root := by
  by_contra hr
  obtain ⟨p, t, r, _, _, hk, _, hpath⟩ := h.up n hn hr
  rw [hpath, hk] at hp
  simp at hp

lemma child_of_link (hl : L.Link p n) : L.nodes p ∧
    ∃ t r, L.child p t = some n ∧ path n = path p ++ t :: r := by
  obtain ⟨hn, hp⟩ := hl
  have hr : n ≠ L.root := by
    rintro rfl
    rw [h.parent_root] at hp
    simp at hp
  obtain ⟨q, t, r, hq, hpar, hk, hc, hpath⟩ := h.up n hn hr
  obtain rfl : q = p := Option.some.inj (hpar.symm.trans hp)
  exact ⟨hq, t, r, hc, hk ▸ hpath⟩

lemma parent_shorter (hn : L.nodes n) (hp : L.parent n = some p) :
    L.nodes p ∧ path p <+: path n ∧ (path p).length < (path n).length := by
  obtain ⟨hq, t, r, -, hpath⟩ := h.child_of_link ⟨hn, hp⟩
  rw [hpath]
  simp [hq]

lemma prefix_of_links (hl : ReflTransGen L.Link n m) :
    path n <+: path m ∧ (path m = path n → m = n) := by
  induction hl with
  | refl => exact ⟨List.prefix_refl _, fun _ => rfl⟩
  | tail _ hlink ih =>
    obtain ⟨-, hpre, hlt⟩ := h.parent_shorter hlink.1 hlink.2
    refine ⟨ih.1.trans hpre, fun heq => ?_⟩
    have hle := ih.1.length_le
    rw [heq] at hlt
    omega

/-- **No node lies inside an edge**: a node whose path starts the path of another lies on the links
from the root to it. -/
lemma links_of_path {n m : ν} (hn : L.nodes n) (hm : L.nodes m) (hpre : path n <+: path m) :
    ReflTransGen L.Link n m := by
  by_cases hr : m = L.root
  · subst hr
    rw [h.path_root] at hpre
    rw [h.eq_root_of_path_nil hn (List.prefix_nil.mp hpre)]
  obtain ⟨q, t, r, hq, hpar, hk, hc, hpath⟩ := h.up m hm hr
  obtain ⟨-, hqm, hlt⟩ := h.parent_shorter hm hpar
  rcases List.prefix_or_prefix_of_prefix hpre hqm with hnq | hqn
  · exact (links_of_path hn hq hnq).tail ⟨hm, hpar⟩
  -- otherwise the links from the parent to `n` begin with the same child
  rcases (links_of_path hq hn hqn).cases_head with rfl | ⟨m', hlink, hrest⟩
  · exact .single ⟨hm, hpar⟩
  obtain ⟨-, t', r', hc', hpath'⟩ := h.child_of_link hlink
  have hpre' := (h.prefix_of_links hrest).1
  have htt : path q ++ t' :: r' <+: path q ++ t :: r := by
    rw [← hpath', ← hk, ← hpath]
    exact hpre'.trans hpre
  rw [List.prefix_append_right_inj, List.cons_prefix_cons] at htt
  obtain rfl : m = m' := Option.some.inj (hc.symm.trans (htt.1 ▸ hc'))
  rw [(h.prefix_of_links hrest).2 (hpre.eq_of_length_le hpre'.length_le)]
termination_by (path n).length + (path m).length

lemma path_injective (hn : L.nodes n) (hm : L.nodes m) (he : path n = path m) : n = m :=
  ((h.prefix_of_links (h.links_of_path hn hm (he ▸ List.prefix_refl _))).2 he.symm).symm

lemma under_cases (hn : L.nodes n) (hy : L.nodes y) :
    path n <+: path y ↔ y = n ∨ ∃ t m, L.child n t = some m ∧ path m <+: path y := by
  constructor
  · intro hpre
    rcases (h.links_of_path hn hy hpre).cases_head with he | ⟨m, hlink, hrest⟩
    · exact .inl he.symm
    · obtain ⟨-, t, r, hc, -⟩ := h.child_of_link hlink
      exact .inr ⟨t, m, hc, (h.prefix_of_links hrest).1⟩
  · rintro (rfl | ⟨t, m, hm, hmy⟩)
    · exact List.prefix_refl _
    · exact (h.prefix_child hn hm).trans hmy

/-- **Descending**: a node whose path goes on from `p` with the entry `t` lies
under the child of `p` at `t`. -/
lemma descend (hp : L.nodes p) (hy : L.nodes y) (hpre : path p ++ [t] <+: path y) :
    ∃ n, L.child p t = some n ∧ path n <+: path y := by
  rcases (h.under_cases hp hy).mp ((List.prefix_append _ _).trans hpre) with rfl | ⟨t', n, hc, hny⟩
  · simpa using hpre.length_le
  · obtain ⟨r, -, hpath⟩ := h.path_child_cons hp hc
    have htt : path p ++ [t] <+: path p ++ t' :: r := by
      rw [← hpath]
      refine List.prefix_of_prefix_length_le hpre hny ?_
      simp [hpath]
    rw [List.prefix_append_right_inj, List.cons_prefix_cons] at htt
    exact ⟨n, htt.1 ▸ hc, hny⟩

lemma under_child (hp : L.nodes p) (hy : L.nodes y) (hc : L.child p t = some n)
    (hpre : path p ++ [t] <+: path y) : path n <+: path y := by
  obtain ⟨m, hm, hmy⟩ := h.descend hp hy hpre
  obtain rfl : n = m := Option.some.inj (hc.symm.trans hm)
  exact hmy

lemma prefix_parent (hn : L.nodes n) (hy : L.nodes y) (hpar : L.parent n = some p)
    (hpre : path y <+: path n) : y = n ∨ path y <+: path p := by
  rcases (h.links_of_path hy hn hpre).cases_tail with he | ⟨q, hrest, hlink⟩
  · exact .inl he.symm
  · obtain rfl : q = p := Option.some.inj (hlink.2.symm.trans hpar)
    exact .inr (h.prefix_of_links hrest).1

end Trie

/-! ### Following the parent links -/

/-- The nodes met by following `parent` from `n`, `n` first. -/
def chainUp (parent : ν → Option ν) : ℕ → ν → List ν
  | 0, _ => []
  | fuel + 1, n =>
    match parent n with
    | some p => n :: chainUp parent fuel p
    | none => [n]

lemma chainUp_of_none {parent : ν → Option ν} {n : ν} (h : parent n = none) (fuel : ℕ) :
    chainUp parent (fuel + 1) n = [n] := by
  rw [chainUp, h]

lemma chainUp_of_some {parent : ν → Option ν} {n p : ν} (h : parent n = some p) (fuel : ℕ) :
    chainUp parent (fuel + 1) n = n :: chainUp parent fuel p := by
  rw [chainUp, h]

namespace Trie

/-- **The chain of parents** of `n` is the nodes whose path starts `path n`. -/
lemma mem_chainUp_iff (h : Trie L path) : ∀ (fuel : ℕ) {n : ν}, L.nodes n →
    (path n).length < fuel → ∀ m, m ∈ chainUp L.parent fuel n ↔ L.nodes m ∧ path m <+: path n := by
  intro fuel
  induction fuel with
  | zero => intro n _ hlt; omega
  | succ fuel ih =>
    intro n hn hlt m
    cases hpar : L.parent n with
    | none =>
      have hroot : n = L.root := by
        by_contra hr
        obtain ⟨p, _, _, _, hp, _⟩ := h.up n hn hr
        rw [hpar] at hp
        simp at hp
      rw [chainUp_of_none hpar, List.mem_singleton]
      constructor
      · rintro rfl
        exact ⟨hn, List.prefix_refl _⟩
      · rintro ⟨hm, hpre⟩
        subst hroot
        rw [h.path_root] at hpre
        exact h.eq_root_of_path_nil hm (List.prefix_nil.mp hpre)
    | some p =>
      obtain ⟨hp, hpn, hpl⟩ := h.parent_shorter hn hpar
      rw [chainUp_of_some hpar, List.mem_cons, ih hp (by omega) m]
      constructor
      · rintro (rfl | ⟨hm, hmp⟩)
        · exact ⟨hn, List.prefix_refl _⟩
        · exact ⟨hm, hmp.trans hpn⟩
      · rintro ⟨hm, hmn⟩
        rcases h.prefix_parent hn hm hpar hmn with he | hmp
        · exact .inl he
        · exact .inr ⟨hm, hmp⟩

end Trie

variable {parent' : ν → Option ν} {D : ν → Prop}

/-- **Climbing in a tree whose nodes in `D` are cut off** meets no node twice, and no node of `D`
above the first. -/
lemma Trie.chainUp_cut (h : Trie L path) (hkeep : ∀ n, ¬ D n → parent' n = L.parent n)
    (hcut : ∀ n, D n → parent' n = none) : ∀ (fuel : ℕ) {n : ν}, L.nodes n →
      (chainUp parent' fuel n).Nodup ∧ ∀ m ∈ chainUp parent' fuel n, L.nodes m ∧ path m <+: path n ∧
          ∀ z, L.nodes z → D z → path m <+: path z → path z <+: path n → z = m := by
  intro fuel
  induction fuel with
  | zero => intro n _; exact ⟨List.nodup_nil, fun m hm => absurd hm List.not_mem_nil⟩
  | succ fuel ih =>
    intro n hn
    have hself : L.nodes n ∧ path n <+: path n ∧
        ∀ z, L.nodes z → D z → path n <+: path z → path z <+: path n → z = n :=
      ⟨hn, List.prefix_refl _, fun z hz _ h1 h2 =>
        h.path_injective hz hn (h2.eq_of_length_le h1.length_le)⟩
    cases hpar : parent' n with
    | none =>
      rw [chainUp_of_none hpar]
      exact ⟨List.nodup_singleton n, fun m hm => List.mem_singleton.mp hm ▸ hself⟩
    | some p =>
      have hnc : ¬ D n := by
        intro hc
        rw [hcut n hc] at hpar
        simp at hpar
      have hpar' : L.parent n = some p := (hkeep n hnc).symm.trans hpar
      obtain ⟨hp, hpn, hlt⟩ := h.parent_shorter hn hpar'
      obtain ⟨hnodup, hmem⟩ := ih hp
      rw [chainUp_of_some hpar, List.nodup_cons, List.forall_mem_cons]
      refine ⟨⟨fun hmem' => ?_, hnodup⟩, hself, fun m hm => ?_⟩
      · have := (hmem n hmem').2.1.length_le
        omega
      · obtain ⟨hm', hmp, hz⟩ := hmem m hm
        refine ⟨hm', hmp.trans hpn, fun z hzn hzc hmz hzn' => ?_⟩
        rcases h.prefix_parent hn hzn hpar' hzn' with rfl | hzp
        · exact absurd hzc hnc
        · exact hz z hzn hzc hmz hzp

lemma Trie.nodup_chainUp (h : Trie L path) (fuel : ℕ) {n : ν} (hn : L.nodes n) :
    (chainUp L.parent fuel n).Nodup :=
  (h.chainUp_cut (D := fun _ => False) (fun _ _ => rfl) (fun _ hc => hc.elim) fuel hn).1

/-! ### Searching with a stack -/

/-- The nodes popped by a depth-first search: pop the top of the stack, push its
successors, and so on. -/
def collect (succ : ν → List ν) : ℕ → List ν → List ν
  | 0, _ => []
  | _ + 1, [] => []
  | fuel + 1, n :: stack => n :: collect succ fuel (succ n ++ stack)

/-- The nodes at or under one of the nodes of `stack`. -/
def Links.under (L : Links ν τ) (path : ν → List τ) (stack : List ν) : Set ν :=
  {y | L.nodes y ∧ ∃ s ∈ stack, path s <+: path y}

namespace Trie

variable {n a b : ν} {t : τ}

def Apart (path : ν → List τ) (a b : ν) : Prop := ¬ path a <+: path b ∧ ¬ path b <+: path a

/-- The successors the search is given list the children of each node, each one
once. -/
structure Successors (L : Links ν τ) (succ : ν → List ν) : Prop where
  mem_iff : ∀ n, L.nodes n → ∀ m, m ∈ succ n ↔ ∃ t, L.child n t = some m
  nodup : ∀ n, L.nodes n → (succ n).Nodup

variable (h : Trie L path) {succ : ν → List ν} (hs : Successors L succ)
include h

lemma apart_children {s : τ} (hn : L.nodes n) (ha : L.child n s = some a)
    (hb : L.child n t = some b) (hst : s ≠ t) : Apart path a b := by
  obtain ⟨r, _, hpa⟩ := h.path_child_cons hn ha
  obtain ⟨r', _, hpb⟩ := h.path_child_cons hn hb
  constructor <;> intro hpre <;> rw [hpa, hpb, List.prefix_append_right_inj] at hpre
  · exact hst (List.cons_prefix_cons.mp hpre).1
  · exact hst (List.cons_prefix_cons.mp hpre).1.symm

lemma apart_child (hn : L.nodes n) (ha : L.child n t = some a) (hnb : Apart path n b) :
    Apart path a b := by
  have hna : path n <+: path a := h.prefix_child hn ha
  refine ⟨fun hab => hnb.1 (hna.trans hab), fun hba => ?_⟩
  rcases List.prefix_or_prefix_of_prefix hna hba with hp | hp
  · exact hnb.1 hp
  · exact hnb.2 hp

include hs

lemma apart_successors (hn : L.nodes n) : (succ n).Pairwise (Apart path) := by
  refine (hs.nodup n hn).imp_of_mem ?_
  intro a b ha hb hab
  obtain ⟨s, hsa⟩ := (hs.mem_iff n hn a).mp ha
  obtain ⟨t, htb⟩ := (hs.mem_iff n hn b).mp hb
  refine h.apart_children hn hsa htb ?_
  rintro rfl
  exact hab (Option.some.inj (hsa.symm.trans htb))

lemma under_pop {stack : List ν} (hn : L.nodes n) (hst : ∀ s ∈ stack, Apart path n s) :
    L.under path (n :: stack) = insert n (L.under path (succ n ++ stack)) ∧
      n ∉ L.under path (succ n ++ stack) := by
  constructor
  · ext y
    simp only [Links.under, List.mem_cons, List.mem_append,
      exists_eq_or_imp]
    constructor
    · rintro ⟨hy, hny | ⟨s, hs', hsy⟩⟩
      · rcases (h.under_cases hn hy).mp hny with he | ⟨t, m, hm, hmy⟩
        · exact .inl he
        · exact .inr ⟨hy, m, .inl ((hs.mem_iff n hn m).mpr ⟨t, hm⟩), hmy⟩
      · exact .inr ⟨hy, s, .inr hs', hsy⟩
    · rintro (rfl | ⟨hy, s, hs' | hs', hsy⟩)
      · exact ⟨hn, .inl (List.prefix_refl _)⟩
      · obtain ⟨t, ht⟩ := (hs.mem_iff n hn s).mp hs'
        exact ⟨hy, .inl ((h.under_cases hn hy).mpr (.inr ⟨t, s, ht, hsy⟩))⟩
      · exact ⟨hy, .inr ⟨s, hs', hsy⟩⟩
  · rintro ⟨_, s, hs', hsn⟩
    rcases List.mem_append.mp hs' with hs' | hs'
    · obtain ⟨t, ht⟩ := (hs.mem_iff n hn s).mp hs'
      obtain ⟨r, _, hp⟩ := h.path_child_cons hn ht
      have := hsn.length_le
      rw [hp] at this
      simp at this
    · exact (hst s hs').2 hsn

/-- **The search visits what is under its stack**, when the nodes on the stack
are on different paths and the fuel is the number of nodes still to visit. -/
lemma mem_collect_iff (hfin : {n | L.nodes n}.Finite) :
    ∀ (fuel : ℕ) (stack : List ν), (∀ s ∈ stack, L.nodes s) → stack.Pairwise (Apart path) →
      (L.under path stack).ncard ≤ fuel →
      ∀ y, y ∈ collect succ fuel stack ↔ y ∈ L.under path stack := by
  intro fuel
  induction fuel with
  | zero =>
    intro stack _ _ hcard y
    have hfin' : (L.under path stack).Finite := hfin.subset fun y hy => hy.1
    have hempty : L.under path stack = ∅ := (Set.ncard_eq_zero hfin').mp (by omega)
    simp [collect, hempty]
  | succ fuel ih =>
    intro stack hst hap hcard y
    cases stack with
    | nil => simp [collect, Links.under]
    | cons n stack =>
      have hn := hst n (by simp)
      obtain ⟨hap, hapst⟩ := List.pairwise_cons.mp hap
      obtain ⟨heq, hnot⟩ := h.under_pop hs hn hap
      have hfin' : (L.under path (succ n ++ stack)).Finite := hfin.subset fun y hy => hy.1
      rw [heq, Set.ncard_insert_of_notMem hnot hfin'] at hcard
      rw [collect, List.mem_cons, heq, Set.mem_insert_iff, ih]
      · intro s hs'
        rcases List.mem_append.mp hs' with hs' | hs'
        · obtain ⟨t, ht⟩ := (hs.mem_iff n hn s).mp hs'
          exact (h.down n t s hn ht).1
        · exact hst s (List.mem_cons_of_mem n hs')
      · refine List.pairwise_append.mpr ⟨h.apart_successors hs hn, hapst, ?_⟩
        intro a ha b hb
        obtain ⟨t, ht⟩ := (hs.mem_iff n hn a).mp ha
        exact h.apart_child hn ht (hap b hb)
      · omega

end Trie

/-! ### Adding a leaf, splitting an edge, removing subtrees -/

section

variable [DecidableEq ν] [DecidableEq τ]

/-- The links after the new node `x` with key `t :: r` is stored under `p`. -/
def Links.addLeaf (L : Links ν τ) (p x : ν) (t : τ) (r : List τ) : Links ν τ where
  root := L.root
  nodes n := n = x ∨ L.nodes n
  key := Function.update L.key x (t :: r)
  parent := Function.update L.parent x (some p)
  child n s := if n = x then none else if n = p ∧ s = t then some x else L.child n s

/-- The links after the new node `x` takes over the start `t :: u` of the key of
`n`, a child of `p`; what is left of the key is `s :: v`. -/
def Links.splitEdge (L : Links ν τ) (p n x : ν) (t : τ) (u : List τ) (s : τ) (v : List τ) :
    Links ν τ where
  root := L.root
  nodes m := m = x ∨ L.nodes m
  key := Function.update (Function.update L.key x (t :: u)) n (s :: v)
  parent := Function.update (Function.update L.parent x (some p)) n (some x)
  child m a := if m = x then (if a = s then some n else none)
    else if m = p ∧ a = t then some x else L.child m a

namespace Trie

attribute [local simp] Links.addLeaf

lemma addLeaf (h : Trie L path) {p x : ν} {t : τ} {r : List τ} (hp : L.nodes p)
    (hx : ¬ L.nodes x) (hc : L.child p t = none) :
    Trie (L.addLeaf p x t r) (Function.update path x (path p ++ t :: r)) := by
  have hne : ∀ n, L.nodes n → n ≠ x := fun n hn he => hx (he ▸ hn)
  have hpath : ∀ n, L.nodes n → Function.update path x (path p ++ t :: r) n = path n :=
    fun n hn => Function.update_of_ne (hne n hn) _ _
  refine ⟨.inr h.root_mem, ?_, ?_, ?_, ?_⟩
  · exact (hpath _ h.root_mem).trans h.path_root
  · simpa [hne _ h.root_mem] using h.parent_root
  · rintro n (rfl | hn) hr
    · exact ⟨p, t, r, .inr hp, by simp, by simp, by simp [hne p hp], by simp [hpath p hp]⟩
    · obtain ⟨q, s, v, hq, hpar, hk, hch, hpn⟩ := h.up n hn hr
      have hqt : ¬ (q = p ∧ s = t) := by
        rintro ⟨rfl, rfl⟩
        rw [hc] at hch
        simp at hch
      refine ⟨q, s, v, .inr hq, ?_, ?_, ?_, ?_⟩
      · simpa [hne n hn] using hpar
      · simpa [hne n hn] using hk
      · simpa only [Links.addLeaf, hne q hq, hqt, if_false] using hch
      · simpa [hne n hn, hpath q hq, hpath n hn] using hpn
  · rintro q s n (rfl | hq) hch
    · simp at hch
    · by_cases hqt : q = p ∧ s = t
      · obtain ⟨rfl, rfl⟩ := hqt
        obtain rfl : x = n := by simpa [hne q hq] using hch
        exact ⟨.inl rfl, (hne _ h.root_mem).symm, by simp, r, by simp⟩
      · have hch' : L.child q s = some n := by
          simpa only [Links.addLeaf, hne q hq, hqt, if_false] using hch
        obtain ⟨hn, hr, hpar, v, hk⟩ := h.down q s n hq hch'
        exact ⟨.inr hn, hr, by simpa [hne n hn] using hpar, v, by simpa [hne n hn] using hk⟩

attribute [local simp] Links.splitEdge

lemma splitEdge (h : Trie L path) {p n x : ν} {t s : τ} {u v : List τ} (hp : L.nodes p)
    (hx : ¬ L.nodes x) (hc : L.child p t = some n) (hk : L.key n = t :: u ++ s :: v) :
    Trie (L.splitEdge p n x t u s v) (Function.update path x (path p ++ t :: u)) := by
  have hne : ∀ m, L.nodes m → m ≠ x := fun m hm he => hx (he ▸ hm)
  have hpath : ∀ m, L.nodes m → Function.update path x (path p ++ t :: u) m = path m :=
    fun m hm => Function.update_of_ne (hne m hm) _ _
  obtain ⟨hn, hnr, hnp, _⟩ := h.down p t n hp hc
  have hxn : x ≠ n := (hne n hn).symm
  refine ⟨.inr h.root_mem, ?_, ?_, ?_, ?_⟩
  · exact (hpath _ h.root_mem).trans h.path_root
  · simpa [hne _ h.root_mem, hnr.symm] using h.parent_root
  · rintro m (rfl | hm) hr
    · exact ⟨p, t, u, .inr hp, by simp [hxn], by simp [hxn],
        by simp [hne p hp], by simp [hpath p hp, hxn]⟩
    · by_cases hmn : m = n
      · subst hmn
        refine ⟨x, s, v, .inl rfl, by simp, by simp, by simp, ?_⟩
        rw [hpath m hm, h.path_child hp hc, hk]
        simp
      · obtain ⟨q, a, w, hq, hpar, hkm, hch, hpm⟩ := h.up m hm hr
        have hqt : ¬ (q = p ∧ a = t) := by
          rintro ⟨rfl, rfl⟩
          exact hmn (Option.some.inj (hch.symm.trans hc))
        refine ⟨q, a, w, .inr hq, ?_, ?_, ?_, ?_⟩
        · simpa [hne m hm, hmn] using hpar
        · simpa [hne m hm, hmn] using hkm
        · simpa only [Links.splitEdge, hne q hq, hqt, if_false] using hch
        · simpa [hne m hm, hmn, hpath q hq, hpath m hm] using hpm
  · rintro q a m (rfl | hq) hch
    · obtain ⟨rfl, rfl⟩ : a = s ∧ n = m := by
        by_cases has : a = s <;> simp_all
      exact ⟨.inr hn, hnr, by simp, v, by simp⟩
    · by_cases hqt : q = p ∧ a = t
      · obtain ⟨rfl, rfl⟩ := hqt
        obtain rfl : x = m := by simpa [hne q hq] using hch
        exact ⟨.inl rfl, (hne _ h.root_mem).symm, by simp [hxn], u, by simp [hxn]⟩
      · have hch' : L.child q a = some m := by
          simpa only [Links.splitEdge, hne q hq, hqt, if_false] using hch
        obtain ⟨hm, hr, hpar, w, hkm⟩ := h.down q a m hq hch'
        have hmn : m ≠ n := by
          rintro rfl
          exact hqt (h.child_injective hq hp hch' hc)
        exact ⟨.inr hm, hr, by simpa [hne m hm, hmn] using hpar,
          w, by simpa [hne m hm, hmn] using hkm⟩

omit [DecidableEq ν] [DecidableEq τ] in
lemma prune (h : Trie L path) {L' : Links ν τ} {D : ν → Prop} (hroot : L'.root = L.root)
    (hD : ¬ D L.root) (hdown : ∀ p t n, L.nodes p → L.child p t = some n → D p → D n)
    (hnodes : ∀ n, L'.nodes n ↔ L.nodes n ∧ ¬ D n)
    (hkey : ∀ n, L'.nodes n → L'.key n = L.key n)
    (hparent : ∀ n, L'.nodes n → L'.parent n = L.parent n)
    (hchild : ∀ p, L'.nodes p → ∀ t n, L'.child p t = some n ↔ L.child p t = some n ∧ ¬ D n) :
    Trie L' path := by
  have hrm : L'.nodes L'.root := by
    rw [hroot]
    exact (hnodes _).mpr ⟨h.root_mem, hD⟩
  refine ⟨hrm, by rw [hroot]; exact h.path_root, ?_, ?_, ?_⟩
  · rw [hparent _ hrm, hroot]
    exact h.parent_root
  · intro n hn hr
    obtain ⟨hnL, hnD⟩ := (hnodes n).mp hn
    obtain ⟨p, t, r, hp, hpar, hk, hch, hpath⟩ := h.up n hnL (hroot ▸ hr)
    have hpD : ¬ D p := fun hd => hnD (hdown p t n hp hch hd)
    have hp' : L'.nodes p := (hnodes p).mpr ⟨hp, hpD⟩
    refine ⟨p, t, r, hp', (hparent n hn).trans hpar, (hkey n hn).trans hk, ?_, ?_⟩
    · exact (hchild p hp' t n).mpr ⟨hch, hnD⟩
    · rw [hkey n hn]
      exact hpath
  · intro p t n hp hch
    obtain ⟨hch', hnD⟩ := (hchild p hp t n).mp hch
    obtain ⟨hn, hr, hpar, r, hk⟩ := h.down p t n ((hnodes p).mp hp).1 hch'
    have hn' : L'.nodes n := (hnodes n).mpr ⟨hn, hnD⟩
    exact ⟨hn', hroot ▸ hr, (hparent n hn').trans hpar, r, (hkey n hn').trans hk⟩

end Trie
end
end Lodestar.Lib
