import Lodestar.Routing.Histogram

/-!
# The sums of the sliding window

For every node the histogram should keep the number of its entries in the window and the
sum of what these entries added (`Aggregates`).  An expired entry is subtracted by the
context length that its leaf has at that time, and this is right: a node keeps its context
length from its creation on, whatever happens to the tree (`Frozen`), even after its
eviction.

Two things break the sums.  A change of the pod set drops entries but leaves the sums of
their nodes as they are.  And when the weight of a node falls to 0 its count is dropped,
which is wrong if the node still has entries that added nothing.
`aggregates_run_iff` says that these two are all.
-/

namespace Lodestar.Routing

open Lib Lodestar.Indexer Lodestar.Indexer.LPRadixCache List

/-! ### Context lengths are fixed -/

/-- The nodes that have been created keep their context length. -/
structure Frozen (c c' : LPRadixCache) : Prop where
  nextNodeID : c.nextNodeID ≤ c'.nextNodeID
  contextLength : ∀ n < c.nextNodeID, (c'.heap n).contextLength = (c.heap n).contextLength

namespace Frozen

variable {c c' : LPRadixCache}

lemma of_created (h : Created c c') : Frozen c c' :=
  ⟨h.nextNodeID, fun n hn => congrArg Prod.fst (h.heap n hn)⟩

lemma of_sameShape (h : SameShape c c') : Frozen c c' :=
  ⟨h.nextNodeID.ge, fun n _ => h.contextLength n⟩

end Frozen

/-! ### Sums over entries -/

def countOf (entries : List HistogramEntry) (n : NodeId) : ℕ :=
  entries.countP fun entry => entry.node = n

def weightOf (entries : List HistogramEntry) (n : NodeId) : ℕ :=
  (entries.map fun entry => if entry.node = n then entry.added else 0).sum

section

variable (entry : HistogramEntry) (l l' : List HistogramEntry) (n : NodeId)

@[simp]
lemma countOf_append : countOf (l ++ l') n = countOf l n + countOf l' n := countP_append

@[simp]
lemma countOf_cons : countOf (entry :: l) n = countOf l n + if entry.node = n then 1 else 0 := by
  simp [countOf, countP_cons]

@[simp]
lemma weightOf_append : weightOf (l ++ l') n = weightOf l n + weightOf l' n := by
  simp [weightOf]

@[simp]
lemma weightOf_cons :
    weightOf (entry :: l) n = (if entry.node = n then entry.added else 0) + weightOf l n := by
  simp [weightOf]

@[simp] lemma countOf_nil : countOf [] n = 0 := rfl
@[simp] lemma weightOf_nil : weightOf [] n = 0 := rfl

lemma countOf_pos_iff : 0 < countOf l n ↔ ∃ e ∈ l, e.node = n := by
  simp [countOf]

lemma weightOf_eq_zero_iff : weightOf l n = 0 ↔ ∀ e ∈ l, e.node = n → e.added = 0 := by
  simp only [weightOf, sum_eq_zero_iff, mem_map, forall_exists_index, and_imp,
    forall_apply_eq_imp_iff₂]
  refine forall₂_congr fun e _ => ?_
  split <;> simp_all

end

/-! ### One operation -/

namespace SlidingWindowHistogram

/-- The sums of the histogram are those of the entries, but the count of the nodes in `Z`
is 0. -/
structure Sums (h : SlidingWindowHistogram) (entries : List HistogramEntry) (Z : NodeId → Prop) :
    Prop where
  histogram : ∀ n, h.histogram.get n = weightOf entries n
  promptTokens : ∀ n, h.promptTokens.get n = weightOf entries n
  zero : ∀ n, Z n → h.nodeToCount.get n = 0
  nodeToCount : ∀ n, ¬ Z n → h.nodeToCount.get n = countOf entries n

variable {h : SlidingWindowHistogram} {c : LPRadixCache} {entries : List HistogramEntry}

/-- The nodes whose count is lost when the entries `l` have been gone through and those of
`rest` are left: those with an expired entry whose weight has fallen to 0. -/
def Lost (gone : HistogramEntry → Bool) (l rest : List HistogramEntry) (n : NodeId) : Prop :=
  (∃ e ∈ l, gone e = true ∧ e.node = n) ∧ weightOf rest n = 0

lemma Sums.congr {Z Z' : NodeId → Prop} (hs : Sums h entries Z) (hZ : ∀ n, Z n ↔ Z' n) :
    Sums h entries Z' :=
  ⟨hs.histogram, hs.promptTokens, fun n hn => hs.zero n ((hZ n).mpr hn),
    fun n hn => hs.nodeToCount n fun h => hn ((hZ n).mp h)⟩

lemma get_expire (h : SlidingWindowHistogram) (c : LPRadixCache) (entry : HistogramEntry)
    (n : NodeId) :
    let len : ℤ := contextLength c entry.leafNode
    let dropped := n = entry.node ∧ h.histogram.get n - len ≤ 0
    (h.expire c entry).histogram.get n =
        (if dropped then 0 else h.histogram.get n - if n = entry.node then len else 0) ∧
      (h.expire c entry).promptTokens.get n =
        (if dropped then 0 else h.promptTokens.get n - if n = entry.node then len else 0) ∧
      (h.expire c entry).nodeToCount.get n =
        (if dropped then 0 else h.nodeToCount.get n - if n = entry.node then 1 else 0) := by
  simp only [sub_eq_add_neg]
  unfold expire
  dsimp only
  by_cases hn : n = entry.node
  · subst hn
    rw [NodeMap.get_add, if_pos rfl]
    split <;> rename_i hd <;> simp [hd, forget, NodeMap.get_erase, NodeMap.get_add]
  · split <;> simp [hn, forget, NodeMap.get_erase, NodeMap.get_add]

lemma Sums.expire {entry : HistogramEntry} {Z : NodeId → Prop} {l l' : List HistogramEntry}
    (hs : Sums h (l ++ entry :: l') Z) (hZ : ∀ n, Z n → weightOf (l ++ entry :: l') n = 0)
    (hlen : contextLength c entry.leafNode = entry.added) :
    Sums (h.expire c entry) (l ++ l')
      fun n => Z n ∨ n = entry.node ∧ weightOf (l ++ l') n = 0 := by
  have hget := h.get_expire c entry
  simp only [hlen] at hget
  -- the weight that is left at the node of the entry
  have hleft : h.histogram.get entry.node - entry.added = weightOf (l ++ l') entry.node := by
    rw [hs.histogram]
    simp
    ring
  have hdropped : ∀ n, (n = entry.node ∧ h.histogram.get n - entry.added ≤ 0) ↔
      n = entry.node ∧ weightOf (l ++ l') n = 0 := by
    intro n
    refine and_congr_right fun hn => ?_
    subst hn
    rw [hleft]
    omega
  simp only [hdropped] at hget
  have hweight : ∀ n, (weightOf (l ++ entry :: l') n : ℤ) -
      (if n = entry.node then (entry.added : ℤ) else 0) = weightOf (l ++ l') n := by
    intro n
    by_cases hn : n = entry.node
    · subst hn
      simp
      ring
    · simp [hn, Ne.symm hn]
  refine ⟨fun n => ?_, fun n => ?_, fun n hn => ?_, fun n hn => ?_⟩
  · rw [(hget n).1]
    split
    · rename_i hd
      simp [hd.2]
    · rw [hs.histogram, hweight]
  · rw [(hget n).2.1]
    split
    · rename_i hd
      simp [hd.2]
    · rw [hs.promptTokens, hweight]
  · rw [(hget n).2.2]
    rcases hn with hn | hn
    · split
      · rfl
      · rename_i hd
        -- a node whose count was lost before has no weight left to lose
        have hne : n ≠ entry.node := by
          rintro rfl
          have := hZ _ hn
          simp only [weightOf_append, weightOf_cons] at this
          exact hd ⟨rfl, by rw [weightOf_append]; omega⟩
        rw [if_neg hne, sub_zero, hs.zero n hn]
    · rw [if_pos hn]
  · rw [(hget n).2.2, if_neg fun hd => hn (.inr hd), hs.nodeToCount n fun hz => hn (.inl hz)]
    by_cases hne : n = entry.node
    · subst hne
      simp
      ring
    · simp [hne, Ne.symm hne]

/-- **A round of expiry**: the sums are those of the entries in the window, but a node with an
expired entry and no weight left has lost its count. -/
lemma Sums.removeOldEntries (hs : Sums h h.timestamps fun _ => False) (currentTime : Time)
    (hlen : ∀ entry ∈ h.timestamps, contextLength c entry.leafNode = entry.added) :
    Sums (h.removeOldEntries c currentTime) (h.timestamps.filter (h.inWindow currentTime))
      (Lost (fun e => !h.inWindow currentTime e) h.timestamps
        (h.timestamps.filter (h.inWindow currentTime))) := by
  have hloop : ∀ l r : List HistogramEntry, h.timestamps = l ++ r →
      Sums (l.foldl (fun g entry => if h.inWindow currentTime entry then g else g.expire c entry) h)
        (l.filter (h.inWindow currentTime) ++ r)
        (Lost (fun e => !h.inWindow currentTime e) l (l.filter (h.inWindow currentTime) ++ r)) := by
    intro l
    induction l using List.reverseRecOn with
    | nil =>
      intro r hr
      rw [hr] at hs
      exact hs.congr fun n => by simp [Lost]
    | append_singleton l e ih =>
      intro r hr
      have hprev := ih (e :: r) (by rw [hr]; simp)
      rw [foldl_append, foldl_cons, filter_append]
      cases hw : h.inWindow currentTime e with
      | true =>
        simp only [hw, if_true, filter_cons_of_pos, filter_nil, append_assoc, singleton_append]
        refine hprev.congr fun n => ?_
        simp [Lost, hw, or_and_right, exists_or]
      | false =>
        simp only [hw, Bool.false_eq_true, if_false, filter_nil, append_nil,
          not_false_eq_true, filter_cons_of_neg]
        have hmem : e ∈ h.timestamps := by rw [hr]; simp
        refine (hprev.expire (fun n hn => hn.2) (hlen e hmem)).congr fun n => ?_
        simp only [Lost, weightOf_append, weightOf_cons, mem_append, List.mem_singleton]
        constructor
        · rintro (⟨⟨e', he', hgone⟩, hzero⟩ | ⟨rfl, hzero⟩)
          · exact ⟨⟨e', .inl he', hgone⟩, by omega⟩
          · exact ⟨⟨e, .inr rfl, by simp [hw]⟩, hzero⟩
        · rintro ⟨⟨e', he', hgone, hnode⟩, hzero⟩
          by_cases hn : e.node = n
          · exact .inr ⟨hn.symm, hzero⟩
          · refine .inl ⟨⟨e', he'.resolve_right ?_, hgone, hnode⟩, by simp [hn]; omega⟩
            rintro rfl
            exact hn hnode
  have hall := hloop h.timestamps [] (by simp)
  rw [append_nil] at hall
  exact ⟨hall.histogram, hall.promptTokens, hall.zero, hall.nodeToCount⟩

lemma Sums.update (hs : Sums h h.timestamps fun _ => False) (timestamp : Time)
    (node leafNode : NodeId) (podIP : String) (decodingLength : ℤ) :
    Sums (h.update c timestamp node leafNode podIP decodingLength)
      (h.timestamps ++ [⟨timestamp, node, leafNode, contextLength c leafNode⟩]) fun _ => False := by
  refine ⟨fun n => ?_, fun n => ?_, fun n hn => hn.elim, fun n _ => ?_⟩
  · show (h.histogram.add _ _).get n = _
    rw [NodeMap.get_add, hs.histogram]
    simp [eq_comm]
  · show (h.promptTokens.add _ _).get n = _
    rw [NodeMap.get_add, hs.promptTokens]
    simp [eq_comm]
  · show (h.nodeToCount.add _ _).get n = _
    rw [NodeMap.get_add, hs.nodeToCount n fun hn => hn]
    simp [eq_comm]

lemma get_foldl_forget (nodes : List NodeId) (g : SlidingWindowHistogram) (n : NodeId) :
    (nodes.foldl forget g).histogram.get n = (if n ∈ nodes then 0 else g.histogram.get n) ∧
    (nodes.foldl forget g).promptTokens.get n = (if n ∈ nodes then 0 else g.promptTokens.get n) ∧
    (nodes.foldl forget g).nodeToCount.get n = (if n ∈ nodes then 0 else g.nodeToCount.get n) := by
  induction nodes generalizing g with
  | nil => simp
  | cons m nodes ih =>
    obtain ⟨h₁, h₂, h₃⟩ := ih (g.forget m)
    rw [foldl_cons, h₁, h₂, h₃]
    by_cases hn : n ∈ nodes
    · simp [hn]
    · by_cases hm : n = m <;> simp [hn, forget, NodeMap.get_erase]

lemma sums_filter_notMem (nodes : List NodeId) (l : List HistogramEntry) (n : NodeId) :
    countOf (l.filter fun entry => entry.node ∉ nodes) n = (if n ∈ nodes then 0 else countOf l n) ∧
      weightOf (l.filter fun entry => entry.node ∉ nodes) n =
        if n ∈ nodes then 0 else weightOf l n := by
  induction l with
  | nil => simp
  | cons e l ih => by_cases he : e.node ∈ nodes <;> by_cases hn : e.node = n <;> simp_all

lemma Sums.removeEvictedNodes (hs : Sums h h.timestamps fun _ => False) (nodes : List NodeId) :
    Sums (h.removeEvictedNodes nodes) (h.timestamps.filter fun entry => entry.node ∉ nodes)
      fun _ => False := by
  refine ⟨fun n => ?_, fun n => ?_, fun n hn => hn.elim, fun n _ => ?_⟩
  · rw [SlidingWindowHistogram.removeEvictedNodes, (get_foldl_forget nodes _ n).1,
      (sums_filter_notMem ..).2, hs.histogram]
    split <;> rfl
  · rw [SlidingWindowHistogram.removeEvictedNodes, (get_foldl_forget nodes _ n).2.1,
      (sums_filter_notMem ..).2, hs.promptTokens]
    split <;> rfl
  · rw [SlidingWindowHistogram.removeEvictedNodes, (get_foldl_forget nodes _ n).2.2,
      (sums_filter_notMem ..).1, hs.nodeToCount n fun hn => hn]
    split <;> rfl

lemma timestamps_foldl_forget (nodes : List NodeId) (g : SlidingWindowHistogram) :
    (nodes.foldl forget g).timestamps = g.timestamps := by
  induction nodes generalizing g with
  | nil => rfl
  | cons m nodes ih => exact ih (g.forget m)

lemma timestamps_removeEvictedNodes (h : SlidingWindowHistogram) (nodes : List NodeId) :
    (h.removeEvictedNodes nodes).timestamps = h.timestamps.filter fun entry => entry.node ∉ nodes :=
  timestamps_foldl_forget nodes _

end SlidingWindowHistogram

/-! ### Whole runs -/

namespace Window

/-- **The sums are right**: for every node they are the number of the entries in the window
and the sum of what these added when they were recorded. -/
def Aggregates (w : Window) : Prop :=
  ∀ n, w.histogram.nodeToCount.get n = countOf w.histogram.timestamps n ∧
    w.histogram.histogram.get n = weightOf w.histogram.timestamps n ∧
    w.histogram.promptTokens.get n = weightOf w.histogram.timestamps n

/-- What has to hold before an event for it to keep the sums right: after a round of expiry a
node with expired and with retained entries has a retained one of positive length, and a
change of the pod set finds pods on the node of every entry. -/
def KeepsSums (w : Window) : Event → Prop
  | .removeOldEntries currentTime =>
    ∀ e ∈ w.histogram.timestamps, w.histogram.inWindow currentTime e = false →
      ∀ e' ∈ w.histogram.timestamps, w.histogram.inWindow currentTime e' = true →
        e'.node = e.node → ∃ e'' ∈ w.histogram.timestamps,
          w.histogram.inWindow currentTime e'' = true ∧ e''.node = e.node ∧
            0 < SlidingWindowHistogram.contextLength w.cache e''.leafNode
  | .updatePodSet readyPods => w.noticesChange readyPods = true → ∀ e ∈ w.histogram.timestamps,
        hasValidPods ((w.cache.removeDepartedPods readyPods).heap e.node) readyPods = true
  | _ => True

instance (w : Window) : DecidablePred w.KeepsSums := fun e => by
  cases e <;> unfold KeepsSums <;> infer_instance

variable {w : Window}

lemma aggregates_iff : w.Aggregates ↔
    SlidingWindowHistogram.Sums w.histogram w.histogram.timestamps fun _ => False := by
  constructor
  · exact fun h => ⟨fun n => (h n).2.1, fun n => (h n).2.2, fun n hn => hn.elim, fun n _ => (h n).1⟩
  · exact fun h n => ⟨h.nodeToCount n fun hn => hn, h.histogram n, h.promptTokens n⟩

/-- The tree is well formed, and each entry names a node that exists and has the context
length that the entry added. -/
structure Faithful (w : Window) : Prop where
  wf : ∃ path, WF w.cache path
  leaf_lt : ∀ e ∈ w.histogram.timestamps, e.leafNode < w.cache.nextNodeID
  added : ∀ e ∈ w.histogram.timestamps,
    SlidingWindowHistogram.contextLength w.cache e.leafNode = e.added

lemma Faithful.of_frozen (h : Faithful w) {w' : Window} (hw : ∃ path, WF w'.cache path)
    (hc : Frozen w.cache w'.cache)
    (ht : ∀ e ∈ w'.histogram.timestamps, e ∈ w.histogram.timestamps) : Faithful w' :=
  ⟨hw, fun e he => (h.leaf_lt e (ht e he)).trans_le hc.nextNodeID,
    fun e he => (hc.contextLength _ (h.leaf_lt e (ht e he))).trans (h.added e (ht e he))⟩

lemma Faithful.step (h : Faithful w) (e : Event) : Faithful (w.step e) := by
  obtain ⟨path, hw⟩ := h.wf
  have hshape : ∀ {c : LPRadixCache}, SameShape w.cache c → (∃ path, WF c path) ∧ Frozen w.cache c :=
    fun hs => ⟨⟨path, hs.wf hw⟩, .of_sameShape hs⟩
  cases e with
  | tree op => exact h.of_frozen (step_wf hw op) (.of_created (.step hw op)) fun e he => he
  | attach leaf model podIP now =>
    have hattach : SameShape w.cache (Router.attach w.cache leaf model podIP now) :=
      Router.attach_sameShape _
    obtain ⟨hwf, hfrozen⟩ := hshape hattach
    exact h.of_frozen hwf hfrozen fun e he => he
  | update timestamp node leafNode podIP decodingLength =>
    unfold Window.step
    dsimp only
    split
    · rename_i hlt
      refine ⟨h.wf, fun e he => ?_, fun e he => ?_⟩ <;> rcases mem_append.mp he with he | he
      · exact h.leaf_lt e he
      · obtain rfl := List.mem_singleton.mp he
        exact hlt
      · exact h.added e he
      · obtain rfl := List.mem_singleton.mp he
        rfl
    · exact h
  | removeOldEntries currentTime =>
    exact h.of_frozen h.wf (.of_sameShape (.refl _)) fun e he => (mem_filter.mp he).1
  | removeEvictedNodes nodes =>
    refine h.of_frozen h.wf (.of_sameShape (.refl _)) fun e he => ?_
    have he : e ∈ (w.histogram.removeEvictedNodes nodes).timestamps := he
    rw [SlidingWindowHistogram.timestamps_removeEvictedNodes] at he
    exact (mem_filter.mp he).1
  | updatePodSet readyPods =>
    obtain ⟨hwf, hfrozen⟩ := hshape (.of_withoutPods (.removeDepartedPods w.cache readyPods))
    unfold Window.step Window.updatePodSet
    dsimp only
    split
    · exact h.of_frozen hwf hfrozen fun e he => (mem_filter.mp he).1
    · exact h.of_frozen hwf hfrozen fun e he => he

lemma aggregates_iff_of_sums {Z : NodeId → Prop}
    (hs : SlidingWindowHistogram.Sums w.histogram w.histogram.timestamps Z) :
    w.Aggregates ↔ ∀ n, Z n → countOf w.histogram.timestamps n = 0 := by
  constructor
  · intro h n hn
    have := (h n).1
    rw [hs.zero n hn] at this
    exact_mod_cast this.symm
  · intro h n
    refine ⟨?_, hs.histogram n, hs.promptTokens n⟩
    by_cases hn : Z n
    · rw [hs.zero n hn, h n hn, Nat.cast_zero]
    · exact hs.nodeToCount n hn

lemma keepsSums_removeOldEntries (hf : Faithful w) (ha : w.Aggregates) (currentTime : Time) :
    (w.step (.removeOldEntries currentTime)).Aggregates ↔
      w.KeepsSums (.removeOldEntries currentTime) := by
  have hs := (aggregates_iff.mp ha).removeOldEntries currentTime hf.added
  refine (aggregates_iff_of_sums hs).trans ?_
  have hmem : ∀ e, e ∈ w.histogram.timestamps.filter (w.histogram.inWindow currentTime) ↔
      e ∈ w.histogram.timestamps ∧ w.histogram.inWindow currentTime e = true :=
    fun e => mem_filter
  constructor
  · intro h e he hgone e' he' hin hnode
    by_contra hnone
    have hzero : weightOf (w.histogram.timestamps.filter (w.histogram.inWindow currentTime))
        e.node = 0 := by
      rw [weightOf_eq_zero_iff]
      intro e'' he'' hnode''
      obtain ⟨hts, hin''⟩ := (hmem e'').mp he''
      have hlen : ¬ 0 < SlidingWindowHistogram.contextLength w.cache e''.leafNode :=
        fun hpos => hnone ⟨e'', hts, hin'', hnode'', hpos⟩
      rw [hf.added e'' hts] at hlen
      omega
    have hcount := h e.node ⟨⟨e, he, by simp [hgone], rfl⟩, hzero⟩
    have hpos := (countOf_pos_iff _ e.node).mpr ⟨e', (hmem e').mpr ⟨he', hin⟩, hnode⟩
    exact hpos.ne' hcount
  · rintro h n ⟨⟨e, he, hgone, rfl⟩, hzero⟩
    by_contra hne
    obtain ⟨e', he', hnode⟩ := (countOf_pos_iff _ _).mp (Nat.pos_of_ne_zero hne)
    obtain ⟨hts, hin⟩ := (hmem e').mp he'
    obtain ⟨e'', hts'', hin'', hnode'', hpos⟩ := h e he (by simpa using hgone) e' hts hin hnode
    have := (weightOf_eq_zero_iff _ _).mp hzero e'' ((hmem e'').mpr ⟨hts'', hin''⟩) hnode''
    rw [hf.added e'' hts'', this] at hpos
    exact hpos.false

lemma keepsSums_updatePodSet (ha : w.Aggregates) (readyPods : List String) :
    (w.step (.updatePodSet readyPods)).Aggregates ↔ w.KeepsSums (.updatePodSet readyPods) := by
  simp only [KeepsSums]
  by_cases hchange : w.noticesChange readyPods = true
  · simp only [hchange, forall_const]
    set valid : HistogramEntry → Bool := fun entry =>
      hasValidPods ((w.cache.removeDepartedPods readyPods).heap entry.node) readyPods
    -- the entries without pods go, the sums stay
    have hstep : (w.step (.updatePodSet readyPods)).Aggregates ↔
        ∀ n, w.histogram.nodeToCount.get n = countOf (w.histogram.timestamps.filter valid) n ∧
          w.histogram.histogram.get n = weightOf (w.histogram.timestamps.filter valid) n ∧
          w.histogram.promptTokens.get n = weightOf (w.histogram.timestamps.filter valid) n := by
      simp only [Window.step, Window.updatePodSet, if_pos hchange]
      rfl
    rw [hstep]
    constructor
    · intro h e he
      by_contra hnot
      have hinvalid : ¬ valid e = true := hnot
      obtain ⟨l, l', hl⟩ := append_of_mem he
      have hcount : countOf w.histogram.timestamps e.node =
          countOf (w.histogram.timestamps.filter valid) e.node := by
        have := (ha e.node).1.symm.trans (h e.node).1
        exact_mod_cast this
      rw [hl, filter_append, filter_cons_of_neg hinvalid] at hcount
      have hle : ∀ l, countOf (l.filter valid) e.node ≤ countOf l e.node :=
        fun l => filter_sublist.countP_le
      simp only [countOf_append, countOf_cons, if_true] at hcount
      have := hle l
      have := hle l'
      omega
    · intro h
      rw [filter_eq_self.mpr h]
      exact ha
  · refine iff_of_true ?_ fun h => absurd h (by simp [hchange])
    simp only [Window.step, Window.updatePodSet, hchange]
    exact ha

lemma aggregates_step_iff (hf : Faithful w) (ha : w.Aggregates) (e : Event) :
    (w.step e).Aggregates ↔ w.KeepsSums e := by
  have hs := aggregates_iff.mp ha
  cases e with
  | tree | attach => exact iff_of_true ha trivial
  | update timestamp node leafNode podIP decodingLength =>
    refine iff_of_true ?_ trivial
    unfold Window.step
    dsimp only
    split
    · exact aggregates_iff.mpr (hs.update timestamp node leafNode podIP decodingLength)
    · exact ha
  | removeOldEntries currentTime => exact keepsSums_removeOldEntries hf ha currentTime
  | removeEvictedNodes nodes =>
    refine iff_of_true (aggregates_iff.mpr ?_) trivial
    have hs' := hs.removeEvictedNodes nodes
    rw [← SlidingWindowHistogram.timestamps_removeEvictedNodes] at hs'
    exact hs'
  | updatePodSet readyPods => exact keepsSums_updatePodSet ha readyPods

lemma faithful_new (t : Time) : Faithful (new t) := ⟨⟨_, WF.new t⟩, by simp [new], by simp [new]⟩

lemma aggregates_new (t : Time) : (new t).Aggregates := fun _ => ⟨rfl, rfl, rfl⟩

/-- **The sums of the window** are right in every state of a run exactly if every expiry and
every change of the pod set of the run meets the condition. -/
theorem aggregates_run_iff (t : Time) (es : List Event) :
    (∀ es', es' <+: es → ((new t).run es').Aggregates) ↔ Along step KeepsSums (new t) es := by
  exact along_iff_of_invariant (faithful_new t) (aggregates_new t) (fun _ e hf => hf.step e)
    fun _ e hf ha => aggregates_step_iff hf ha e

/-- The only pod of a node leaves: the entry goes, its count and its weight stay. -/
theorem aggregates_run_departed :
    let w := (new 0).run [.tree (.addPrefix ⟨[1, 2, 3], "m", "", fun _ => 1, 1⟩),
      .attach 1 "m" "p" 1, .update 1 1 1 "p" 45, .updatePodSet ["q"]]
    w.histogram.timestamps = [] ∧ w.histogram.nodeToCount.get 1 = 1 ∧
      w.histogram.histogram.get 1 = 3 ∧ ¬ w.Aggregates := by
  intro w
  have hts : w.histogram.timestamps = [] := by decide +kernel
  have hcount : w.histogram.nodeToCount.get 1 = 1 := by decide +kernel
  refine ⟨hts, hcount, by decide +kernel, fun h => ?_⟩
  have := (h 1).1
  exact absurd this (by decide)

/-- Three requests at two nodes: all but the last expire, and a pod joins. -/
theorem aggregates_run_joined :
    let es : List Event := [.tree (.addPrefix ⟨[1, 2, 3], "m", "", fun _ => 1, 1⟩),
      .attach 1 "m" "p" 1, .update 1 1 1 "p" 45,
      .tree (.addPrefix ⟨[1, 2, 4], "m", "", fun _ => 2, 2⟩), .attach 3 "m" "p" 2,
      .update 100000000000 2 3 "p" 45, .update 200000000000 2 1 "p" 45,
      .removeOldEntries 300000000000, .updatePodSet ["p", "q"]]
    Along step KeepsSums (new 0) es ∧ ((new 0).run es).Aggregates ∧
      ((new 0).run es).histogram.nodeToCount.get 2 = 1 := by
  intro es
  have hkeeps : Along step KeepsSums (new 0) es := by decide +kernel
  exact ⟨hkeeps, (aggregates_run_iff 0 es).mpr hkeeps es (prefix_refl _), by decide +kernel⟩

end Window
end Lodestar.Routing
