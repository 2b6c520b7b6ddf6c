import Lodestar.Agent.PodRegistry
import Lodestar.Lib.Run

/-!
# One name for each pod?

Inference messages are rewritten with the registry and batches of training data with a numbering of
their own (`handle_infer` and `handle_flush` of `agent_codes/routing_agent_service.py`).  The two
agree as long as they number the pods in the same order.  A pod whose IP sorts before the IPs
that are known gets the next number in the registry and a low one in the next batch, and from then
on the rows of the training data speak of other pods than the messages do.

The text of a message is a sequence of pieces, of which some are IPs of pods.  Where in the text
the IPs are found is left open.
-/

namespace Lodestar.Agent

open Lib List

/-! ### Messages and batches -/

inductive Piece where
  | text (t : Text)
  | podIp (ip : PodIP)
  deriving DecidableEq

abbrev Content := List Piece

def Piece.ip : Piece → Option PodIP
  | .text _ => none
  | .podIp ip => some ip

def extractPodIpsFromContent (content : Content) : List PodIP := content.filterMap Piece.ip

def Piece.replaced (ids : AList fun _ : PodIP => GeneralPodId) : Piece → Text
  | .text t => t
  | .podIp ip => (ids.lookup ip).getD ip

/-- `pattern.sub` with a mapping. -/
def substitute (ids : AList fun _ : PodIP => GeneralPodId) (content : Content) : List Text :=
  content.map (Piece.replaced ids)

structure Rewritten where
  original : Content
  replaced : List Text

/-- The content has the name `id` where the original has the IP. -/
def Rewritten.Uses (c : Rewritten) (ip : PodIP) (id : GeneralPodId) : Prop :=
  (Piece.podIp ip, id) ∈ c.original.zip c.replaced

structure LogEntry where
  content : Content
  ttft : ℚ

structure TrainingRow where
  log : Rewritten
  ttft : ℚ

/-- The variables `ENABLE_ONLINE_LEARNING`, `TTFT_THRESHOLD` and `TARGET_GPU_MODEL`. -/
structure AgentConfig where
  enableOnlineLearning : Bool
  ttftThreshold : Option ℚ
  targetGpuModel : Option Text

/-- The names of the pods in the agent; `inferred` and `batches` record the messages and
the preprocessed batches so far. -/
structure PodNames where
  registry : PodRegistry := {}
  inferred : List Rewritten := []
  batches : List (List TrainingRow) := []
  onlineDf : List TrainingRow := []

namespace PodNames

/-- `get_all_pod_ips_from_data_file` for the file that a flush writes. -/
def getAllPodIpsFromDataFile (entries : List LogEntry) : List PodIP :=
  sortedPodIps (extractPodIpsFromContent (entries.flatMap LogEntry.content))

/-- `replace_pod_ip_with_generalpodid` for a file: the mapping; it fails if there is no pod. -/
def fileMapping (entries : List LogEntry) : Option (AList fun _ : PodIP => GeneralPodId) :=
  let podIps := getAllPodIpsFromDataFile entries
  if podIps.isEmpty then none else createPodIpToGeneralpodidMapping podIps

def processed (ids : AList fun _ : PodIP => GeneralPodId) (entries : List LogEntry) :
    List TrainingRow :=
  entries.map fun e => ⟨⟨e.content, substitute ids e.content⟩, e.ttft⟩

/-- `handle_flush`; `preprocessed` says that `preprocess.main` raises no exception. -/
def handleFlush (config : AgentConfig) (s : PodNames) (entries : List LogEntry)
    (preprocessed : Bool) : PodNames :=
  match fileMapping entries with
  | none => s
  | some ids =>
    if preprocessed then
      let processedDf := processed ids entries
      let onlineBatch := match config.ttftThreshold with
        | none => processedDf
        | some threshold => processedDf.filter fun row => row.ttft ≤ threshold
      { s with
        batches := processedDf :: s.batches
        onlineDf := if config.enableOnlineLearning then s.onlineDf ++ onlineBatch else s.onlineDf }
    else s

/-- `replace_pod_ip_with_generalpodid` for a message, in `handle_infer`. -/
def handleInfer (config : AgentConfig) (s : PodNames) (content : Content) (gpuMap : GpuMap) :
    PodNames :=
  let podIps := extractPodIpsFromContent content
  if podIps.isEmpty then s
  else
    let result := s.registry.registerPodIps podIps gpuMap (.fallback config.targetGpuModel)
    -- too many pods: an exception, and what was registered before stays
    if result.2 then
      { s with
        registry := result.1
        inferred := ⟨content, substitute result.1.podIpToGeneralpodid content⟩ :: s.inferred }
    else { s with registry := result.1 }

inductive Event where
  /-- The registration of the running pods at the start. -/
  | startup (podIps : List PodIP) (gpuMap : GpuMap)
  | infer (content : Content) (gpuMap : GpuMap)
  | flush (entries : List LogEntry) (preprocessed : Bool)

def step (config : AgentConfig) (s : PodNames) : Event → PodNames
  | .startup podIps gpuMap =>
    { s with registry := (s.registry.registerPodIps podIps gpuMap (.fallback config.targetGpuModel)).1 }
  | .infer content gpuMap => s.handleInfer config content gpuMap
  | .flush entries preprocessed => s.handleFlush config entries preprocessed

def run (config : AgentConfig) (events : List Event) : PodNames := events.foldl (step config) {}

/-- The name stands for the IP in the registry, in a message or in a row of training data. -/
def Uses (s : PodNames) (ip : PodIP) (id : GeneralPodId) : Prop :=
  s.registry.podIpToGeneralpodid.lookup ip = some id ∨ (∃ c ∈ s.inferred, c.Uses ip id) ∨
    ∃ rows ∈ s.batches, ∃ row ∈ rows, row.log.Uses ip id

/-- An IP has one name, and different IPs have different names. -/
def Consistent (s : PodNames) : Prop :=
  ∀ ip id ip' id', s.Uses ip id → s.Uses ip' id' → (ip = ip' ↔ id = id')

variable {content : Content} {ip : PodIP}

lemma mem_extractPodIpsFromContent :
    ip ∈ extractPodIpsFromContent content ↔ Piece.podIp ip ∈ content := by
  rw [extractPodIpsFromContent, mem_filterMap]
  constructor
  · rintro ⟨p, hp, hip⟩
    cases p with
    | text t => simp [Piece.ip] at hip
    | podIp ip' =>
      obtain rfl : ip' = ip := by simpa [Piece.ip] using hip
      exact hp
  · exact fun h => ⟨_, h, rfl⟩

variable {ids : AList fun _ : PodIP => GeneralPodId}

lemma uses_substitute {id : GeneralPodId} :
    (Rewritten.mk content (substitute ids content)).Uses ip id ↔
      ip ∈ extractPodIpsFromContent content ∧ (ids.lookup ip).getD ip = id := by
  have hzip : content.zip (substitute ids content) = content.map fun p => (p, p.replaced ids) := by
    induction content with
    | nil => rfl
    | cons p content ih => exact congrArg ((p, p.replaced ids) :: ·) ih
  rw [Rewritten.Uses, hzip, mem_extractPodIpsFromContent, mem_map]
  constructor
  · rintro ⟨p, hp, heq⟩
    obtain ⟨rfl, rfl⟩ := Prod.mk.inj heq
    exact ⟨hp, rfl⟩
  · rintro ⟨hp, rfl⟩
    exact ⟨_, hp, rfl⟩

/-! ### Orders -/

def batchOrder (rows : List TrainingRow) : List PodIP :=
  sortedPodIps (extractPodIpsFromContent (rows.flatMap fun row => row.log.original))

/-- The orders in which the registry and the batches number the pods. -/
def orders (s : PodNames) : List (List PodIP) := s.registry.order :: s.batches.map batchOrder

def numbering (s : PodNames) : List PodIP := longest s.orders

structure WellNumbered (s : PodNames) : Prop where
  registry : s.registry.Numbered
  inferred : ∀ c ∈ s.inferred, ∀ ip id, c.Uses ip id →
    s.registry.podIpToGeneralpodid.lookup ip = some id
  length_le : ∀ rows ∈ s.batches, (batchOrder rows).length ≤ 1000
  batches : ∀ rows ∈ s.batches, ∀ ip id, (∃ row ∈ rows, row.log.Uses ip id) ↔
    ∃ k : ℕ, (batchOrder rows)[k]? = some ip ∧ formatGeneralpodid k = some id

variable {config : AgentConfig} {s : PodNames}

section

variable (hs : s.WellNumbered)
include hs

lemma WellNumbered.uses_iff (ip : PodIP) (id : GeneralPodId) :
    s.Uses ip id ↔ ∃ l ∈ s.orders, ∃ k : ℕ, l[k]? = some ip ∧ formatGeneralpodid k = some id := by
  rw [orders, exists_mem_cons_iff, ← hs.registry.numbers ip id]
  constructor
  · rintro (h | ⟨c, hc, h⟩ | ⟨rows, hrows, h⟩)
    · exact .inl h
    · exact .inl (hs.inferred c hc ip id h)
    · exact .inr ⟨_, mem_map_of_mem hrows, (hs.batches rows hrows ip id).mp h⟩
  · rintro (h | ⟨l, hl, h⟩)
    · exact .inl h
    · obtain ⟨rows, hrows, rfl⟩ := mem_map.mp hl
      exact .inr (.inr ⟨rows, hrows, (hs.batches rows hrows ip id).mpr h⟩)

lemma WellNumbered.order_mem {l : List PodIP} (hl : l ∈ s.orders) :
    l.Nodup ∧ l.length ≤ 1000 := by
  rcases mem_cons.mp hl with rfl | hl
  · exact ⟨s.registry.nodup_order, hs.registry.length_le⟩
  · obtain ⟨rows, hrows, rfl⟩ := mem_map.mp hl
    exact ⟨nodup_sortedPodIps _, hs.length_le rows hrows⟩

lemma WellNumbered.consistent_iff :
    s.Consistent ↔ AllComparable s.orders := by
  have hagree : s.Consistent ↔ ∀ l ∈ s.orders, ∀ l' ∈ s.orders, Agree l l' := by
    constructor
    · intro h l hl l' hl' i j x y hx hy
      obtain ⟨hi, -⟩ := List.getElem?_eq_some_iff.mp hx
      obtain ⟨hj, -⟩ := List.getElem?_eq_some_iff.mp hy
      obtain ⟨id, hid⟩ := exists_formatGeneralpodid (hi.trans_le (hs.order_mem hl).2)
      obtain ⟨id', hid'⟩ := exists_formatGeneralpodid (hj.trans_le (hs.order_mem hl').2)
      rw [h x id y id' ((hs.uses_iff x id).mpr ⟨l, hl, i, hx, hid⟩)
        ((hs.uses_iff y id').mpr ⟨l', hl', j, hy, hid'⟩)]
      constructor
      · rintro rfl
        exact formatGeneralpodid_inj hid hid'
      · rintro rfl
        exact Option.some.inj (hid.symm.trans hid')
    · intro h ip id ip' id' hu hu'
      obtain ⟨l, hl, i, hi, hid⟩ := (hs.uses_iff ip id).mp hu
      obtain ⟨l', hl', j, hj, hid'⟩ := (hs.uses_iff ip' id').mp hu'
      rw [h l hl l' hl' i j ip ip' hi hj]
      constructor
      · rintro rfl
        exact Option.some.inj (hid.symm.trans hid')
      · rintro rfl
        exact formatGeneralpodid_inj hid hid'
  rw [hagree]
  refine forall₂_congr fun l hl => forall₂_congr fun l' hl' => ?_
  exact agree_iff_comparable (hs.order_mem hl).1 (hs.order_mem hl').1

/-! ### Steps -/

lemma WellNumbered.register (podIps : List PodIP) (gpuMap : GpuMap)
    (fallback : GpuModel) :
    ({ s with registry := (s.registry.registerPodIps podIps gpuMap fallback).1 } :
      PodNames).WellNumbered := by
  obtain ⟨hnum, horder⟩ := hs.registry.registerPodIps podIps gpuMap fallback
  refine ⟨hnum, fun c hc ip id hu => ?_, hs.length_le, hs.batches⟩
  exact hs.registry.numbers.lookup_of_prefix hnum.numbers
    (horder ▸ PodRegistry.order_prefix_orderWith hs.registry podIps) (hs.inferred c hc ip id hu)

lemma WellNumbered.handleInfer (content : Content) (gpuMap : GpuMap) :
    (s.handleInfer config content gpuMap).WellNumbered := by
  have hreg := hs.register (extractPodIpsFromContent content) gpuMap (.fallback config.targetGpuModel)
  unfold PodNames.handleInfer
  dsimp only
  split
  · exact hs
  split
  · rename_i hdone
    refine ⟨hreg.registry, fun c hc ip id hu => ?_, hreg.length_le, hreg.batches⟩
    rcases mem_cons.mp hc with rfl | hc
    · obtain ⟨hip, hid⟩ := uses_substitute.mp hu
      obtain ⟨id', hid'⟩ := hs.registry.lookup_of_done _ gpuMap _ hdone hip
      rw [hid', Option.getD_some] at hid
      rw [hid', hid]
    · exact hreg.inferred c hc ip id hu
  · exact hreg

end

variable {entries : List LogEntry}

lemma fileMapping_spec (h : fileMapping entries = some ids) :
    (getAllPodIpsFromDataFile entries).length ≤ 1000 ∧
      NumbersBy ids (getAllPodIpsFromDataFile entries) := by
  unfold fileMapping at h
  dsimp only at h
  split at h
  · simp at h
  have hspec := createPodIpToGeneralpodidMapping_spec (getAllPodIpsFromDataFile entries)
  rw [h, getAllPodIpsFromDataFile, sortedPodIps_sortedPodIps] at hspec
  split at hspec
  · rename_i hle
    obtain ⟨m, hm, hnum⟩ := hspec
    exact ⟨hle, Option.some.inj hm ▸ hnum⟩
  · simp at hspec

lemma fileMapping_eq_none (h : fileMapping entries = none) :
    getAllPodIpsFromDataFile entries = [] ∨ 1000 < (getAllPodIpsFromDataFile entries).length := by
  unfold fileMapping at h
  dsimp only at h
  split at h
  · rename_i hnil
    exact .inl (isEmpty_iff.mp hnil)
  have hspec := createPodIpToGeneralpodidMapping_spec (getAllPodIpsFromDataFile entries)
  rw [h, getAllPodIpsFromDataFile, sortedPodIps_sortedPodIps] at hspec
  split at hspec
  · simp at hspec
  · rename_i hle
    exact .inr (not_le.mp hle)

lemma mem_podIps : ip ∈ getAllPodIpsFromDataFile entries ↔
      ∃ e ∈ entries, ip ∈ extractPodIpsFromContent e.content := by
  simp only [getAllPodIpsFromDataFile, mem_sortedPodIps, mem_extractPodIpsFromContent, mem_flatMap]

lemma batchOrder_processed (ids : AList fun _ : PodIP => GeneralPodId) (entries : List LogEntry) :
    batchOrder (processed ids entries) = getAllPodIpsFromDataFile entries := by
  rw [batchOrder, processed, flatMap_map, getAllPodIpsFromDataFile]

lemma WellNumbered.addBatch (hs : s.WellNumbered) (h : fileMapping entries = some ids)
    (onlineDf : List TrainingRow) :
    ({ s with batches := processed ids entries :: s.batches, onlineDf := onlineDf } :
      PodNames).WellNumbered := by
  obtain ⟨hle, hnum⟩ := fileMapping_spec h
  refine ⟨hs.registry, hs.inferred, ?_, ?_⟩
  · rintro rows hrows
    rcases mem_cons.mp hrows with rfl | hrows
    · rw [batchOrder_processed]
      exact hle
    · exact hs.length_le rows hrows
  · intro rows hrows ip id
    rcases mem_cons.mp hrows with rfl | hrows
    · rw [batchOrder_processed, ← hnum ip id]
      constructor
      · rintro ⟨row, hrow, hu⟩
        obtain ⟨e, he, rfl⟩ := mem_map.mp hrow
        obtain ⟨hip, hid⟩ := uses_substitute.mp hu
        have hmem := mem_podIps.mpr ⟨e, he, hip⟩
        obtain ⟨id', hid'⟩ := hnum.exists_lookup hle hmem
        rw [hid', Option.getD_some] at hid
        rw [hid', hid]
      · intro hlookup
        obtain ⟨k, hk, -⟩ := (hnum ip id).mp hlookup
        obtain ⟨e, he, hip⟩ := mem_podIps.mp (mem_of_getElem? hk)
        exact ⟨_, mem_map_of_mem he, uses_substitute.mpr ⟨hip, by rw [hlookup]; rfl⟩⟩
    · exact hs.batches rows hrows ip id

lemma WellNumbered.handleFlush (hs : s.WellNumbered) (entries : List LogEntry)
    (preprocessed : Bool) : (s.handleFlush config entries preprocessed).WellNumbered := by
  unfold PodNames.handleFlush
  split
  · exact hs
  · rename_i ids h
    split
    · exact hs.addBatch h _
    · exact hs

lemma WellNumbered.step (hs : s.WellNumbered) (e : Event) : (s.step config e).WellNumbered := by
  cases e with
  | startup podIps gpuMap => exact hs.register podIps gpuMap _
  | infer content gpuMap => exact hs.handleInfer content gpuMap
  | flush entries preprocessed => exact hs.handleFlush entries preprocessed

lemma wellNumbered_new : ({} : PodNames).WellNumbered :=
  ⟨⟨numbersBy_empty, by simp [PodRegistry.order]⟩, by simp, by simp, by simp⟩

/-- The order of the pods that the event brings up continues the longest one so far, or is continued
by it. -/
def InOrder (s : PodNames) : Event → Prop
  | .startup podIps _ => Comparable (s.registry.orderWith podIps) s.numbering
  | .infer content _ =>
    Comparable (s.registry.orderWith (extractPodIpsFromContent content)) s.numbering
  | .flush entries preprocessed =>
    preprocessed = true → (getAllPodIpsFromDataFile entries).length ≤ 1000 →
      Comparable (getAllPodIpsFromDataFile entries) s.numbering

instance (s : PodNames) (e : Event) : Decidable (s.InOrder e) := by
  cases e <;> unfold InOrder <;> infer_instance

lemma orders_handleInfer (hs : s.WellNumbered) (content : Content) (gpuMap : GpuMap) :
    (s.handleInfer config content gpuMap).orders =
      s.registry.orderWith (extractPodIpsFromContent content) :: s.batches.map batchOrder := by
  have horder := (hs.registry.registerPodIps (extractPodIpsFromContent content) gpuMap
    (.fallback config.targetGpuModel)).2
  unfold PodNames.handleInfer
  dsimp only
  split
  · rename_i hnil
    rw [isEmpty_iff.mp hnil, PodRegistry.orderWith_nil hs.registry]
    rfl
  · rw [← horder]
    split <;> rfl

lemma allComparable_handleFlush_iff (hall : AllComparable s.orders) (entries : List LogEntry)
    (preprocessed : Bool) :
    AllComparable (s.handleFlush config entries preprocessed).orders ↔
      s.InOrder (.flush entries preprocessed) := by
  unfold PodNames.handleFlush InOrder
  cases hids : fileMapping entries with
  | none =>
    refine iff_of_true hall fun _ hle => ?_
    rcases fileMapping_eq_none hids with hnil | hgt
    · rw [hnil]
      exact .inl nil_prefix
    · omega
  | some ids =>
    cases preprocessed with
    | false => exact iff_of_true hall (by simp)
    | true =>
      have hcons : AllComparable (s.registry.order :: batchOrder (processed ids entries) ::
          s.batches.map batchOrder) ↔ Comparable (getAllPodIpsFromDataFile entries) s.numbering := by
        rw [batchOrder_processed]
        exact allComparable_swap.trans hall.cons_iff
      exact ⟨fun h _ _ => hcons.mp h, fun h => hcons.mpr (h rfl (fileMapping_spec hids).1)⟩

/-- **One step**: the names stay consistent exactly if the event comes in order. -/
lemma WellNumbered.consistent_step_iff (hs : s.WellNumbered) (hc : s.Consistent) (e : Event) :
    (s.step config e).Consistent ↔ s.InOrder e := by
  have hall := hs.consistent_iff.mp hc
  rw [(hs.step e).consistent_iff]
  cases e with
  | startup podIps gpuMap =>
    have horder := (hs.registry.registerPodIps podIps gpuMap (.fallback config.targetGpuModel)).2
    rw [PodNames.step, orders, horder]
    exact hall.extend_iff (PodRegistry.order_prefix_orderWith hs.registry podIps)
  | infer content gpuMap =>
    rw [PodNames.step, orders_handleInfer hs]
    exact hall.extend_iff (PodRegistry.order_prefix_orderWith hs.registry _)
  | flush entries preprocessed => exact allComparable_handleFlush_iff hall entries preprocessed

/-- **Consistency**: in all states of a run an IP has one name and different IPs have different
names exactly if every event comes in order. -/
theorem consistent_run_iff (config : AgentConfig) (events : List Event) :
    (∀ es, es <+: events → (run config es).Consistent) ↔ Along (step config) InOrder {} events := by
  exact along_iff_of_invariant wellNumbered_new (by simp [Consistent, Uses]) (fun _ e hs => hs.step e)
    fun _ e hs hc => hs.consistent_step_iff hc e

def twoPods (ip ip' : String) : LogEntry where
  content := [.text "selectedpod@".toList, .podIp ip.toList, .text "@podMetrics@".toList,
    .podIp ip.toList, .podIp ip'.toList]
  ttft := 40

def onlineLearning : AgentConfig where
  enableOnlineLearning := true
  ttftThreshold := some 1000
  targetGpuModel := none

/-- A pod joins whose IP sorts before the IP that is known.  In the row that is stored the new pod
has the name that the registry gave to the old one, and the old one has another name. -/
theorem consistent_run_lowerIp :
    let s := run onlineLearning [.startup ["10.0.0.5".toList] ∅,
      .flush [twoPods "10.0.0.5" "10.0.0.3"] true]
    s.registry.podIpToGeneralpodid.lookup "10.0.0.5".toList = some "pod_0000".toList ∧
      (∃ row ∈ s.onlineDf, row.log.Uses "10.0.0.3".toList "pod_0000".toList ∧
        row.log.Uses "10.0.0.5".toList "pod_0001".toList) ∧ ¬ s.Consistent := by
  intro s
  have hlookup : s.registry.podIpToGeneralpodid.lookup "10.0.0.5".toList =
      some "pod_0000".toList := by decide +kernel
  have hrow : ∃ row ∈ s.onlineDf, row.log.Uses "10.0.0.3".toList "pod_0000".toList ∧
      row.log.Uses "10.0.0.5".toList "pod_0001".toList := by
    unfold Rewritten.Uses
    decide +kernel
  have hbatch : ∃ rows ∈ s.batches, ∃ row ∈ rows,
      row.log.Uses "10.0.0.3".toList "pod_0000".toList := by
    unfold Rewritten.Uses
    decide +kernel
  refine ⟨hlookup, hrow, fun h => ?_⟩
  exact absurd ((h _ _ _ _ (.inl hlookup) (.inr (.inr hbatch))).mpr rfl) (by decide)

/-- The pods join in the order of their IPs. -/
theorem consistent_run_sorted :
    (run onlineLearning [.startup ["10.0.0.3".toList] ∅, .flush [twoPods "10.0.0.3" "10.0.0.5"] true,
      .infer (twoPods "10.0.0.5" "10.0.0.3").content ∅]).Consistent :=
  (consistent_run_iff onlineLearning _).mpr (by decide +kernel) _ (prefix_refl _)

end PodNames
end Lodestar.Agent
