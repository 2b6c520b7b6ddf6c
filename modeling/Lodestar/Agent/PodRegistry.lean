import Lodestar.Agent.Json
import Lodestar.Lib.Numbering

/-!
# The two numberings of the pods

The agent calls the pods `pod_0000`, `pod_0001`, … and has two ways to number them
(`agent_codes/utils.py`).  The registry of the process, which is used for inference messages, gives
the next number to an IP that it sees for the first time (`registerPodIps`).  A file of training
data is numbered by itself, in the order of its sorted IPs
(`createPodIpToGeneralpodidMapping`).
-/

namespace Lodestar.Agent

open Lib List

abbrev PodIP := Text

/-- A name such as `pod_0007`. -/
abbrev GeneralPodId := Text

/-- `_format_generalpodid`; it fails for the thousand-first pod. -/
def formatGeneralpodid (idx : ℕ) : Option GeneralPodId :=
  if idx < 10 then some ("pod_000".toList ++ Nat.toDigits 10 idx)
  else if idx < 100 then some ("pod_00".toList ++ Nat.toDigits 10 idx)
  else if idx < 1000 then some ("pod_0".toList ++ Nat.toDigits 10 idx)
  else none

/-! ### GPU models -/

/-- The keys of `GPU_MODEL_TO_ENCODE`. -/
inductive GpuModel where
  | nvidiaL20 | nvidiaA10 | nvidiaA30 | gpuL3c | nvidiaA100 | nvidiaH100 | nvidiaL4 | nvidiaL40
  | nvidiaL40S | nvidiaT4 | teslaV100
  deriving DecidableEq

namespace GpuModel

def all : List GpuModel :=
  [nvidiaL20, nvidiaA10, nvidiaA30, gpuL3c, nvidiaA100, nvidiaH100, nvidiaL4, nvidiaL40, nvidiaL40S,
   nvidiaT4, teslaV100]

def name : GpuModel → Text
  | nvidiaL20 => "NVIDIA-L20".toList
  | nvidiaA10 => "NVIDIA-A10".toList
  | nvidiaA30 => "NVIDIA-A30".toList
  | gpuL3c => "GPU-L3c".toList
  | nvidiaA100 => "NVIDIA-A100".toList
  | nvidiaH100 => "NVIDIA-H100".toList
  | nvidiaL4 => "NVIDIA-L4".toList
  | nvidiaL40 => "NVIDIA-L40".toList
  | nvidiaL40S => "NVIDIA-L40S".toList
  | nvidiaT4 => "NVIDIA-T4".toList
  | teslaV100 => "Tesla-V100".toList

/-- `GPU_MODEL_TO_ENCODE`. -/
def encode : GpuModel → ℕ
  | nvidiaL20 => 0
  | nvidiaA10 => 1
  | nvidiaA30 => 2
  | gpuL3c => 3
  | nvidiaA100 => 4
  | nvidiaH100 => 5
  | nvidiaL4 => 6
  | nvidiaL40 => 7
  | nvidiaL40S => 8
  | nvidiaT4 => 9
  | teslaV100 => 10

def ofName (t : Text) : Option GpuModel := all.find? fun gm => gm.name = t

/-- The model of pods of unknown model, from the variable `TARGET_GPU_MODEL`. -/
def fallback (targetGpuModel : Option Text) : GpuModel :=
  (targetGpuModel.bind ofName).getD nvidiaA30

end GpuModel

abbrev GpuMap := AList fun _ : PodIP => Text

def resolveGpuModel (podIp : PodIP) (gpuMap : GpuMap) (fallback : GpuModel) : GpuModel :=
  ((gpuMap.lookup podIp).bind GpuModel.ofName).getD fallback

/-! ### The registry -/

/-- A dictionary from its items, in the order in which they are set. -/
def fromItems {κ ν : Type} [DecidableEq κ] (items : List (κ × ν)) : AList fun _ : κ => ν :=
  items.foldl (fun m e => m.insert e.1 e.2) ∅

/-- The items of a dictionary in the order in which they were set. -/
def items {κ ν : Type} (m : AList fun _ : κ => ν) : List (κ × ν) :=
  m.entries.reverse.map fun e => (e.1, e.2)

/-- `sorted` of a set of IPs. -/
def sortedPodIps (podIps : List PodIP) : List PodIP := podIps.dedup.insertionSort (· ≤ ·)

/-- The entries of `HYPERPARAMETERS` by pod; `pod_gpu_mapping` is `generalpodid_to_gpu_model`. -/
structure PodViews where
  podIpToGeneralpodid : AList fun _ : PodIP => GeneralPodId := ∅
  generalpodidToPodIp : AList fun _ : GeneralPodId => PodIP := ∅
  sortedRunningPodIps : List PodIP := []
  podIpToGpuModel : AList fun _ : PodIP => GpuModel := ∅
  podIpToGpuModelEncoded : AList fun _ : PodIP => ℕ := ∅
  generalpodidToGpuModel : AList fun _ : GeneralPodId => GpuModel := ∅
  podGpuIdMapping : AList fun _ : GeneralPodId => ℕ := ∅

structure PodRegistry where
  podIpToGeneralpodid : AList fun _ : PodIP => GeneralPodId := ∅
  podIpToGpuModel : AList fun _ : PodIP => GpuModel := ∅
  hyperparameters : PodViews := {}

def PodRegistry.refreshHyperparameterViews (reg : PodRegistry) : PodViews :=
  let ids := reg.podIpToGeneralpodid
  let models := items reg.podIpToGpuModel
  let modelsById := models.filterMap fun e => (ids.lookup e.1).map fun pid => (pid, e.2)
  { podIpToGeneralpodid := ids
    generalpodidToPodIp := fromItems ((items ids).map fun e => (e.2, e.1))
    sortedRunningPodIps := ids.keys.insertionSort (· ≤ ·)
    podIpToGpuModel := reg.podIpToGpuModel
    podIpToGpuModelEncoded := fromItems (models.map fun e => (e.1, e.2.encode))
    generalpodidToGpuModel := fromItems modelsById
    podGpuIdMapping := fromItems (modelsById.map fun e => (e.1, e.2.encode)) }

def PodRegistry.add (reg : PodRegistry) (ip : PodIP) (newId : GeneralPodId) (gpuModel : GpuModel) :
    PodRegistry :=
  { reg with
    podIpToGeneralpodid := reg.podIpToGeneralpodid.insert ip newId
    podIpToGpuModel := reg.podIpToGpuModel.insert ip gpuModel }

/-- One turn of the loop of `register_pod_ips`. -/
def PodRegistry.registerPodIp (gpuMap : GpuMap) (fallback : GpuModel) (reg : PodRegistry)
    (ip : PodIP) : Option PodRegistry :=
  if ip ∈ reg.podIpToGeneralpodid then some reg
  else
    (formatGeneralpodid reg.podIpToGeneralpodid.keys.length).map fun newId =>
      reg.add ip newId (resolveGpuModel ip gpuMap fallback)

/-- The loop of `register_pod_ips`; the flag says that it came to its end. -/
def PodRegistry.registerLoop (gpuMap : GpuMap) (fallback : GpuModel) :
    List PodIP → PodRegistry → PodRegistry × Bool
  | [], reg => (reg, true)
  | ip :: ips, reg =>
    match reg.registerPodIp gpuMap fallback ip with
    | none => (reg, false)
    | some reg' => registerLoop gpuMap fallback ips reg'

/-- `register_pod_ips`; the flag says that it did not raise an exception. -/
def PodRegistry.registerPodIps (reg : PodRegistry) (podIps : List PodIP) (gpuMap : GpuMap)
    (fallback : GpuModel) : PodRegistry × Bool :=
  match registerLoop gpuMap fallback (sortedPodIps podIps) reg with
  | (reg', false) => (reg', false)
  | (reg', true) =>
    if reg'.podIpToGeneralpodid.keys.length = reg.podIpToGeneralpodid.keys.length then (reg', true)
    else ({ reg' with hyperparameters := reg'.refreshHyperparameterViews }, true)

/-- The loop of `create_pod_ip_to_generalpodid_mapping`. -/
def numberFrom (idx : ℕ) : List PodIP → (AList fun _ : PodIP => GeneralPodId) →
    Option (AList fun _ : PodIP => GeneralPodId)
  | [], m => some m
  | ip :: ips, m =>
    match formatGeneralpodid idx with
    | none => none
    | some id => numberFrom (idx + 1) ips (m.insert ip id)

/-- `create_pod_ip_to_generalpodid_mapping`; it fails for more than a thousand pods. -/
def createPodIpToGeneralpodidMapping (uniquePodIps : List PodIP) :
    Option (AList fun _ : PodIP => GeneralPodId) :=
  numberFrom 0 (sortedPodIps uniquePodIps) ∅

/-! ### Names -/

variable {idx : ℕ}

lemma formatGeneralpodid_eq_none : formatGeneralpodid idx = none ↔ 1000 ≤ idx := by
  unfold formatGeneralpodid
  split_ifs <;> simp <;> omega

lemma exists_formatGeneralpodid (h : idx < 1000) : ∃ id, formatGeneralpodid idx = some id :=
  Option.ne_none_iff_exists'.mp fun hnone => absurd (formatGeneralpodid_eq_none.mp hnone) (by omega)

variable {id : GeneralPodId}

lemma ofDigitChars_formatGeneralpodid (h : formatGeneralpodid idx = some id) :
    Nat.ofDigitChars 10 (id.drop 4) 0 = idx := by
  have hzeros : ∀ k : ℕ, Nat.ofDigitChars 10 (List.replicate k '0' ++ Nat.toDigits 10 idx) 0 = idx := by
    intro k
    induction k with
    | zero => exact Nat.ofDigitChars_toDigits (by decide) (by decide)
    | succ k ih => exact ih
  unfold formatGeneralpodid at h
  split_ifs at h
  · rw [← Option.some.inj h]
    exact hzeros 3
  · rw [← Option.some.inj h]
    exact hzeros 2
  · rw [← Option.some.inj h]
    exact hzeros 1

lemma formatGeneralpodid_inj {i j : ℕ} (hi : formatGeneralpodid i = some id)
    (hj : formatGeneralpodid j = some id) : i = j := by
  rw [← ofDigitChars_formatGeneralpodid hi, ofDigitChars_formatGeneralpodid hj]

lemma formatGeneralpodid_chars (h : formatGeneralpodid idx = some id) :
    'p' ∈ id ∧ ∀ c ∈ id, c ∈ "pod_".toList ∨ c.isDigit = true := by
  have hname : ∀ zeros : Text, (∀ c ∈ zeros, c.isDigit = true) →
      'p' ∈ "pod_".toList ++ zeros ++ Nat.toDigits 10 idx ∧
        ∀ c ∈ "pod_".toList ++ zeros ++ Nat.toDigits 10 idx, c ∈ "pod_".toList ∨ c.isDigit = true := by
    intro zeros hzeros
    refine ⟨by simp, fun c hc => ?_⟩
    rcases mem_append.mp hc with hc | hc
    · exact (mem_append.mp hc).imp_right (hzeros c)
    · exact .inr (Nat.isDigit_of_mem_toDigits (by omega) (by omega) hc)
  unfold formatGeneralpodid at h
  split_ifs at h
  · obtain rfl := Option.some.inj h
    exact hname ['0', '0', '0'] (by simp)
  · obtain rfl := Option.some.inj h
    exact hname ['0', '0'] (by simp)
  · obtain rfl := Option.some.inj h
    exact hname ['0'] (by simp)

/-! ### Dictionaries that number a list -/

/-- The dictionary names each IP of the list by its place. -/
def NumbersBy (m : AList fun _ : PodIP => GeneralPodId) (l : List PodIP) : Prop :=
  ∀ ip id, m.lookup ip = some id ↔ ∃ k : ℕ, l[k]? = some ip ∧ formatGeneralpodid k = some id

variable {m m' : AList fun _ : PodIP => GeneralPodId} {l ips : List PodIP} {ip : PodIP}
  {id : GeneralPodId}

lemma numbersBy_empty : NumbersBy ∅ [] := by
  simp [NumbersBy]

lemma NumbersBy.insert (h : NumbersBy m l) (hip : ip ∉ l)
    (hid : formatGeneralpodid l.length = some id) : NumbersBy (m.insert ip id) (l ++ [ip]) := by
  intro ip' id'
  by_cases hip' : ip' = ip
  · subst hip'
    rw [AList.lookup_insert, Option.some.injEq]
    constructor
    · rintro rfl
      exact ⟨l.length, by simp, hid⟩
    · rintro ⟨k, hk, hid'⟩
      obtain hlt | rfl | hgt := lt_trichotomy k l.length
      · rw [List.getElem?_append_left hlt] at hk
        exact (hip (mem_of_getElem? hk)).elim
      · exact Option.some.inj (hid.symm.trans hid')
      · rw [getElem?_eq_none (by simp; omega)] at hk
        simp at hk
  · rw [AList.lookup_insert_ne hip', h]
    have hsame : ∀ k : ℕ, (l ++ [ip])[k]? = some ip' ↔ l[k]? = some ip' := by
      intro k
      rcases lt_or_ge k l.length with hlt | hge
      · rw [List.getElem?_append_left hlt]
      · rw [getElem?_append_right hge, getElem?_eq_none hge]
        refine iff_of_false (fun hk => hip' ?_) (by simp)
        simpa using mem_of_getElem? hk
    simp [hsame]

lemma NumbersBy.exists_lookup (h : NumbersBy m l) (hl : l.length ≤ 1000) (hip : ip ∈ l) :
    ∃ id, m.lookup ip = some id := by
  obtain ⟨k, hk⟩ := mem_iff_getElem?.mp hip
  obtain ⟨id, hid⟩ := exists_formatGeneralpodid
    ((List.getElem?_eq_some_iff.mp hk).1.trans_le hl)
  exact ⟨id, (h ip id).mpr ⟨k, hk, hid⟩⟩

lemma NumbersBy.lookup_of_prefix {l' : List PodIP} (h : NumbersBy m l) (h' : NumbersBy m' l')
    (hpre : l <+: l') (hip : m.lookup ip = some id) : m'.lookup ip = some id := by
  obtain ⟨k, hk, hid⟩ := (h ip id).mp hip
  obtain ⟨t, rfl⟩ := hpre
  refine (h' ip id).mpr ⟨k, ?_, hid⟩
  rw [List.getElem?_append_left (List.getElem?_eq_some_iff.mp hk).1, hk]

lemma nodup_sortedPodIps (podIps : List PodIP) : (sortedPodIps podIps).Nodup :=
  (perm_insertionSort _ _).nodup_iff.mpr (nodup_dedup _)

lemma mem_sortedPodIps {podIps : List PodIP} : ip ∈ sortedPodIps podIps ↔ ip ∈ podIps := by
  rw [sortedPodIps, (perm_insertionSort _ _).mem_iff, mem_dedup]

lemma sortedPodIps_sortedPodIps (podIps : List PodIP) :
    sortedPodIps (sortedPodIps podIps) = sortedPodIps podIps := by
  have hsorted : (sortedPodIps podIps).Pairwise (· ≤ ·) := pairwise_insertionSort _ _
  rw [sortedPodIps, dedup_eq_self.mpr (nodup_sortedPodIps podIps), hsorted.insertionSort_eq]

lemma numberFrom_spec (h : NumbersBy m l) (hnodup : (l ++ ips).Nodup) (hl : l.length ≤ 1000) :
    if l.length + ips.length ≤ 1000 then
      ∃ m', numberFrom l.length ips m = some m' ∧ NumbersBy m' (l ++ ips)
    else numberFrom l.length ips m = none := by
  induction ips generalizing l m with
  | nil => simpa [numberFrom, hl] using h
  | cons ip ips ih =>
    have hip : ip ∉ l := fun hmem => (nodup_append.mp hnodup).2.2 ip hmem ip mem_cons_self rfl
    rw [append_cons] at hnodup ⊢
    rcases Nat.lt_or_ge l.length 1000 with hlt | hge
    · obtain ⟨id, hid⟩ := exists_formatGeneralpodid hlt
      have := ih (h.insert hip hid) hnodup (by simp; omega)
      simpa [numberFrom, hid, Nat.add_assoc, Nat.add_comm 1] using this
    · rw [if_neg (by simp; omega), numberFrom, formatGeneralpodid_eq_none.mpr hge]

/-- **The numbering of a file** is the sorted order of its IPs. -/
lemma createPodIpToGeneralpodidMapping_spec (podIps : List PodIP) :
    if (sortedPodIps podIps).length ≤ 1000 then
      ∃ m, createPodIpToGeneralpodidMapping podIps = some m ∧ NumbersBy m (sortedPodIps podIps)
    else createPodIpToGeneralpodidMapping podIps = none := by
  have hnodup : ([] ++ sortedPodIps podIps).Nodup := nodup_sortedPodIps podIps
  simpa [createPodIpToGeneralpodidMapping] using numberFrom_spec numbersBy_empty hnodup (by simp)

/-! ### The registry -/

namespace PodRegistry

variable {reg : PodRegistry}

def order (reg : PodRegistry) : List PodIP := reg.podIpToGeneralpodid.keys.reverse

lemma mem_order : ip ∈ reg.order ↔ ip ∈ reg.podIpToGeneralpodid := by
  rw [order, mem_reverse, AList.mem_keys]

lemma nodup_order (reg : PodRegistry) : reg.order.Nodup :=
  nodup_reverse.mpr reg.podIpToGeneralpodid.keys_nodup

lemma length_order (reg : PodRegistry) :
    reg.order.length = reg.podIpToGeneralpodid.keys.length := length_reverse

lemma order_add (hip : ip ∉ reg.podIpToGeneralpodid) (id : GeneralPodId) (gpuModel : GpuModel) :
    (reg.add ip id gpuModel).order = reg.order ++ [ip] := by
  rw [order, add, AList.keys, AList.entries_insert_of_notMem hip, keys_cons, reverse_cons]
  rfl

/-- The registry names the IPs by the order of their registration. -/
structure Numbered (reg : PodRegistry) : Prop where
  numbers : NumbersBy reg.podIpToGeneralpodid reg.order
  length_le : reg.order.length ≤ 1000

/-- The IPs that are registered after a call with some IPs, if there is no other limit than the
number of names. -/
def orderWith (reg : PodRegistry) (podIps : List PodIP) : List PodIP :=
  (reg.order ++ (sortedPodIps podIps).filter (· ∉ reg.order)).take 1000

lemma Numbered.add (h : reg.Numbered) (hip : ip ∉ reg.podIpToGeneralpodid)
    (hid : formatGeneralpodid reg.order.length = some id) (gpuModel : GpuModel) :
    (reg.add ip id gpuModel).Numbered ∧ (reg.add ip id gpuModel).order = reg.order ++ [ip] := by
  have hip' : ip ∉ reg.order := fun hmem => hip (mem_order.mp hmem)
  have horder := order_add hip id gpuModel
  have hlt : reg.order.length < 1000 := by
    by_contra hge
    rw [formatGeneralpodid_eq_none.mpr (by omega)] at hid
    simp at hid
  refine ⟨⟨?_, ?_⟩, horder⟩
  · rw [horder]
    exact h.numbers.insert hip' hid
  · rw [horder, length_append, length_singleton]
    omega

lemma filter_notMem_add {reg' : PodRegistry} (horder : reg'.order = reg.order ++ [ip])
    (hip : ip ∉ ips) : ips.filter (· ∉ reg'.order) = ips.filter (· ∉ reg.order) := by
  refine filter_congr fun x hx => ?_
  have hne : x ≠ ip := fun heq => hip (heq ▸ hx)
  simp [horder, hne]

lemma Numbered.registerLoop (h : reg.Numbered) (gpuMap : GpuMap) (fallback : GpuModel)
    (hnodup : ips.Nodup) :
    let order := reg.order ++ ips.filter (· ∉ reg.order)
    (registerLoop gpuMap fallback ips reg).1.Numbered ∧
      (registerLoop gpuMap fallback ips reg).1.order = order.take 1000 ∧
      ((registerLoop gpuMap fallback ips reg).2 = true ↔ order.length ≤ 1000) := by
  induction ips generalizing reg with
  | nil =>
    refine ⟨h, ?_, iff_of_true rfl (by simpa using h.length_le)⟩
    rw [filter_nil, append_nil, take_of_length_le h.length_le]
    rfl
  | cons ip ips ih =>
    rw [nodup_cons] at hnodup
    unfold PodRegistry.registerLoop registerPodIp
    by_cases hip : ip ∈ reg.podIpToGeneralpodid
    · simpa [hip, mem_order.mpr hip] using ih h hnodup.2
    · have hip' : ip ∉ reg.order := fun hmem => hip (mem_order.mp hmem)
      rw [if_neg hip, ← length_order, filter_cons_of_pos (by simpa using hip')]
      rcases Nat.lt_or_ge reg.order.length 1000 with hlt | hge
      · obtain ⟨id, hid⟩ := exists_formatGeneralpodid hlt
        obtain ⟨h', horder⟩ := h.add hip hid (resolveGpuModel ip gpuMap fallback)
        rw [hid]
        have hloop := ih h' hnodup.2
        rwa [filter_notMem_add horder hnodup.1, horder, append_assoc, singleton_append]
          at hloop
      · rw [formatGeneralpodid_eq_none.mpr hge, Option.map_none]
        refine ⟨h, ?_, iff_of_false (by simp) (by simp; omega)⟩
        rw [take_append_of_le_length hge, take_of_length_le h.length_le]

section

variable (h : reg.Numbered) (podIps : List PodIP) (gpuMap : GpuMap) (fallback : GpuModel)

lemma hyperparameters_registerLoop (reg : PodRegistry) (ips : List PodIP) :
    (registerLoop gpuMap fallback ips reg).1.hyperparameters = reg.hyperparameters := by
  induction ips generalizing reg with
  | nil => rfl
  | cons ip ips ih =>
    unfold registerLoop
    cases hreg : reg.registerPodIp gpuMap fallback ip with
    | none => rfl
    | some reg' =>
      refine (ih reg').trans ?_
      unfold registerPodIp at hreg
      split at hreg
      · rw [Option.some.inj hreg]
      · obtain ⟨newId, -, rfl⟩ := Option.map_eq_some_iff.mp hreg
        rfl

/-- **A call** is its loop, and publishes the names behind it if there is a new one. -/
lemma registerPodIps_eq : reg.registerPodIps podIps gpuMap fallback =
    let loop := registerLoop gpuMap fallback (sortedPodIps podIps) reg
    ({ loop.1 with hyperparameters :=
        if loop.2 = true ∧
          loop.1.podIpToGeneralpodid.keys.length ≠ reg.podIpToGeneralpodid.keys.length
        then loop.1.refreshHyperparameterViews else reg.hyperparameters }, loop.2) := by
  have hkeep := hyperparameters_registerLoop gpuMap fallback reg (sortedPodIps podIps)
  unfold registerPodIps
  cases hloop : registerLoop gpuMap fallback (sortedPodIps podIps) reg with
  | mk reg' done =>
    rw [hloop] at hkeep
    rw [← hkeep]
    cases done with
    | false => simp
    | true =>
      dsimp only
      split <;> rename_i hlen <;> simp [hlen]

include h

/-- **The numbering of the registry** is the order of registration, in which the new IPs of a call
are sorted. -/
lemma Numbered.registerPodIps : (reg.registerPodIps podIps gpuMap fallback).1.Numbered ∧
      (reg.registerPodIps podIps gpuMap fallback).1.order = reg.orderWith podIps := by
  obtain ⟨hnum, horder, -⟩ := h.registerLoop gpuMap fallback (nodup_sortedPodIps podIps)
  rw [registerPodIps_eq]
  exact ⟨⟨hnum.numbers, hnum.length_le⟩, horder⟩

lemma Numbered.registerPodIps_done : (reg.registerPodIps podIps gpuMap fallback).2 = true ↔
      (reg.order ++ (sortedPodIps podIps).filter (· ∉ reg.order)).length ≤ 1000 := by
  rw [registerPodIps_eq]
  exact (h.registerLoop gpuMap fallback (nodup_sortedPodIps podIps)).2.2

lemma Numbered.lookup_of_done (hdone : (reg.registerPodIps podIps gpuMap fallback).2 = true)
    (hip : ip ∈ podIps) :
    ∃ id, (reg.registerPodIps podIps gpuMap fallback).1.podIpToGeneralpodid.lookup ip = some id := by
  obtain ⟨hnum, horder⟩ := h.registerPodIps podIps gpuMap fallback
  refine hnum.numbers.exists_lookup hnum.length_le ?_
  rw [horder, orderWith,
    take_of_length_le ((h.registerPodIps_done podIps gpuMap fallback).mp hdone)]
  by_cases hold : ip ∈ reg.order
  · exact mem_append_left _ hold
  · exact mem_append_right _ (mem_filter.mpr ⟨mem_sortedPodIps.mpr hip, by simpa using hold⟩)

end

lemma orderWith_nil (h : reg.Numbered) : reg.orderWith [] = reg.order := by
  have hnil : sortedPodIps [] = [] := rfl
  rw [orderWith, hnil, filter_nil, append_nil, take_of_length_le h.length_le]

lemma order_prefix_orderWith (h : reg.Numbered) (podIps : List PodIP) :
    reg.order <+: reg.orderWith podIps := by
  rw [orderWith, take_append, take_of_length_le h.length_le]
  exact prefix_append _ _

/-! ### The published entries -/

lemma lookup_fromItems {κ ν : Type} [DecidableEq κ] {es : List (κ × ν)}
    (hnodup : (es.map Prod.fst).Nodup) {k : κ} {v : ν} :
    (fromItems es).lookup k = some v ↔ (k, v) ∈ es := by
  induction es using List.reverseRecOn with
  | nil => simp [fromItems]
  | append_singleton es e ih =>
    rw [map_append, nodup_append] at hnodup
    have hlast : fromItems (es ++ [e]) = (fromItems es).insert e.1 e.2 := by
      rw [fromItems, foldl_append]
      rfl
    rw [hlast, mem_append, List.mem_singleton]
    by_cases hk : k = e.1
    · subst hk
      have hnew : (e.1, v) ∉ es := fun hmem =>
        hnodup.2.2 e.1 (mem_map.mpr ⟨_, hmem, rfl⟩) e.1 (by simp) rfl
      rw [AList.lookup_insert, Option.some.injEq, or_iff_right hnew, eq_comm]
      exact ⟨fun h => by rw [h], fun h => congrArg Prod.snd h⟩
    · rw [AList.lookup_insert_ne hk, ih hnodup.1, or_iff_left]
      exact fun h => hk (congrArg Prod.fst h)

lemma Numbered.lookup_inj (h : reg.Numbered) {ip' : PodIP}
    (hip : reg.podIpToGeneralpodid.lookup ip = some id)
    (hip' : reg.podIpToGeneralpodid.lookup ip' = some id) : ip = ip' := by
  obtain ⟨k, hk, hid⟩ := (h.numbers ip id).mp hip
  obtain ⟨k', hk', hid'⟩ := (h.numbers ip' id).mp hip'
  obtain rfl := formatGeneralpodid_inj hid hid'
  exact Option.some.inj (hk.symm.trans hk')

lemma Numbered.lookup_refresh (h : reg.Numbered) :
    reg.refreshHyperparameterViews.generalpodidToPodIp.lookup id = some ip ↔
      reg.podIpToGeneralpodid.lookup ip = some id := by
  have hmem : ∀ e : PodIP × GeneralPodId, e ∈ items reg.podIpToGeneralpodid ↔
      reg.podIpToGeneralpodid.lookup e.1 = some e.2 := by
    intro e
    rw [items, mem_map, ← Option.mem_def, AList.mem_lookup_iff]
    constructor
    · rintro ⟨x, hx, rfl⟩
      exact mem_reverse.mp hx
    · exact fun he => ⟨⟨e.1, e.2⟩, mem_reverse.mpr he, rfl⟩
  have hfst : (items reg.podIpToGeneralpodid).map Prod.fst = reg.order := by
    rw [items, map_map, order, AList.keys, List.keys, ← map_reverse]
    rfl
  have hnodup : (((items reg.podIpToGeneralpodid).map fun e => (e.2, e.1)).map Prod.fst).Nodup := by
    rw [map_map]
    refine (nodup_map_iff_inj_on (List.Nodup.of_map Prod.fst (hfst ▸ reg.nodup_order))).mpr ?_
    intro e he e' he' heq
    have hid : e.2 = e'.2 := heq
    exact Prod.ext (h.lookup_inj ((hmem e).mp he) (hid ▸ (hmem e').mp he')) hid
  show (fromItems _).lookup id = some ip ↔ _
  rw [lookup_fromItems hnodup, mem_map]
  constructor
  · rintro ⟨e, he, heq⟩
    obtain ⟨rfl, rfl⟩ := Prod.mk.inj heq
    exact (hmem e).mp he
  · exact fun hip => ⟨(ip, id), (hmem _).mpr hip, rfl⟩

def Sound (reg : PodRegistry) : Prop :=
  ∀ id ip, reg.hyperparameters.generalpodidToPodIp.lookup id = some ip →
    reg.podIpToGeneralpodid.lookup ip = some id

/-- **What a call publishes**: all names if there is a new IP, and nothing otherwise. -/
lemma Numbered.published (h : reg.Numbered) {podIps : List PodIP} {gpuMap : GpuMap}
    {fallback : GpuModel} (hdone : (reg.registerPodIps podIps gpuMap fallback).2 = true) :
    (reg.registerPodIps podIps gpuMap fallback).1.hyperparameters =
      if ∃ ip ∈ podIps, ip ∉ reg.order then
        (reg.registerPodIps podIps gpuMap fallback).1.refreshHyperparameterViews
      else reg.hyperparameters := by
  have horder := (h.registerLoop gpuMap fallback (nodup_sortedPodIps podIps)).2.1
  rw [take_of_length_le ((h.registerPodIps_done podIps gpuMap fallback).mp hdone)] at horder
  rw [registerPodIps_eq] at hdone ⊢
  refine if_congr ?_ rfl rfl
  rw [and_iff_right hdone, ← length_order, ← length_order, horder, length_append, ne_eq,
    Nat.add_eq_left, length_eq_zero_iff]
  simp [mem_sortedPodIps]

lemma Sound.registerPodIps (h : reg.Numbered) (hs : reg.Sound) (podIps : List PodIP)
    (gpuMap : GpuMap) (fallback : GpuModel) :
    (reg.registerPodIps podIps gpuMap fallback).1.Sound := by
  obtain ⟨hnum, horder⟩ := h.registerPodIps podIps gpuMap fallback
  have hpre := order_prefix_orderWith h podIps
  rw [← horder] at hpre
  intro id ip hlookup
  rw [registerPodIps_eq] at hlookup hnum hpre ⊢
  dsimp only at hlookup
  split at hlookup
  · exact hnum.lookup_refresh.mp hlookup
  · exact h.numbers.lookup_of_prefix hnum.numbers hpre (hs id ip hlookup)

def after (calls : List (List PodIP × GpuMap × GpuModel)) : PodRegistry :=
  calls.foldl (fun reg call => (reg.registerPodIps call.1 call.2.1 call.2.2).1) {}

lemma after_spec (calls : List (List PodIP × GpuMap × GpuModel)) :
    (after calls).Numbered ∧ (after calls).Sound := by
  induction calls using List.reverseRecOn with
  | nil => exact ⟨⟨numbersBy_empty, by decide⟩, fun id ip h => by simp [after] at h⟩
  | append_singleton calls call ih =>
    rw [after, foldl_append]
    exact ⟨(ih.1.registerPodIps _ _ _).1, ih.2.registerPodIps ih.1 _ _ _⟩

end PodRegistry
end Lodestar.Agent
