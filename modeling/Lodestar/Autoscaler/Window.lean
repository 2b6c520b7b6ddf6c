import Lodestar.Lib.RingBuffer
import Lodestar.Indexer.TreeNode

/-!
# Sliding windows

`window` and `TimeWindow` of `pkg/controller/podautoscaler/aggregation/window.go`: the recent
values of a series, each with the number of the interval in which it was recorded, in a ring
buffer with one place for each interval.
-/

namespace Lodestar.Autoscaler

open Lib List
open Indexer (Time)

structure Entry (α : Type*) where
  value : α
  index : ℤ
  deriving DecidableEq

instance {α : Type*} [Inhabited α] : Inhabited (Entry α) := ⟨⟨default, 0⟩⟩

abbrev Window (α : Type*) := RingBuffer (Entry α)

namespace Window

variable {α : Type*} [Inhabited α]

/-- `newWindow`. -/
def new (size : ℕ) : Window α := RingBuffer.empty size

/-- The entry is outside the window that ends with the interval `index`. -/
def Passed (w : Window α) (index : ℤ) (e : Entry α) : Prop := e.index ≤ index - w.size

instance (w : Window α) (index : ℤ) (e : Entry α) : Decidable (w.Passed index e) :=
  inferInstanceAs (Decidable (_ ≤ _))

def record (w : Window α) (value : α) (index : ℤ) : Window α :=
  (w.popWhile fun e => w.Passed index e).push ⟨value, index⟩

/-- `Max`; there is none without a value. -/
def max [LinearOrder α] (w : Window α) : Option α :=
  if w.length = 0 then none
  else some ((List.range' 1 (w.length - 1)).foldl
    (fun maxValue i => if (w.get i).value > maxValue then (w.get i).value else maxValue)
    (w.cells.getD w.first default).value)

/-- `Min`; there is none without a value. -/
def min [LinearOrder α] (w : Window α) : Option α :=
  if w.length = 0 then none
  else some ((List.range' 1 (w.length - 1)).foldl
    (fun minValue i => if (w.get i).value < minValue then (w.get i).value else minValue)
    (w.cells.getD w.first default).value)

/-- `Avg`; there is none without a value. -/
def avg [Field α] (w : Window α) : Option α :=
  if w.length = 0 then none
  else
    let counted := w.toList.filter fun e => e.index > (w.cells.getD w.first default).index - w.size
    if counted = [] then none else some ((counted.map Entry.value).sum / counted.length)

/-- The intervals of the entries do not decrease, and none is behind `index`. -/
structure Ordered (w : Window α) (index : ℤ) : Prop where
  pairwise : w.toList.Pairwise fun e e' => e.index ≤ e'.index
  le : ∀ e ∈ w.toList, e.index ≤ index

variable {w : Window α} {index : ℤ}

@[simp] lemma size_new (size : ℕ) : (new size : Window α).size = size := RingBuffer.size_empty size

@[simp] lemma size_record (value : α) (index : ℤ) : (w.record value index).size = w.size := by
  rw [record, RingBuffer.size_push, RingBuffer.size_popWhile]

lemma dropWhile_eq_filter {β : Type*} {p : β → Bool} {l : List β}
    (h : l.Pairwise fun a b => p b = true → p a = true) : l.dropWhile p = l.filter fun b => !p b := by
  induction l with
  | nil => rfl
  | cons a l ih =>
    obtain ⟨hhead, htail⟩ := pairwise_cons.mp h
    by_cases ha : p a = true
    · rw [dropWhile_cons_of_pos ha, ih htail, filter_cons_of_neg (by simp [ha])]
    · have hall : ∀ b ∈ l, (!p b) = true := fun b hb => by
        rw [Bool.not_eq_true', Bool.eq_false_iff]
        exact fun hpb => ha (hhead b hb hpb)
      rw [dropWhile_cons_of_neg ha, filter_cons_of_pos (by simp [ha]), filter_eq_self.mpr hall]

/-- The entries that stay when the interval `index` begins. -/
def staying (w : Window α) (index : ℤ) : List (Entry α) := w.toList.filter fun e => ¬ w.Passed index e

lemma record_toList (h : w.Ordered index) (value : α) (index' : ℤ) :
    (w.record value index').toList = w.staying index' ++
      if (w.staying index').length < w.size then [⟨value, index'⟩] else [] := by
  have hkept : (w.popWhile fun e => w.Passed index' e).toList = w.staying index' := by
    rw [RingBuffer.toList_popWhile, dropWhile_eq_filter, staying]
    · simp
    · refine h.pairwise.imp fun {a b} hab hb => ?_
      rw [decide_eq_true_iff, Passed] at hb ⊢
      omega
  rw [record, RingBuffer.toList_push, RingBuffer.size_popWhile, ← RingBuffer.length_toList, hkept]
  split <;> simp

lemma mem_staying {e : Entry α} : e ∈ w.staying index ↔ e ∈ w.toList ∧ ¬ w.Passed index e := by
  simp [staying]

lemma length_staying_lt {e : Entry α} (he : e ∈ w.toList) (hp : w.Passed index e) :
    (w.staying index).length < w.size := by
  have hlt : (w.staying index).length < w.toList.length :=
    length_filter_lt_length_iff_exists.mpr ⟨e, he, by simpa using hp⟩
  rw [RingBuffer.length_toList] at hlt
  exact hlt.trans_le w.length_le

lemma Ordered.record (h : w.Ordered index) {index' : ℤ} (hle : index ≤ index') (value : α) :
    (w.record value index').Ordered index' := by
  have hle' : ∀ e ∈ w.staying index', e.index ≤ index' := fun e he =>
    (h.le e (mem_staying.mp he).1).trans hle
  have hsort : (w.staying index').Pairwise fun e e' => e.index ≤ e'.index := h.pairwise.filter _
  refine ⟨?_, ?_⟩
  · rw [record_toList h]
    split
    · exact pairwise_append.mpr ⟨hsort, pairwise_singleton _ _, fun e he e' he' => by
        rw [List.mem_singleton.mp he']
        exact hle' e he⟩
    · rwa [append_nil]
  · intro e he
    rw [record_toList h] at he
    rcases mem_append.mp he with he | he
    · exact hle' e he
    · split at he
      · rw [List.mem_singleton.mp he]
      · exact absurd he not_mem_nil

lemma ordered_new (size : ℕ) (index : ℤ) : (new size : Window α).Ordered index :=
  ⟨List.Pairwise.nil, fun _ he => absurd he not_mem_nil⟩

lemma record_toList_ne_nil (hsize : 0 < w.size) (value : α) (index' : ℤ) :
    (w.record value index').toList ≠ [] := by
  intro hnil
  rw [record, RingBuffer.toList_push, RingBuffer.size_popWhile] at hnil
  split at hnil
  · exact absurd hnil (by simp)
  · rename_i hfull
    rw [← RingBuffer.length_toList, hnil] at hfull
    exact hfull hsize

/-- A loop over the values behind the first one. -/
lemma foldl_values (f : α → α → α) :
    (List.range' 1 (w.length - 1)).foldl (fun v i => f v (w.get i).value)
      (w.cells.getD w.first default).value =
    (w.toList.map Entry.value).tail.foldl f (w.cells.getD w.first default).value := by
  rw [RingBuffer.toList, range_eq_range', ← map_tail, ← map_tail, tail_range', map_map, foldl_map]
  rfl

section

variable [LinearOrder α]

/-- **The maximum** is that of the values in the window. -/
lemma max_eq : w.max = (w.toList.map Entry.value).max? := by
  unfold max
  split
  · rename_i hzero
    rw [eq_nil_of_length_eq_zero (RingBuffer.length_toList.trans hzero)]
    rfl
  · rename_i hzero
    simp only [gt_iff_lt, ← max_def_lt]
    rw [foldl_values Max.max, RingBuffer.toList_eq_cons (Nat.pos_of_ne_zero hzero), map_cons, tail_cons,
      max?_cons']

omit [Inhabited α] in
lemma ite_lt_eq_min (m v : α) : (if v < m then v else m) = Min.min m v := by
  rw [min_comm, min_def_lt]

/-- **The minimum** is that of the values in the window. -/
lemma min_eq : w.min = (w.toList.map Entry.value).min? := by
  unfold min
  split
  · rename_i hzero
    rw [eq_nil_of_length_eq_zero (RingBuffer.length_toList.trans hzero)]
    rfl
  · rename_i hzero
    simp only [ite_lt_eq_min]
    rw [foldl_values Min.min, RingBuffer.toList_eq_cons (Nat.pos_of_ne_zero hzero), map_cons, tail_cons,
      min?_cons']

lemma max_eq_some_iff {m : α} :
    w.max = some m ↔ (∃ e ∈ w.toList, e.value = m) ∧ ∀ e ∈ w.toList, e.value ≤ m := by
  rw [max_eq, max?_eq_some_iff]
  simp

lemma exists_max (h : w.toList ≠ []) : ∃ m, w.max = some m := by
  rw [max_eq]
  exact Option.isSome_iff_exists.mp (by simpa [isSome_max?_iff] using h)

end

/-! ### Whole histories -/

/-- **The average** is that of the values in the window. -/
lemma avg_eq [Field α] (h : w.Ordered index) : w.avg = if w.toList = [] then none
      else some ((w.toList.map Entry.value).sum / w.toList.length) := by
  unfold avg
  split
  · rename_i hzero
    rw [if_pos (eq_nil_of_length_eq_zero (RingBuffer.length_toList.trans hzero))]
  · rename_i hzero
    have hpos := Nat.pos_of_ne_zero hzero
    have hsize : 0 < w.size := hpos.trans_le w.length_le
    have hall : w.toList.filter (fun e => e.index > (w.cells.getD w.first default).index - w.size) =
        w.toList := by
      refine filter_eq_self.mpr fun e he => ?_
      have hsort := h.pairwise
      rw [RingBuffer.toList_eq_cons hpos] at hsort he
      have hle : (w.cells.getD w.first default).index ≤ e.index := by
        rcases mem_cons.mp he with rfl | he
        · exact le_rfl
        · exact (pairwise_cons.mp hsort).1 e he
      simp only [decide_eq_true_eq]
      omega
    rw [hall]

/-- The entries of the last `size` intervals, up to the latest one. -/
def recent (size : ℕ) (history : List (Entry α)) : List (Entry α) :=
  history.filter fun e => ∀ latest ∈ history.getLast?, latest.index - size < e.index

def recordAll (size : ℕ) (history : List (Entry α)) : Window α :=
  history.foldl (fun w e => w.record e.value e.index) (new size)

/-- Every value found room: the intervals of the window never had more values than the window has
places. -/
def Fits (size : ℕ) (history : List (Entry α)) : Prop :=
  ∀ past, past <+: history → (recent size past).length ≤ size

lemma recordAll_spec {size : ℕ} {history : List (Entry α)}
    (hsort : history.Pairwise fun e e' => e.index ≤ e'.index) (hfits : Fits size history) :
    (recordAll size history).size = size ∧
      (∀ latest ∈ history.getLast?, (recordAll size history).Ordered latest.index) ∧
      (recordAll size history).toList = recent size history := by
  induction history using reverseRecOn with
  | nil => exact ⟨size_new size, by simp, rfl⟩
  | append_singleton past e ih =>
    obtain ⟨hpast, -, hle⟩ := pairwise_append.mp hsort
    obtain ⟨hsize, hordered, hlist⟩ := ih hpast fun p hp => hfits p (hp.trans (prefix_append _ _))
    have hle : ∀ e' ∈ past, e'.index ≤ e.index := fun e' he' => hle e' he' e (mem_singleton_self e)
    have hordered : (recordAll size past).Ordered e.index := by
      rcases past.eq_nil_or_concat with rfl | ⟨init, last, rfl⟩
      · exact ordered_new size _
      · have hlast := hordered last (by simp)
        exact ⟨hlast.pairwise, fun e' he' => (hlast.le e' he').trans (hle last (by simp))⟩
    have hstay : (recordAll size past).staying e.index =
        past.filter fun e' => e.index - size < e'.index := by
      rw [staying, hlist, recent, filter_filter]
      refine filter_congr fun e' he' => ?_
      simp only [Passed, hsize, not_le, ← Bool.decide_and, decide_eq_decide, and_iff_left_iff_imp]
      intro hlt latest hlatest
      have := hle latest (mem_of_getLast? hlatest)
      omega
    have hrecent : recent size (past ++ [e]) =
        (recordAll size past).staying e.index ++ if 0 < size then [e] else [] := by
      simp [recent, hstay, filter_cons]
    have hroom := hfits _ (prefix_refl _)
    have hnext : recordAll size (past ++ [e]) = (recordAll size past).record e.value e.index := by
      simp [recordAll]
    rw [hrecent] at hroom ⊢
    rw [hnext, size_record, record_toList hordered, hsize]
    refine ⟨rfl, ?_, congrArg _ (if_congr ?_ rfl rfl)⟩
    · simpa using hordered.record le_rfl e.value
    · split at hroom
      · rw [length_append, length_singleton] at hroom
        omega
      · omega

/-- **The reports of the window** are about the values of the last intervals, as long as every value
finds room. -/
theorem reports_recent [Field α] [LinearOrder α] (size : ℕ) (history : List (Entry α))
    (hsort : history.Pairwise fun e e' => e.index ≤ e'.index) (hfits : Fits size history) :
    let w := recordAll size history
    let values := (recent size history).map Entry.value
    w.max = values.max? ∧ w.min = values.min? ∧
      w.avg = if values = [] then none else some (values.sum / values.length) := by
  intro w values
  obtain ⟨-, hordered, hlist⟩ := recordAll_spec hsort hfits
  refine ⟨max_eq.trans (by rw [hlist]), min_eq.trans (by rw [hlist]), ?_⟩
  rcases history.eq_nil_or_concat with rfl | ⟨past, e, rfl⟩
  · rfl
  · rw [avg_eq (hordered e (by simp)), hlist]
    simp [values]

theorem reports_recent_two : (recordAll 1 [⟨1, 0⟩, ⟨2, 1⟩] : Window ℚ).max = some 2 :=
  (reports_recent 1 [⟨1, 0⟩, ⟨2, 1⟩] (by simp) fun past h => by
    have hpast := (mem_inits _ _).mpr h
    simp only [inits, map_cons, map_nil, mem_cons, not_mem_nil, or_false] at hpast
    rcases hpast with rfl | rfl | rfl <;> simp [recent]).1

/-- Two values in one interval: the later one does not count. -/
theorem later_value_lost : (recordAll 1 [⟨1, 0⟩, ⟨2, 0⟩] : Window ℚ).max = some 1 ∧
      ((recent 1 [⟨1, 0⟩, ⟨2, 0⟩]).map Entry.value).max? = some (2 : ℚ) := by
  decide +kernel

end Window

/-! ### Windows of time -/

structure TimeWindow (α : Type*) where
  window : Window α
  granularity : Time

def second : Time := 1000000000

namespace TimeWindow

variable {α : Type*} [Inhabited α]

/-- `NewTimeWindow`. -/
def new (duration granularity : Time) : TimeWindow α :=
  ⟨Window.new ⌈(duration : ℚ) / granularity⌉.toNat, granularity⟩

def index (t : TimeWindow α) (now : Time) : ℤ := (now / second).tdiv (t.granularity.tdiv second)

def record (t : TimeWindow α) (now : Time) (value : α) : TimeWindow α :=
  { t with window := t.window.record value (t.index now) }

def max [LinearOrder α] (t : TimeWindow α) : Option α := t.window.max

end TimeWindow
end Lodestar.Autoscaler
