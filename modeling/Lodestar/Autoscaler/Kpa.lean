import Lodestar.Autoscaler.Context
import Lodestar.Lib.Run

/-!
# The KPA autoscaler

`KpaAutoscaler` of `pkg/controller/podautoscaler/scaler/kpa.go`, in exact arithmetic.  While the
load is over the panic threshold the autoscaler does not scale down: it keeps the largest count
of the panic.  With a scale-down delay that count is recorded in a window, and the largest count
in the window is returned.  The window may still hold counts from before the panic.  A target or
a rate of 0 divides to 0 here, where the source gets an infinity.
-/

namespace Lodestar.Autoscaler

open Lib List
open Indexer (Time)

/-! ### The autoscaler -/

structure ScaleResult where
  desiredPodCount : ℤ := 0
  excessBurstCapacity : ℤ := 0
  scaleValid : Bool := false
  deriving DecidableEq

/-- `KpaAutoscaler`; a panic time that is not set is `none`. -/
structure KpaAutoscaler where
  panicTime : Option Time
  maxPanicPods : ℤ
  delayWindow : Option (TimeWindow ℤ)
  scalingContext : KpaScalingContext

def newKpaAutoscaler (readyPodsCount : ℤ) (spec : KpaScalingContext) (now : Time) :
    Except String KpaAutoscaler :=
  if spec.scaleDownDelay < 0 then .error "ScaleDownDelay must be positive"
  else .ok
    { panicTime := if readyPodsCount > 1 then some now else none
      maxPanicPods := readyPodsCount
      delayWindow := if spec.scaleDownDelay > 0 then some (.new spec.scaleDownDelay second) else none
      scalingContext := spec }

namespace KpaScalingContext

variable (spec : KpaScalingContext) (originalReadyPodsCount : ℤ)

def readyPodsCount : ℚ := max 0 (originalReadyPodsCount : ℚ)

def podsFor (observedValue : ℚ) : ℤ := ⌈observedValue / spec.targetValue⌉

/-- The count that is wanted, within the rates of scaling and with the scale of activation. -/
def desiredPodCount (observedValue : ℚ) : ℤ :=
  let maxScaleUp : ℤ := max 1 ⌈spec.maxScaleUpRate * readyPodsCount originalReadyPodsCount⌉
  let maxScaleDown : ℤ := ⌊readyPodsCount originalReadyPodsCount / spec.maxScaleDownRate⌋
  let desired := min (max (spec.podsFor observedValue) maxScaleDown) maxScaleUp
  if spec.activationScale > 1 ∧ spec.activationScale > desired ∧ desired > 0 then
    spec.activationScale
  else desired

/-- The pods that the panic window asks for are over the threshold. -/
def isOverPanicThreshold (observedPanicValue : ℚ) : Bool :=
  (spec.podsFor observedPanicValue : ℚ) / max 1 (readyPodsCount originalReadyPodsCount) ≥
    spec.panicThreshold

def excessBurstCapacity (observedPanicValue : ℚ) : ℤ :=
  if spec.targetBurstCapacity = 0 then 0
  else if spec.targetBurstCapacity > 0 then
    ⌊originalReadyPodsCount * spec.totalValue - spec.targetBurstCapacity - observedPanicValue⌋
  else -1

end KpaScalingContext

namespace KpaAutoscaler

variable (k : KpaAutoscaler)

def inPanicMode : Bool := k.panicTime.isSome

def updatePanic (isOverPanicThreshold : Bool) (now : Time) : KpaAutoscaler :=
  if isOverPanicThreshold then { k with panicTime := some now }
  else
    match k.panicTime with
    | none => k
    | some panicTime =>
      if panicTime + k.scalingContext.stableWindow < now then
        { k with panicTime := none, maxPanicPods := 0 }
      else k

/-- The count of the mode: in a panic it only increases. -/
def settle (desiredStablePodCount desiredPanicPodCount : ℤ) : KpaAutoscaler × ℤ :=
  if k.inPanicMode then
    let desiredPodCount := if desiredStablePodCount < desiredPanicPodCount then desiredPanicPodCount
      else desiredStablePodCount
    let maxPanicPods := if desiredPodCount > k.maxPanicPods then desiredPodCount else k.maxPanicPods
    ({ k with maxPanicPods := maxPanicPods }, maxPanicPods)
  else (k, desiredStablePodCount)

/-- The count is recorded, and the largest count in the delay window is taken. -/
def delay (desiredPodCount : ℤ) (now : Time) : KpaAutoscaler × Option ℤ :=
  match k.delayWindow with
  | none => (k, some desiredPodCount)
  | some w =>
    let w := w.record now desiredPodCount
    ({ k with delayWindow := some w }, w.max.map fun delayedPodCount =>
        if delayedPodCount ≠ desiredPodCount then delayedPodCount else desiredPodCount)

/-- `Scale`; `observed` has the values of the stable and of the panic window, if they are
available. -/
def scale (originalReadyPodsCount : ℤ) (observed : Option (ℚ × ℚ)) (now : Time) :
    KpaAutoscaler × ScaleResult :=
  match observed with
  | none => (k, {})
  | some (observedStableValue, observedPanicValue) =>
    let spec := k.scalingContext
    let k := k.updatePanic (spec.isOverPanicThreshold originalReadyPodsCount observedPanicValue) now
    let (k, desiredPodCount) := k.settle
      (spec.desiredPodCount originalReadyPodsCount observedStableValue)
      (spec.desiredPodCount originalReadyPodsCount observedPanicValue)
    match k.delay desiredPodCount now with
    | (k, none) => (k, {})
    | (k, some count) =>
      (k, ⟨count, spec.excessBurstCapacity originalReadyPodsCount observedPanicValue, true⟩)

end KpaAutoscaler

/-! ### Runs -/

/-- A call of `Scale` with available metrics. -/
structure ScaleCall where
  readyPodsCount : ℤ
  observedStableValue : ℚ
  observedPanicValue : ℚ
  now : Time

/-- The autoscaler in a run, with the count that the last call returned if it was made in
panic mode, and the time of that call. -/
structure Track where
  kpa : KpaAutoscaler
  shown : Option ℤ
  clock : Time

namespace Track

section

variable (σ : Track) (c : ScaleCall)

/-- What a call does to the autoscaler, and what it returns. -/
def call : KpaAutoscaler × ScaleResult :=
  σ.kpa.scale c.readyPodsCount (some (c.observedStableValue, c.observedPanicValue)) c.now

def step : Track where
  kpa := (σ.call c).1
  shown := if (σ.call c).1.inPanicMode then some (σ.call c).2.desiredPodCount else none
  clock := c.now

/-- If the call and the one before are made in the same panic, the count does not decrease. -/
def Rises : Prop :=
  ∀ n ∈ σ.shown, (σ.call c).1.inPanicMode = true → n ≤ (σ.call c).2.desiredPodCount

/-- The call is made in panic mode: its own metrics are over the threshold, or the panic has not
been over for long enough. -/
def Panics : Prop :=
  σ.kpa.scalingContext.isOverPanicThreshold c.readyPodsCount c.observedPanicValue = true ∨
    ∃ t ∈ σ.kpa.panicTime, c.now ≤ t + σ.kpa.scalingContext.stableWindow

/-- What the panic asks for at the call: the largest count of the panic so far, or what the
metrics of the call ask for. -/
def demand : ℤ :=
  max σ.kpa.maxPanicPods
    (max (σ.kpa.scalingContext.desiredPodCount c.readyPodsCount c.observedStableValue)
      (σ.kpa.scalingContext.desiredPodCount c.readyPodsCount c.observedPanicValue))

/-- Every count that leaves the delay window at the call is made up for: by the demand of the
panic, or by a count that stays. -/
def Covered : Prop :=
  ∀ w ∈ σ.kpa.delayWindow, ∀ old ∈ w.window.toList, w.window.Passed (w.index c.now) old →
    old.value ≤ σ.demand c ∨ ∃ e ∈ w.window.staying (w.index c.now), old.value ≤ e.value

/-- The call is not in the panic of the call before, or what leaves the delay window is made
up for. -/
def Sustains : Prop :=
  σ.shown.isSome = true → σ.Panics c → σ.Covered c

end
end Track

def KpaAutoscaler.start (k : KpaAutoscaler) (now : Time) : Track := ⟨k, none, now⟩

/-! ### One call -/

namespace KpaAutoscaler

variable {k : KpaAutoscaler}

@[simp] lemma updatePanic_delayWindow (isOver : Bool) (now : Time) :
    (k.updatePanic isOver now).delayWindow = k.delayWindow := by
  unfold updatePanic
  split
  · rfl
  · split
    · rfl
    · split <;> rfl

lemma inPanicMode_updatePanic (isOver : Bool) (now : Time) :
    (k.updatePanic isOver now).inPanicMode = true ↔
      isOver = true ∨ ∃ t ∈ k.panicTime, now ≤ t + k.scalingContext.stableWindow := by
  unfold updatePanic inPanicMode
  cases isOver with
  | true => simp
  | false =>
    cases hp : k.panicTime with
    | none => simp [hp]
    | some t =>
      by_cases hlt : t + k.scalingContext.stableWindow < now
      · simp [hlt]
      · simp [hlt, hp, not_lt.mp hlt]

lemma maxPanicPods_updatePanic {isOver : Bool} {now : Time}
    (h : (k.updatePanic isOver now).inPanicMode = true) :
    (k.updatePanic isOver now).maxPanicPods = k.maxPanicPods := by
  revert h
  unfold updatePanic
  split
  · exact fun _ => rfl
  · split
    · exact fun _ => rfl
    · split
      · intro h
        exact absurd h (by simp [inPanicMode])
      · exact fun _ => rfl

lemma settle_panic (h : k.inPanicMode = true) (stable panic : ℤ) :
    k.settle stable panic = ({ k with maxPanicPods := max k.maxPanicPods (max stable panic) },
      max k.maxPanicPods (max stable panic)) := by
  have hmax (a b : ℤ) : (if a < b then b else a) = max a b := by
    split <;> omega
  unfold settle
  simp only [h, if_true, hmax]

@[simp] lemma settle_delayWindow (stable panic : ℤ) :
    (k.settle stable panic).1.delayWindow = k.delayWindow := by
  unfold settle
  split <;> rfl

@[simp] lemma settle_panicTime (stable panic : ℤ) :
    (k.settle stable panic).1.panicTime = k.panicTime := by
  unfold settle
  split <;> rfl

end KpaAutoscaler

namespace Track

structure Inv (σ : Track) : Prop where
  granularity : ∀ w ∈ σ.kpa.delayWindow, w.granularity = second
  size_pos : ∀ w ∈ σ.kpa.delayWindow, 0 < w.window.size
  ordered : ∀ w ∈ σ.kpa.delayWindow, w.window.Ordered (w.index σ.clock)
  shown : ∀ n ∈ σ.shown, σ.kpa.delayWindow.elim (n = σ.kpa.maxPanicPods) fun w => w.max = some n

variable {σ : Track} {c : ScaleCall}

lemma index_le {w : TimeWindow ℤ} (hg : w.granularity = second) {t t' : Time} (h : t ≤ t') :
    w.index t ≤ w.index t' := by
  have hindex (t : Time) : w.index t = t / second := by
    rw [TimeWindow.index, hg]
    exact Int.tdiv_one _
  rw [hindex, hindex]
  exact Int.ediv_le_ediv (by decide) h

/-- **One call**: a count `d` is recorded, in a panic the demand of the panic; returned is `d`,
or the largest count in the delay window. -/
lemma call_spec (h : σ.Inv) (c : ScaleCall) : ∃ d,
    (σ.call c).1.delayWindow = σ.kpa.delayWindow.map (·.record c.now d) ∧
    σ.kpa.delayWindow.elim ((σ.call c).2.desiredPodCount = d)
      (fun w => (w.record c.now d).max = some (σ.call c).2.desiredPodCount) ∧
    ((σ.call c).1.inPanicMode = true ↔ σ.Panics c) ∧
    (σ.Panics c → d = σ.demand c ∧ (σ.call c).1.maxPanicPods = d) := by
  let spec := σ.kpa.scalingContext
  let stable := spec.desiredPodCount c.readyPodsCount c.observedStableValue
  let panic := spec.desiredPodCount c.readyPodsCount c.observedPanicValue
  let k₁ := σ.kpa.updatePanic (spec.isOverPanicThreshold c.readyPodsCount c.observedPanicValue) c.now
  let k₂ := k₁.settle stable panic
  have hpanics : k₁.inPanicMode = true ↔ σ.Panics c := KpaAutoscaler.inPanicMode_updatePanic _ _
  have hmode : k₂.1.inPanicMode = k₁.inPanicMode := by
    rw [KpaAutoscaler.inPanicMode, KpaAutoscaler.settle_panicTime, KpaAutoscaler.inPanicMode]
  have hsettle : σ.Panics c → k₂.2 = σ.demand c ∧ k₂.1.maxPanicPods = k₂.2 := by
    intro hp
    have hk₁ := hpanics.mpr hp
    have hmax := KpaAutoscaler.maxPanicPods_updatePanic hk₁
    have hk₂ : k₂ = _ := KpaAutoscaler.settle_panic hk₁ stable panic
    rw [hk₂]
    refine ⟨?_, rfl⟩
    show max k₁.maxPanicPods (max stable panic) = σ.demand c
    rw [show k₁.maxPanicPods = σ.kpa.maxPanicPods from hmax]
    rfl
  have hwindow : k₂.1.delayWindow = σ.kpa.delayWindow := by
    rw [KpaAutoscaler.settle_delayWindow, KpaAutoscaler.updatePanic_delayWindow]
  have hcall : σ.call c = match k₂.1.delay k₂.2 c.now with
      | (k, none) => (k, {})
      | (k, some count) =>
        (k, ⟨count, spec.excessBurstCapacity c.readyPodsCount c.observedPanicValue, true⟩) := rfl
  refine ⟨k₂.2, ?_⟩
  cases hw : σ.kpa.delayWindow with
  | none =>
    have hdelay : k₂.1.delay k₂.2 c.now = (k₂.1, some k₂.2) := by
      rw [KpaAutoscaler.delay, hwindow, hw]
    rw [hdelay] at hcall
    rw [hcall]
    refine ⟨?_, rfl, by rw [hmode]; exact hpanics, hsettle⟩
    rw [hwindow, hw]
    rfl
  | some w =>
    have hmem : w ∈ σ.kpa.delayWindow := hw
    obtain ⟨m, hm⟩ : ∃ m, (w.record c.now k₂.2).max = some m :=
      Window.exists_max (Window.record_toList_ne_nil (h.size_pos w hmem) _ _)
    have hdelay : k₂.1.delay k₂.2 c.now =
        ({ k₂.1 with delayWindow := some (w.record c.now k₂.2) }, some m) := by
      rw [KpaAutoscaler.delay, hwindow, hw]
      dsimp only
      rw [hm]
      by_cases hne : m ≠ k₂.2
      · simp [hne]
      · simp [not_not.mp hne]
    rw [hdelay] at hcall
    rw [hcall]
    exact ⟨rfl, hm, by rw [← hpanics, ← hmode]; rfl, hsettle⟩

lemma Inv.step (h : σ.Inv) (hclock : σ.clock ≤ c.now) : (σ.step c).Inv := by
  obtain ⟨d, hwindow, hresult, hmode, hpanic⟩ := call_spec h c
  have hkpa : (σ.step c).kpa = (σ.call c).1 := rfl
  have hnew : ∀ w' ∈ (σ.step c).kpa.delayWindow,
      ∃ w ∈ σ.kpa.delayWindow, w' = w.record c.now d := by
    intro w' hw'
    rw [hkpa, hwindow, Option.mem_map] at hw'
    obtain ⟨w, hw, rfl⟩ := hw'
    exact ⟨w, hw, rfl⟩
  refine ⟨fun w' hw' => ?_, fun w' hw' => ?_, fun w' hw' => ?_, fun n hn => ?_⟩
  · obtain ⟨w, hw, rfl⟩ := hnew w' hw'
    exact h.granularity w hw
  · obtain ⟨w, hw, rfl⟩ := hnew w' hw'
    exact (Window.size_record d _).symm ▸ h.size_pos w hw
  · obtain ⟨w, hw, rfl⟩ := hnew w' hw'
    exact (h.ordered w hw).record (index_le (h.granularity w hw) hclock) d
  · have hshown : (if (σ.call c).1.inPanicMode then some (σ.call c).2.desiredPodCount else none) =
        some n := hn
    split at hshown
    · rename_i hp
      obtain rfl := Option.some.inj hshown
      rw [hkpa, hwindow, (hpanic (hmode.mp hp)).2]
      revert hresult
      cases σ.kpa.delayWindow with
      | none | some => exact id
    · simp at hshown

/-- **When the count does not decrease**: exactly if what leaves the delay window is made up
for. -/
lemma rises_iff (h : σ.Inv) : σ.Rises c ↔ σ.Sustains c := by
  obtain ⟨d, hwindow, hresult, hmode, hpanic⟩ := call_spec h c
  unfold Rises Sustains
  cases hs : σ.shown with
  | none => simp
  | some n =>
    have hn := h.shown n hs
    simp only [Option.mem_some, forall_eq', Option.isSome_some, forall_const, hmode]
    refine forall_congr' fun hp => ?_
    obtain ⟨hd, -⟩ := hpanic hp
    unfold Covered
    cases hw : σ.kpa.delayWindow with
    | none =>
      rw [hw] at hn hresult
      have hle : n ≤ (σ.call c).2.desiredPodCount := by
        rw [show n = σ.kpa.maxPanicPods from hn,
          show (σ.call c).2.desiredPodCount = d from hresult, hd]
        exact le_max_left _ _
      simp [hle]
    | some w =>
      rw [hw] at hn hresult
      have hmem : w ∈ σ.kpa.delayWindow := hw
      obtain ⟨⟨top, htop, rfl⟩, hall⟩ := Window.max_eq_some_iff.mp hn
      obtain ⟨⟨top', htop', heq⟩, hall'⟩ := Window.max_eq_some_iff.mp hresult
      have hlist : (w.record c.now d).window.toList = _ :=
        Window.record_toList (h.ordered w hmem) d (w.index c.now)
      rw [hlist] at htop' hall'
      simp only [Option.mem_some, forall_eq']
      rw [← heq, ← hd]
      constructor
      · intro hle old hold _
        have hold' : old.value ≤ top'.value := (hall old hold).trans hle
        rcases mem_append.mp htop' with hstay | hnew
        · exact Or.inr ⟨top', hstay, hold'⟩
        · split at hnew
          · rw [List.mem_singleton.mp hnew] at hold'
            exact Or.inl hold'
          · exact absurd hnew not_mem_nil
      · intro hcov
        have hstaying : ∀ e ∈ w.window.staying (w.index c.now), e.value ≤ top'.value := fun e he => by
          rw [heq]
          exact hall' e (mem_append_left _ he)
        by_cases hpassed : w.window.Passed (w.index c.now) top
        · -- the largest count leaves, so there is room for the new one
          have hnew : d ≤ top'.value := by
            rw [heq]
            refine hall' ⟨d, w.index c.now⟩ (mem_append_right _ ?_)
            rw [if_pos (Window.length_staying_lt htop hpassed)]
            exact mem_singleton_self _
          rcases hcov top htop hpassed with hle | ⟨e, he, hle⟩
          · exact hle.trans hnew
          · exact hle.trans (hstaying e he)
        · exact hstaying top (Window.mem_staying.mpr ⟨htop, hpassed⟩)

lemma sustains_of_delayWindow (h : σ.kpa.delayWindow = none) : σ.Sustains c := by
  intro _ _ w hw
  rw [h] at hw
  exact absurd hw (by simp)

end Track

/-! ### Whole runs -/

variable {readyPodsCount : ℤ} {spec : KpaScalingContext} {now : Time} {k : KpaAutoscaler}

lemma inv_start (h : newKpaAutoscaler readyPodsCount spec now = .ok k) : (k.start now).Inv := by
  unfold newKpaAutoscaler at h
  split at h
  · simp at h
  · obtain rfl := Except.ok.inj h
    have hnew : ∀ w ∈ (if spec.scaleDownDelay > 0 then
        some (TimeWindow.new (α := ℤ) spec.scaleDownDelay second) else none),
        spec.scaleDownDelay > 0 ∧ w = .new spec.scaleDownDelay second := by
      intro w hw
      split at hw
      · rename_i hpos
        exact ⟨hpos, (Option.some.inj hw).symm⟩
      · simp at hw
    refine ⟨fun w hw => ?_, fun w hw => ?_, fun w hw => ?_, fun n hn => ?_⟩
    · obtain ⟨-, rfl⟩ := hnew w hw
      rfl
    · obtain ⟨hpos, rfl⟩ := hnew w hw
      have hceil : 0 < ⌈(spec.scaleDownDelay : ℚ) / second⌉ := by
        refine Int.ceil_pos.mpr (div_pos ?_ (by norm_num [second]))
        exact_mod_cast hpos
      rw [show (TimeWindow.new spec.scaleDownDelay second).window.size = _ from Window.size_new _]
      omega
    · obtain ⟨-, rfl⟩ := hnew w hw
      exact Window.ordered_new _ _
    · exact absurd hn (by simp [KpaAutoscaler.start])

lemma delayWindow_new (h : newKpaAutoscaler readyPodsCount spec now = .ok k)
    (hdelay : spec.scaleDownDelay = 0) : k.delayWindow = none := by
  unfold newKpaAutoscaler at h
  rw [if_neg (by rw [hdelay]; exact lt_irrefl 0)] at h
  obtain rfl := Except.ok.inj h
  exact if_neg (by rw [hdelay]; exact lt_irrefl 0)

lemma along_clock {σ : Track} {calls : List ScaleCall}
    (h : List.IsChain (· ≤ ·) (σ.clock :: calls.map ScaleCall.now)) :
    Along Track.step (fun σ c => σ.clock ≤ c.now) σ calls := by
  induction calls generalizing σ with
  | nil => trivial
  | cons c calls ih =>
    rw [map_cons, isChain_cons_cons] at h
    exact ⟨h.1, ih h.2⟩

/-- **The counts of a panic never decrease** exactly if, at every call of a panic but the first,
each count that leaves the delay window is at most one that stays, the largest of the panic so
far, or what the metrics of the call ask for.  Without a scale-down delay there is none. -/
theorem panic_counts_rise_iff (h : newKpaAutoscaler readyPodsCount spec now = .ok k)
    {calls : List ScaleCall} (htimes : List.IsChain (· ≤ ·) (now :: calls.map ScaleCall.now)) :
    (Along Track.step Track.Rises (k.start now) calls ↔
      Along Track.step Track.Sustains (k.start now) calls) ∧
    (spec.scaleDownDelay = 0 → Along Track.step Track.Rises (k.start now) calls) := by
  have hclock : Along Track.step (fun σ c => σ.clock ≤ c.now) (k.start now) calls := along_clock htimes
  have hinv := inv_start h
  have hiff : Along Track.step Track.Rises (k.start now) calls ↔
      Along Track.step Track.Sustains (k.start now) calls := by
    constructor
    · intro hrises
      exact (hclock.and hrises).imp_of_invariant hinv (fun σ c hσ hc => hσ.step hc.1)
        fun σ c hσ hc => (Track.rises_iff hσ).mp hc.2
    · intro hsustains
      exact (hclock.and hsustains).imp_of_invariant hinv (fun σ c hσ hc => hσ.step hc.1)
        fun σ c hσ hc => (Track.rises_iff hσ).mpr hc.2
  refine ⟨hiff, fun hdelay => hiff.mpr ?_⟩
  have hnone : (k.start now).kpa.delayWindow = none := delayWindow_new h hdelay
  refine hclock.imp_of_invariant (I := fun σ => σ.Inv ∧ σ.kpa.delayWindow = none) ⟨hinv, hnone⟩
    (fun σ c hσ hc => ⟨hσ.1.step hc, ?_⟩) fun σ c hσ _ => Track.sustains_of_delayWindow hσ.2
  obtain ⟨d, hwindow, -⟩ := Track.call_spec hσ.1 c
  rw [hσ.2] at hwindow
  exact hwindow

/-- A pod for every unit of the metric, with a scale-down delay of two seconds. -/
def brisk : KpaScalingContext :=
  { targetValue := 1, scaleDownDelay := 2 * second }

/-- A count from before a panic leaves the delay window during it. -/
def lapse : List ScaleCall :=
  [⟨4, 4, 4, 0⟩, ⟨1, 2, 2, second⟩, ⟨1, 2, 2, 2 * second⟩]

/-- Four pods are returned by the first call of the panic, and two by the next. -/
theorem panic_count_drops : ∃ k, newKpaAutoscaler 1 brisk 0 = .ok k ∧
    List.IsChain (· ≤ ·) (0 :: lapse.map ScaleCall.now) ∧
    ((lapse.take 1).foldl Track.step (k.start 0)).shown = none ∧
    ((lapse.take 2).foldl Track.step (k.start 0)).shown = some 4 ∧
    (lapse.foldl Track.step (k.start 0)).shown = some 2 ∧
    ¬ Along Track.step Track.Rises (k.start 0) lapse := by
  refine ⟨_, rfl, by decide, by decide +kernel, by decide +kernel, by decide +kernel, ?_⟩
  rintro ⟨-, -, hrises, -⟩
  exact absurd (hrises 4 (by decide +kernel) (by decide +kernel)) (by decide +kernel)

/-- The same calls without a scale-down delay. -/
theorem panic_counts_rise_lapse :
    ∃ k, newKpaAutoscaler 1 { brisk with scaleDownDelay := 0 } 0 = .ok k ∧
    (lapse.foldl Track.step (k.start 0)).shown = some 2 ∧
    Along Track.step Track.Rises (k.start 0) lapse := by
  have hnew : newKpaAutoscaler 1 { brisk with scaleDownDelay := 0 } 0 = .ok _ := rfl
  exact ⟨_, hnew, by decide +kernel, (panic_counts_rise_iff hnew (by decide)).2 rfl⟩

end Lodestar.Autoscaler
