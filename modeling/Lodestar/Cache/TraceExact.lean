import Lodestar.Cache.TraceWindows

/-!
# Each call is counted in one window

What may go wrong when traces are written out is the link of a trace to its model: a call that holds
on to a trace over a write-out finds nil in its place, counts in a trace that no map has any more, or
in one that was given to another model.  `exact_iff_timely` says that nothing else goes wrong, in
whatever order the steps come.
-/

namespace Lodestar.Cache

open Lib List Function

namespace Tracing

variable {ι : Type*} {calls : ι → TraceCall} {bucketIndex : ℤ → ℤ} {σ σ' : Tracing ι}

/-! ### Windows -/

variable {model : String} {t : ℕ}

lemma Keeps.held (h : σ.Keeps model t) : ∃ p, p ≠ .pool ∧ σ.holds p t := by
  rcases h with ⟨n, -, hl⟩ | hhand
  · exact ⟨.entry n model, by simp, hl⟩
  · exact ⟨.writer, by simp, by simp [holds, Held, hhand]⟩

lemma Keeps.live (h : σ.Inv calls bucketIndex) (hk : σ.Keeps model t) :
    (σ.heap t).recycler = true := by
  obtain ⟨p, hp, hheld⟩ := hk.held
  exact (h.custody.live p t hheld).mpr hp

def HasWindow (σ : Tracing ι) (model : String) (use : ℕ) : Prop :=
  (∃ w ∈ σ.written, w.model = model ∧ w.use = use) ∨ ∃ t, σ.Keeps model t ∧ (σ.heap t).use = use

lemma hasWindow_iff {use : ℕ} :
    σ.HasWindow model use ↔ ∃ total bucket, σ.IsWindow model use total bucket := by
  constructor
  · rintro (⟨w, hw, rfl, rfl⟩ | ⟨t, ht, rfl⟩)
    · exact ⟨_, _, .written hw⟩
    · exact ⟨_, _, .kept ht⟩
  · rintro ⟨total, bucket, hwin⟩
    cases hwin with
    | written hw => exact .inl ⟨_, hw, rfl, rfl⟩
    | kept ht => exact .inr ⟨_, ht, rfl⟩

lemma HasWindow.keeps (h : σ.Inv calls bucketIndex) (ht : (σ.heap t).recycler = true)
    (hw : σ.HasWindow model (σ.heap t).use) : σ.Keeps model t := by
  rcases hw with ⟨w, hw, -, huse⟩ | ⟨u, hu, huse⟩
  · exact absurd huse.symm (h.uses.written_live w hw t ht)
  · rwa [← h.uses.live_inj u t (hu.live h) ht huse]

lemma HasWindow.mono {use : ℕ} (h : σ.HasWindow model use)
    (hkeeps : ∀ model t, σ.Keeps model t → σ'.Keeps model t ∧ (σ'.heap t).use = (σ.heap t).use)
    (hwritten : σ'.written = σ.written := by rfl) : σ'.HasWindow model use := by
  rcases h with ⟨w, hw, hmodel, huse⟩ | ⟨t, ht, huse⟩
  · exact .inl ⟨w, hwritten ▸ hw, hmodel, huse⟩
  · obtain ⟨ht', huse'⟩ := hkeeps model t ht
    exact .inr ⟨t, ht', huse'.trans huse⟩

lemma Exact.hasWindow (h : σ.Exact calls) {i : ι} {home : Option ℕ} (hi : σ.place i = .finished home)
    (hc : (calls i).counts = true) : ∃ use, home = some use ∧ σ.HasWindow (calls i).model use := by
  obtain ⟨use, total, bucket, rfl, hwin⟩ := h.counted i home hi hc
  exact ⟨use, rfl, hasWindow_iff.mpr ⟨total, bucket, hwin⟩⟩

lemma Exact.of_hasWindow (hpanicked : ∀ i, σ.place i ≠ .panicked)
    (hcounted : ∀ i home, σ.place i = .finished home → (calls i).counts = true →
      ∃ use, home = some use ∧ σ.HasWindow (calls i).model use) : σ.Exact calls where
  not_panicked := hpanicked
  counted i home hi hc := by
    obtain ⟨use, rfl, hwin⟩ := hcounted i home hi hc
    obtain ⟨total, bucket, hwin'⟩ := hasWindow_iff.mp hwin
    exact ⟨use, total, bucket, rfl, hwin'⟩

/-! ### Exactness, step by step -/

namespace Exact

lemma kept (h : σ.Exact calls)
    (hplace : ∀ j, σ'.place j = σ.place j ∨ σ'.place j ≠ .panicked ∧ ∀ home,
      σ'.place j = .finished home → (calls j).counts = true →
        ∃ use, home = some use ∧ σ'.HasWindow (calls j).model use)
    (hwin : ∀ model use, σ.HasWindow model use → σ'.HasWindow model use) : σ'.Exact calls := by
  refine .of_hasWindow (fun j => ?_) (fun j home hj hc => ?_)
  · rcases hplace j with heq | ⟨hne, -⟩
    · exact heq ▸ h.not_panicked j
    · exact hne
  · rcases hplace j with heq | ⟨-, hhome⟩
    · obtain ⟨use, rfl, hw⟩ := h.hasWindow (heq ▸ hj) hc
      exact ⟨use, rfl, hwin _ _ hw⟩
    · exact hhome home hj hc

lemma move [DecidableEq ι] (h : σ.Exact calls) {i : ι} {q : Place} (hq : q ≠ .panicked)
    (hq' : ∀ home, q = .finished home → (calls i).counts = true →
      ∃ use, home = some use ∧ σ'.HasWindow (calls i).model use)
    (hplace : σ'.place = update σ.place i q)
    (hkeeps : ∀ model t, σ.Keeps model t → σ'.Keeps model t ∧ (σ'.heap t).use = (σ.heap t).use)
    (hwritten : σ'.written = σ.written := by rfl) : σ'.Exact calls := by
  refine h.kept (fun j => ?_) fun _ _ hw => hw.mono hkeeps hwritten
  rw [hplace]
  by_cases hj : j = i
  · subst hj
    rw [update_self]
    exact .inr ⟨hq, hq'⟩
  · exact .inl (update_of_ne hj ..)

lemma moveWriter (h : σ.Exact calls) (hplace : σ'.place = σ.place)
    (hkeeps : ∀ model t, σ.Keeps model t → σ'.Keeps model t ∧ (σ'.heap t).use = (σ.heap t).use)
    (hwritten : σ'.written = σ.written := by rfl) : σ'.Exact calls :=
  h.kept (fun _ => .inl (by rw [hplace])) fun _ _ hw => hw.mono hkeeps hwritten

variable [DecidableEq ι]

lemma leave_iff (hinv : σ.Inv calls bucketIndex) (h : σ.Exact calls) {i : ι} {t : ℕ}
    (hp : σ.place i = .inside t) : Exact calls
      { σ with heap := update σ.heap t ((calls i).count (σ.traceKey i) (σ.heap t)).rUnlock
               place := update σ.place i (.finished (some (σ.heap t).use)) } ↔
      σ.Keeps (calls i).model t := by
  have hlive := hinv.locked.live i t hp
  obtain ⟨-, -, huse, -⟩ := (calls i).count_frame (σ.traceKey i) (σ.heap t)
  have hcounts := (hinv.keys.inside i t hp).1
  have hheap : ∀ u, (update σ.heap t ((calls i).count (σ.traceKey i) (σ.heap t)).rUnlock u).use =
      (σ.heap u).use := field_update RequestTrace.use huse
  constructor
  · intro h'
    obtain ⟨use, heq, hwin⟩ := h'.hasWindow (update_self ..) hcounts
    obtain rfl : (σ.heap t).use = use := Option.some.inj heq
    rcases hwin with hwritten | ⟨u, hu, hsame⟩
    · exact HasWindow.keeps hinv hlive (.inl hwritten)
    · exact HasWindow.keeps hinv hlive (.inr ⟨u, hu, (hheap u).symm.trans hsame⟩)
  · intro hkeeps
    refine h.move (by simp) (fun home heq _ => ?_) rfl fun _ u hu => ⟨hu, hheap u⟩
    exact ⟨(σ.heap t).use, (Place.finished.inj heq).symm, .inr ⟨t, hkeeps, hheap t⟩⟩

attribute [local simp] Writer.hand Writer.old opens
omit [DecidableEq ι] in
lemma endRange_iff (hinv : σ.Inv calls bucketIndex) (h : σ.Exact calls) {n : ℕ} {roundT : ℤ}
    {todo : List String} (hw : σ.writer = .ranging n roundT todo) :
    Exact calls { σ with writer := .idle } ↔
      ∀ model t, (σ.maps n).lookup model = some (some t) → (σ.heap t).Unused := by
  have hlt := hinv.bounded.old_lt n (by rw [hw]; rfl)
  have hlive : ∀ model t, (σ.maps n).lookup model = some (some t) → (σ.heap t).recycler = true :=
    fun model t hl => (hinv.custody.live (.entry n model) t hl).mpr (by simp)
  constructor
  · intro h' model t hl
    refine (hinv.tallied.live t (hlive model t hl)).unused fun i hi => ?_
    by_contra hcounts
    obtain ⟨use, heq, hwin⟩ := h'.hasWindow (i := i) hi (by simpa using hcounts)
    obtain rfl : (σ.heap t).use = use := Option.some.inj heq
    rcases hwin with ⟨w, hw', -, huse⟩ | ⟨u, ⟨m, hm, hlu⟩ | hhand, huse⟩
    · exact hinv.uses.written_live w hw' t (hlive model t hl) huse.symm
    · -- the window would be in the map in use, but the trace is in the old one
      obtain rfl : m = σ.current := by simpa using hm
      have hu := (hinv.custody.live (.entry σ.current (calls i).model) u hlu).mpr (by simp)
      obtain rfl := hinv.uses.live_inj u t hu (hlive model t hl) huse
      have hsame := hinv.custody.sole (.entry σ.current (calls i).model) (.entry n model) u hlu hl
      have hn : σ.current = n := (Spot.entry.inj hsame).1
      omega
    · simp at hhand
  · intro hunused
    refine .of_hasWindow h.not_panicked fun i home hi hc => ?_
    obtain ⟨use, rfl, hwin⟩ := h.hasWindow hi hc
    refine ⟨use, rfl, ?_⟩
    rcases hwin with hwritten | ⟨t, ⟨m, hm, hl⟩ | hhand, rfl⟩
    · exact .inl hwritten
    · have hm' : m = σ.current ∨ m = n := by simpa [hw] using hm
      rcases hm' with rfl | rfl
      · exact .inr ⟨t, .inl ⟨σ.current, by simp, hl⟩, rfl⟩
      · have hnone := hunused _ t hl
        have htally := hinv.tallied.live t (hlive _ t hl)
        rw [hnone.1] at htally
        rw [htally.not_counted hnone.bucket_eq hi] at hc
        simp at hc
    · simp [hw] at hhand

/-- **One step** keeps all calls counted if and only if it is a timely one. -/
lemma step_iff (hinv : σ.Inv calls bucketIndex) (h : σ.Exact calls) (e : TraceEvent ι) :
    (σ.step calls bucketIndex e).Exact calls ↔ σ.Timely calls e := by
  rcases step_cases calls bucketIndex σ e with ⟨heq, htimely⟩ | ha
  · rw [heq]
    exact ⟨fun _ => htimely, fun _ => h⟩
  generalize σ.step calls bucketIndex e = σ' at ha ⊢
  cases ha with
  | @newRequestTrace i pick now t hp ht =>
    refine iff_of_true (h.move (by simp) (by simp) rfl fun m u hu => ⟨hu, ?_⟩) trivial
    -- the new trace was in the pool, or nowhere
    have hut : u ≠ t := by
      rintro rfl
      obtain ⟨p, hpool, hheld⟩ := hu.held
      rcases ht with ht | rfl
      · exact hpool (hinv.custody.sole p .pool u hheld ht)
      · exact (hinv.custody.allocated p _ hheld).false
    dsimp only
    rw [update_of_ne hut]
  | load | found | increment =>
    exact iff_of_true (h.move (by simp) (by simp) rfl fun _ _ hu => ⟨hu, rfl⟩) trivial
  | @stored i t n hp hl =>
    refine iff_of_true (h.move (by simp) (by simp) rfl fun m u hu => ⟨?_, rfl⟩) trivial
    rcases hu with ⟨n', hn', hlu⟩ | hhand
    · refine .inl ⟨n', hn', ?_⟩
      rw [lookup_set, if_neg]
      · exact hlu
      · rintro ⟨rfl, rfl⟩
        rw [hl] at hlu
        simp at hlu
    · exact .inr hhand
  | @recycle i t newer hp hr =>
    refine iff_of_true (h.move (by simp) (by simp) rfl fun m u hu => ?_) trivial
    exact ⟨hu, field_update RequestTrace.use (x := (σ.heap t).recycleLocked) rfl u⟩
  | @absent i hp =>
    refine iff_of_false (fun h' => ?_) (by simp [Timely, hp])
    exact h'.not_panicked i (update_self ..)
  | retry hp hc hr =>
    exact iff_of_true (h.move (by simp) (by simp) rfl fun _ _ hu => ⟨hu, rfl⟩) (by simp [Timely, hp])
  | @enter i t hp hc hr =>
    refine iff_of_true (h.move (by simp) (by simp) rfl fun m u hu => ?_) (by simp [Timely, hp])
    exact ⟨hu, field_update RequestTrace.use (x := (σ.heap t).rLock) rfl u⟩
  | @done i t term hp hc =>
    obtain ⟨n, hn⟩ := (σ.heap t).doneRequestLocked_eq term
    refine iff_of_true (h.move (by simp) (by simp [hc]) rfl fun m u hu => ?_) (by simp [Timely, hp])
    exact ⟨hu, field_update RequestTrace.use (by rw [hn]) u⟩
  | @leave i t hp =>
    refine (leave_iff hinv h hp).trans ⟨fun hk u hu => ?_, fun hk => hk t hp⟩
    rw [hp] at hu
    rwa [← Place.inside.inj hu]
  | tick hw | again hw | range hw =>
    refine iff_of_true (h.moveWriter rfl fun m u hu => ⟨?_, rfl⟩) trivial
    simpa [Keeps, hw] using hu
  | swap hw =>
    refine iff_of_true (h.moveWriter rfl fun m u hu => ⟨?_, rfl⟩) trivial
    have hl : (σ.maps σ.current).lookup m = some (some u) := by
      simpa [Keeps, hw] using hu
    exact .inl ⟨σ.current, by simp, hl⟩
  | @visit n roundT todo model t hw hl =>
    refine iff_of_true (h.moveWriter rfl fun m u hu => ⟨?_, rfl⟩) trivial
    rcases hu with ⟨n', hn', hlu⟩ | hhand
    · by_cases hthis : n' = n ∧ m = model
      · obtain ⟨rfl, rfl⟩ := hthis
        rw [hl] at hlu
        right
        simpa using hlu
      · refine .inl ⟨n', by simpa [hw] using hn', ?_⟩
        rw [lookup_set, if_neg hthis]
        exact hlu
    · simp [hw] at hhand
  | @write n roundT pending todo model t hw hr =>
    refine iff_of_true (h.kept (fun _ => .inl rfl) fun model' use hwin => ?_) trivial
    rcases hwin with ⟨w, hw', hmodel, huse⟩ | ⟨u, ⟨n', hn', hlu⟩ | hhand, huse⟩
    · exact .inl ⟨w, mem_append_left _ hw', hmodel, huse⟩
    · refine .inr ⟨u, .inl ⟨n', by simpa [hw] using hn', hlu⟩, ?_⟩
      rw [← huse]
      exact field_update RequestTrace.use (x := (σ.heap t).recycleLocked) rfl u
    · have heq : model = model' ∧ t = u := by simpa [hw] using hhand
      obtain ⟨rfl, rfl⟩ := heq
      exact .inl ⟨_, mem_append_right _ (mem_singleton_self _), rfl, huse⟩
  | @endRange n roundT todo hw hv =>
    refine (endRange_iff hinv h hw).trans ⟨fun hu n' r' todo' hw' _ => ?_, fun hu => hu n _ _ hw hv⟩
    rw [hw] at hw'
    obtain ⟨rfl, -, -⟩ := Writer.ranging.inj hw'
    exact hu

omit [DecidableEq ι] in
lemma start (calls : ι → TraceCall) : (Tracing.start ι).Exact calls := by
  constructor <;> simp [Tracing.start]

end Exact

/-! ### Quiet write-outs -/

/-- The place of a call that has read the map and is not counted yet. -/
def Busy : Place → Prop
  | .outside | .made _ | .finished _ | .panicked => False
  | .loaded _ _ | .found _ _ | .stored _ | .has _ | .inside _ => True

/-- No call is between its read of the map and its count when the map is swapped. -/
def Quiet (σ : Tracing ι) : TraceEvent ι → Prop
  | .swap => ∀ i, ¬ Busy (σ.place i)
  | _ => True

def Current (σ : Tracing ι) (model : String) (t : ℕ) : Prop :=
  (σ.maps σ.current).lookup model = some (some t)

/-- A call that has read the map has the one in use, and its trace is there under its model. -/
def Placed (σ : Tracing ι) (model : String) : Place → Prop
  | .loaded _ n => n = σ.current
  | .found _ trace | .has trace => ∃ t, trace = some t ∧ σ.Current model t
  | .stored t | .inside t => σ.Current model t
  | .outside | .made _ | .finished _ | .panicked => True

def todo : Writer → Option (ℕ × List String)
  | .ranging n _ keys | .visiting n _ keys _ _ => some (n, keys)
  | _ => none

/-- What quiet write-outs leave: calls are at their places, the map in use has no nil, and the old
map has no key that its iteration does not know. -/
structure Settled (calls : ι → TraceCall) (σ : Tracing ι) : Prop where
  placed : ∀ i, σ.Placed (calls i).model (σ.place i)
  entry : ∀ model, (σ.maps σ.current).lookup model ≠ some none
  keys : ∀ n keys, todo σ.writer = some (n, keys) →
    ∀ model, (σ.maps n).lookup model ≠ none → model ∈ keys

lemma Settled.placed_at (h : σ.Settled calls) {i : ι} {p : Place} (hp : σ.place i = p) :
    σ.Placed (calls i).model p :=
  hp ▸ h.placed i

lemma Settled.timely (h : σ.Settled calls) (e : TraceEvent ι) : σ.Timely calls e := by
  cases e with
  | enter i =>
    intro hp
    obtain ⟨t, ht, -⟩ := h.placed_at hp
    cases ht
  | leave i =>
    intro t hp
    exact .inl ⟨σ.current, mem_cons_self, h.placed_at hp⟩
  | endRange =>
    intro n roundT keys hw hvisited model t hl
    have hmem := h.keys n keys (by rw [hw]; rfl) model (by simp [hl])
    rw [hvisited model hmem] at hl
    cases hl
  | _ => trivial

lemma Settled.frame (h : σ.Settled calls) (hcurrent : σ'.current = σ.current)
    (hkeep : ∀ model t, σ.Current model t → σ'.Current model t)
    (hplace : ∀ j, σ'.place j = σ.place j ∨ σ'.Placed (calls j).model (σ'.place j))
    (hentry : ∀ model, (σ'.maps σ'.current).lookup model ≠ some none)
    (hkeys : ∀ n keys, todo σ'.writer = some (n, keys) →
      ∀ model, (σ'.maps n).lookup model ≠ none → model ∈ keys) : σ'.Settled calls := by
  refine ⟨fun j => (hplace j).elim (fun heq => ?_) id, hentry, hkeys⟩
  rw [heq]
  cases hj : σ.place j with
  | loaded t n =>
    have hn : n = σ.current := h.placed_at hj
    exact hn.trans hcurrent.symm
  | found _ trace | has trace =>
    obtain ⟨t, ht, hcur⟩ := h.placed_at hj
    exact ⟨t, ht, hkeep _ t hcur⟩
  | stored t | inside t => exact hkeep _ t (h.placed_at hj)
  | outside | made | finished | panicked => trivial

lemma placed_update [DecidableEq ι] {i : ι} {q : Place} (hplace : σ'.place = update σ.place i q)
    (hq : σ'.Placed (calls i).model q) (j : ι) :
    σ'.place j = σ.place j ∨ σ'.Placed (calls j).model (σ'.place j) := by
  rw [hplace]
  by_cases hj : j = i
  · subst hj
    rw [update_self]
    exact .inr hq
  · exact .inl (update_of_ne hj ..)

lemma old_of_todo {w : Writer} {n : ℕ} {keys : List String} (h : todo w = some (n, keys)) :
    w.old = some n := by
  cases w with
  | ranging | visiting =>
    obtain ⟨rfl, -⟩ := Prod.mk.inj (Option.some.inj h)
    rfl
  | idle | counted | swapped => cases h

/-- **One quiet step** keeps the calls at their places. -/
lemma Settled.step [DecidableEq ι] (hinv : σ.Inv calls bucketIndex) (h : σ.Settled calls)
    (e : TraceEvent ι) (hquiet : σ.Quiet e) : (σ.step calls bucketIndex e).Settled calls := by
  rcases step_cases calls bucketIndex σ e with ⟨heq, -⟩ | ha
  · rwa [heq]
  generalize σ.step calls bucketIndex e = σ' at ha ⊢
  cases ha with
  | newRequestTrace | absent | retry | done | leave =>
    exact h.frame rfl (fun _ _ => id) (placed_update rfl trivial) h.entry h.keys
  | load => exact h.frame rfl (fun _ _ => id) (placed_update rfl rfl) h.entry h.keys
  | @found i t n newer hp hl =>
    refine h.frame rfl (fun _ _ => id) (placed_update rfl ?_) h.entry h.keys
    obtain rfl : n = σ.current := h.placed_at hp
    cases newer with
    | none => exact absurd hl (h.entry _)
    | some u => exact ⟨u, rfl, hl⟩
  | @stored i t n hp hl =>
    obtain rfl : n = σ.current := h.placed_at hp
    refine h.frame rfl (fun model u hu => ?_) (placed_update rfl ?_) (fun model => ?_)
      fun n keys htodo model hne => ?_
    · show (update σ.maps σ.current _ σ.current).lookup model = some (some u)
      rw [lookup_set, if_neg]
      · exact hu
      · rintro ⟨-, rfl⟩
        rw [Current, hl] at hu
        cases hu
    · show (update σ.maps σ.current _ σ.current).lookup _ = some (some t)
      rw [lookup_set, if_pos ⟨rfl, rfl⟩]
    · dsimp only
      rw [lookup_set]
      split
      · simp
      · exact h.entry model
    · have hlt := hinv.bounded.old_lt n (old_of_todo htodo)
      dsimp only at hne
      rw [lookup_set, if_neg fun heq => hlt.ne heq.1] at hne
      exact h.keys n keys htodo model hne
  | @recycle i t newer hp hr =>
    have hhas := h.placed_at hp
    exact h.frame rfl (fun _ _ => id) (placed_update rfl hhas) h.entry h.keys
  | @increment i t hp =>
    have hstored := h.placed_at hp
    exact h.frame rfl (fun _ _ => id) (placed_update rfl ⟨t, rfl, hstored⟩) h.entry h.keys
  | @enter i t hp hc hr =>
    obtain ⟨u, hu, hcur⟩ := h.placed_at hp
    obtain rfl := Option.some.inj hu
    exact h.frame rfl (fun _ _ => id) (placed_update rfl hcur) h.entry h.keys
  | tick | again | endRange =>
    exact h.frame rfl (fun _ _ => id) (fun _ => .inl rfl) h.entry fun n keys htodo => by cases htodo
  | swap =>
    refine ⟨fun i => ?_, fun model => ?_, fun n keys htodo => by cases htodo⟩
    · have hi := hquiet i
      dsimp only
      cases hp : σ.place i with
      | outside | made | finished | panicked => trivial
      | loaded | found | stored | has | inside =>
        rw [hp] at hi
        exact absurd trivial hi
    · dsimp only
      rw [hinv.bounded.beyond _ (Nat.lt_succ_self _)]
      simp
  | @range n roundT numTraces numResetTo hw =>
    refine h.frame rfl (fun _ _ => id) (fun _ => .inl rfl) h.entry fun n' keys htodo model hne => ?_
    obtain ⟨rfl, rfl⟩ := Prod.mk.inj (Option.some.inj htodo)
    exact AList.mem_keys.mp (AList.lookup_isSome.mp (Option.isSome_iff_ne_none.mpr hne))
  | @visit n roundT keys model t hw hl =>
    have hlt := hinv.bounded.old_lt n (by rw [hw]; rfl)
    have hcur : ∀ m, (update σ.maps n ((σ.maps n).insert model none) σ.current).lookup m =
        (σ.maps σ.current).lookup m := fun m => by
      rw [lookup_set, if_neg fun heq => hlt.ne' heq.1]
    refine h.frame rfl (fun m u hu => (hcur m).trans hu) (fun _ => .inl rfl)
      (fun m => (hcur m).symm ▸ h.entry m) fun n' keys' htodo m hne => ?_
    obtain ⟨rfl, rfl⟩ := Prod.mk.inj (Option.some.inj htodo)
    have hkeys := h.keys n keys (by rw [hw]; rfl)
    dsimp only at hne
    rw [lookup_set] at hne
    split at hne
    · rename_i heq
      exact heq.2 ▸ hkeys model (by simp [hl])
    · exact hkeys m hne
  | @write n roundT pending keys model t hw hr =>
    exact h.frame rfl (fun _ _ => id) (fun _ => .inl rfl) h.entry fun n' keys' htodo =>
      h.keys n' keys' (by rw [hw]; exact htodo)

lemma Settled.start (calls : ι → TraceCall) : (Tracing.start ι).Settled calls :=
  ⟨fun _ => trivial, fun _ => by simp [Tracing.start], fun _ _ h => by cases h⟩

/-! ### Whole runs -/

structure Apart (σ : Tracing ι) : Prop where
  written : (σ.written.map Window.use).Nodup
  kept_written : ∀ model t, σ.Keeps model t → ∀ w ∈ σ.written, (σ.heap t).use ≠ w.use
  kept : ∀ model model' t t', σ.Keeps model t → σ.Keeps model' t' →
    (σ.heap t).use = (σ.heap t').use → model = model' ∧ t = t'

lemma Inv.apart (h : σ.Inv calls bucketIndex) : σ.Apart where
  written := h.uses.written_nodup
  kept_written model t ht w hw := h.uses.written_live w hw t (ht.live h)
  kept model model' t t' ht ht' huse := by
    obtain rfl := h.uses.live_inj t t' (ht.live h) (ht'.live h) huse
    refine ⟨?_, rfl⟩
    rcases ht with ⟨n, -, hl⟩ | hhand <;> rcases ht' with ⟨n', -, hl'⟩ | hhand'
    · exact (Spot.entry.inj (h.custody.sole (.entry n model) (.entry n' model') t hl hl')).2
    · have hw : σ.holds .writer t := by simp [holds, Held, hhand']
      exact absurd (h.custody.sole (.entry n model) .writer t hl hw) (by simp)
    · have hw : σ.holds .writer t := by simp [holds, Held, hhand]
      exact absurd (h.custody.sole (.entry n' model') .writer t hl' hw) (by simp)
    · rw [hhand] at hhand'
      exact (Prod.mk.inj (Option.some.inj hhand')).1

lemma Inv.tally (h : σ.Inv calls bucketIndex) {use : ℕ} {total : ℤ} {bucket : String → ℤ}
    (hw : σ.IsWindow model use total bucket) :
    Tally calls bucketIndex σ.place use total bucket := by
  cases hw with
  | written hw => exact h.tallied.written _ hw
  | kept ht => exact h.tallied.live _ (ht.live h)

variable [DecidableEq ι]

/-- **Starts and traced completions are each counted in one window of their model**, and no absent
trace is met, in all states of a run, if and only if every step is a timely one.  In every state the
total of a window is the number of starts that were counted in it, its buckets hold the numbers of
completions, and no two windows are the same.  All steps are timely where no call is between its read
of the map and its count when the map is swapped. -/
theorem exact_iff_timely (calls : ι → TraceCall) (bucketIndex : ℤ → ℤ) (es : List (TraceEvent ι)) :
    ((∀ es', es' <+: es → Exact calls (es'.foldl (step calls bucketIndex) (start ι))) ↔
      Along (step calls bucketIndex) (Timely calls) (start ι) es) ∧
    (∀ model use total bucket,
      IsWindow (es.foldl (step calls bucketIndex) (start ι)) model use total bucket →
        Tally calls bucketIndex (es.foldl (step calls bucketIndex) (start ι)).place use total bucket) ∧
    Apart (es.foldl (step calls bucketIndex) (start ι)) ∧
    (Along (step calls bucketIndex) Quiet (start ι) es →
      Along (step calls bucketIndex) (Timely calls) (start ι) es) := by
  have hinv : Inv calls bucketIndex (es.foldl (step calls bucketIndex) (start ι)) :=
    foldl_invariant (.start calls bucketIndex) (fun _ e h => h.step e) es
  refine ⟨?_, fun model use total bucket hw => hinv.tally hw, hinv.apart, fun hquiet => ?_⟩
  · exact along_iff_of_invariant
      (.start calls bucketIndex) (.start calls) (fun _ e h => h.step e)
      (fun σ e hσ hex => Exact.step_iff hσ hex e)
  · exact hquiet.imp_of_invariant
      (I := fun σ => σ.Inv calls bucketIndex ∧ σ.Settled calls)
      ⟨.start calls bucketIndex, .start calls⟩
      (fun σ e h he => ⟨h.1.step e, h.2.step h.1 e he⟩) fun σ e h _ => h.2.timely e

/-- Two requests for the model `a` and one for the model `b`. -/
def threeCalls : Fin 3 → TraceCall := ![.addRequestCount "a", .addRequestCount "a", .addRequestCount "b"]

def firstRequest : List (TraceEvent (Fin 3)) :=
  [.newRequestTrace 0 none 0, .load 0, .loadOrStore 0, .increment 0, .enter 0, .leave 0]

/-- The traces of the model `a` are written out. -/
def writeOut : List (TraceEvent (Fin 3)) := [.tick 10, .swap, .compareAndSwap, .visit "a", .write 0]

/-- The other request for `a` reads the map before the write-out and the entry after it. -/
def readsNil : List (TraceEvent (Fin 3)) :=
  firstRequest ++ [.newRequestTrace 1 none 1, .load 1] ++ writeOut ++ [.loadOrStore 1, .recycle 1, .enter 1]

/-- The request for `b` reads the map before the write-out and stores its trace after it. -/
def storesLate : List (TraceEvent (Fin 3)) :=
  firstRequest ++ [.newRequestTrace 2 none 1, .load 2] ++ writeOut ++
    [.loadOrStore 2, .endRange, .increment 2, .enter 2, .leave 2]

/-- The other request for `a` gets its trace before the write-out and counts after it, when the request
for `b` has got the trace from the pool. -/
def countsLate : List (TraceEvent (Fin 3)) :=
  firstRequest ++ [.newRequestTrace 1 none 1, .load 1, .loadOrStore 1, .recycle 1] ++ writeOut ++
    [.endRange, .newRequestTrace 2 (some 0) 2, .load 2, .loadOrStore 2, .enter 1, .leave 1]

/-- Calls that hold on to a map or a trace over a write-out meet nil, are counted in a trace that is in
no map any more, or are counted for another model. -/
theorem stragglers :
    let run := fun es => List.foldl (step threeCalls id) (start (Fin 3)) es
    (run readsNil).place 1 = .panicked ∧
    ((run storesLate).place 2 = .finished (some 1) ∧ (run storesLate).writer = .idle ∧
      (run storesLate).written.map Window.model = ["a"] ∧
      ((run storesLate).maps (run storesLate).current).keys = []) ∧
    ((run countsLate).place 1 = .finished (some 2) ∧
      ((run countsLate).maps (run countsLate).current).lookup "b" = some (some 0) ∧
      ((run countsLate).heap 0).use = 2 ∧ ((run countsLate).heap 0).numRequests = 1) := by
  decide +kernel

end Tracing
end Lodestar.Cache
