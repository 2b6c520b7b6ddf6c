import Lodestar.Lib.Census
import Lodestar.Lib.Custody
import Lodestar.Cache.Tracing

/-!
# What the order of the steps cannot break

A trace is in one place at a time: in the pool, with the call that took it from the pool, in a map
or with the write-out (`Custody`).  Only a trace outside the pool has its recycler, and nobody is
inside the lock of any other (`Locked`).  Each use of a trace has a number of its own (`Uses`), so
that the calls counted in a window are those with its number (`Tallied`).  This holds whatever the
order of the steps; `Inv.step` collects it.
-/

namespace Lodestar.Cache

open Lib List
open Function (update update_self update_of_ne)

namespace Tracing

variable {ι : Type*}
variable {σ σ' : Tracing ι} {calls : ι → TraceCall} {bucketIndex : ℤ → ℤ} {e : TraceEvent ι} {i : ι}
  {q : Place} {t : ℕ}

/-! ### Where the traces are -/

inductive Spot (ι : Type*) where
  | pool
  | hand (i : ι)
  | entry (n : ℕ) (model : String)
  | writer

def Held (pool : Finset ℕ) (maps : ℕ → AList fun _ : String => Option ℕ) (writer : Writer)
    (place : ι → Place) : Spot ι → ℕ → Prop
  | .pool, t => t ∈ pool
  | .hand i, t => (place i).fresh = some t
  | .entry n model, t => (maps n).lookup model = some (some t)
  | .writer, t => writer.hand.map Prod.snd = some t

variable {pool : Finset ℕ} {maps : ℕ → AList fun _ : String => Option ℕ} {writer writer' : Writer}
  {place : ι → Place} {p : Spot ι}

lemma held_place [DecidableEq ι] {i : ι} {q : Place} (h : Held pool maps writer (update place i q) p t) :
    (p = .hand i ∧ q.fresh = some t) ∨ (Held pool maps writer place p t ∧ p ≠ .hand i) := by
  cases p with
  | hand j =>
    by_cases hj : j = i
    · subst hj
      exact .inl ⟨rfl, by simpa [Held] using h⟩
    · refine .inr ⟨?_, by simpa using hj⟩
      simpa [Held, update_of_ne hj] using h
  | pool | entry | writer => exact .inr ⟨h, by simp⟩

lemma lookup_set {n n' : ℕ} {model model' : String} {v : Option ℕ} :
    (update maps n ((maps n).insert model v) n').lookup model' =
      if n' = n ∧ model' = model then some v else (maps n').lookup model' := by
  by_cases hn : n' = n
  · subst hn
    rw [update_self, Store.lookup_insert]
    simp
  · simp [hn]

lemma held_entry {n : ℕ} {model : String} {v : Option ℕ}
    (h : Held pool (update maps n ((maps n).insert model v)) writer place p t) :
    (p = .entry n model ∧ v = some t) ∨ (Held pool maps writer place p t ∧ p ≠ .entry n model) := by
  cases p with
  | entry n' model' =>
    simp only [Held, lookup_set] at h
    split at h
    · rename_i heq
      exact .inl ⟨by rw [heq.1, heq.2], Option.some.inj h⟩
    · rename_i hne
      exact .inr ⟨h, by simpa using hne⟩
  | pool | hand | writer => exact .inr ⟨h, by simp⟩

lemma held_insert {u : ℕ} (h : Held (insert u pool) maps writer place p t) :
    (p = .pool ∧ t = u) ∨ Held pool maps writer place p t := by
  cases p with
  | pool =>
    rcases Finset.mem_insert.mp h with rfl | h'
    · exact .inl ⟨rfl, rfl⟩
    · exact .inr h'
  | hand | entry | writer => exact .inr h

lemma held_erase {u : ℕ} (h : Held (pool.erase u) maps writer place p t) :
    Held pool maps writer place p t ∧ (p = .pool → t ≠ u) := by
  cases p with
  | pool =>
    obtain ⟨hne, hmem⟩ := Finset.mem_erase.mp h
    exact ⟨hmem, fun _ => hne⟩
  | hand | entry | writer => exact ⟨h, by simp⟩

lemma held_writer (writer : Writer) (h : Held pool maps writer' place p t) :
    (p = .writer ∧ writer'.hand.map Prod.snd = some t) ∨
      (Held pool maps writer place p t ∧ p ≠ .writer) := by
  cases p with
  | writer => exact .inl ⟨rfl, h⟩
  | pool | hand | entry => exact .inr ⟨h, by simp⟩

def holds (σ : Tracing ι) : Spot ι → ℕ → Prop := Held σ.pool σ.maps σ.writer σ.place

/-- Each trace is in one place, and has its recycler unless it is in the pool. -/
structure Custody (σ : Tracing ι) : Prop where
  sole : Sole σ.holds
  allocated : ∀ p t, σ.holds p t → t < σ.allocated
  live : ∀ p t, σ.holds p t → ((σ.heap t).recycler = true ↔ p ≠ .pool)

lemma field_update {σ : Tracing ι} {α : Type*} (f : RequestTrace → α) {t : ℕ} {x : RequestTrace}
    (hx : f x = f (σ.heap t)) (u : ℕ) : f (update σ.heap t x u) = f (σ.heap u) :=
  Lib.field_update f hx u

lemma forall_place_update [DecidableEq ι] {σ : Tracing ι} {P : ι → Place → Prop} {i : ι} {q : Place}
    (h : ∀ j, P j (σ.place j)) (hq : P i q) : ∀ j, P j (update σ.place i q j) :=
  forall_update h hq

namespace Custody

variable (h : σ.Custody)
include h

lemma frame (hholds : ∀ p t, σ'.holds p t → σ.holds p t) (halloc : σ.allocated ≤ σ'.allocated)
    (hrec : ∀ t, (σ'.heap t).recycler = (σ.heap t).recycler) : σ'.Custody where
  sole := h.sole.of_imp hholds
  allocated p t ht := (h.allocated p t (hholds p t ht)).trans_le halloc
  live p t ht := by
    rw [hrec]
    exact h.live p t (hholds p t ht)

/-- The trace `t` is now at `b`, and the others are where they were. -/
lemma change {b : Spot ι} (hnew : ∀ p u, σ'.holds p u → (p = b ∧ u = t) ∨ (σ.holds p u ∧ u ≠ t))
    (halloc : σ.allocated ≤ σ'.allocated) (ht : t < σ'.allocated)
    (hrec : ∀ u, u ≠ t → (σ'.heap u).recycler = (σ.heap u).recycler)
    (hlive : (σ'.heap t).recycler = true ↔ b ≠ .pool) : σ'.Custody where
  sole := h.sole.change hnew
  allocated p u hu := by
    rcases hnew p u hu with ⟨-, rfl⟩ | ⟨hold, -⟩
    · exact ht
    · exact (h.allocated p u hold).trans_le halloc
  live p u hu := by
    rcases hnew p u hu with ⟨rfl, rfl⟩ | ⟨hold, hne⟩
    · exact hlive
    · rw [hrec u hne]
      exact h.live p u hold

lemma transfer {a b : Spot ι} (ha : σ.holds a t)
    (hnew : ∀ p u, σ'.holds p u → (p = b ∧ u = t) ∨ (σ.holds p u ∧ p ≠ a))
    (halloc : σ'.allocated = σ.allocated)
    (hrec : ∀ u, u ≠ t → (σ'.heap u).recycler = (σ.heap u).recycler)
    (hlive : (σ'.heap t).recycler = true ↔ b ≠ .pool) : σ'.Custody := by
  refine h.change (fun p u hu => ?_) halloc.ge (halloc ▸ h.allocated a t ha) hrec hlive
  refine (hnew p u hu).imp_right fun ⟨hold, hne⟩ => ⟨hold, ?_⟩
  rintro rfl
  exact hne (h.sole p a u hold ha)

lemma move [DecidableEq ι] (hheld : σ'.holds = Held σ.pool σ.maps σ.writer (update σ.place i q))
    (hq : q.fresh = (σ.place i).fresh ∨ q.fresh = none) (halloc : σ.allocated ≤ σ'.allocated)
    (hrec : ∀ t, (σ'.heap t).recycler = (σ.heap t).recycler) : σ'.Custody := by
  refine h.frame (fun p t ht => ?_) halloc hrec
  rw [hheld] at ht
  rcases held_place ht with ⟨rfl, hfresh⟩ | ⟨hold, -⟩
  · rcases hq with hq | hq
    · exact hq.symm.trans hfresh
    · simp [hq] at hfresh
  · exact hold

lemma moveWriter {writer : Writer} (hheld : σ'.holds = Held σ.pool σ.maps writer σ.place)
    (hhand : writer.hand = none) (halloc : σ'.allocated = σ.allocated) (hheap : σ'.heap = σ.heap) :
    σ'.Custody := by
  refine h.frame (fun p t ht => ?_) halloc.ge (fun t => by rw [hheap])
  rw [hheld] at ht
  rcases held_writer σ.writer ht with ⟨-, hsome⟩ | ⟨hold, -⟩
  · simp [hhand] at hsome
  · exact hold

variable [DecidableEq ι]

lemma newRequestTrace {now : ℤ} (ht : t ∈ σ.pool ∨ t = σ.allocated) : Custody
      { σ with heap := update σ.heap t ((σ.heap t).newRequestTrace now σ.uses)
               allocated := max σ.allocated (t + 1), pool := σ.pool.erase t
               place := update σ.place i (.made t), uses := σ.uses + 1 } := by
  have hrec : ∀ u, u ≠ t → (update σ.heap t ((σ.heap t).newRequestTrace now σ.uses) u).recycler =
      (σ.heap u).recycler := fun u hu => by rw [update_of_ne hu]
  have hlive : (update σ.heap t ((σ.heap t).newRequestTrace now σ.uses) t).recycler = true ↔
      Spot.hand i ≠ .pool := by simp [RequestTrace.newRequestTrace]
  refine h.change (fun p u hu => ?_) (le_max_left ..) (by simp) hrec hlive
  rcases held_place hu with ⟨rfl, hfresh⟩ | ⟨hu', -⟩
  · exact .inl ⟨rfl, (Option.some.inj hfresh).symm⟩
  · obtain ⟨hold, hne⟩ := held_erase hu'
    refine .inr ⟨hold, ?_⟩
    rintro rfl
    rcases ht with ht | rfl
    · exact hne (h.sole p .pool u hold ht) rfl
    · exact (h.allocated p _ hold).false

/-- **Every action** keeps each trace in one place. -/
lemma action (ha : Action calls bucketIndex σ e σ') : σ'.Custody := by
  cases ha with
  | newRequestTrace hp ht => exact h.newRequestTrace ht
  | load hp | found hp =>
    exact h.move rfl (.inl (by rw [hp]; rfl)) le_rfl (fun _ => rfl)
  | @stored i t n hp hl =>
    have hfrom : σ.holds (.hand i) t := by simp [holds, Held, hp, Place.fresh]
    refine h.transfer (b := .entry n (calls i).model) hfrom (fun p u hu => ?_) rfl (fun _ _ => rfl) ?_
    · rcases held_place hu with ⟨-, hfresh⟩ | ⟨hu', hne⟩
      · simp [Place.fresh] at hfresh
      · rcases held_entry hu' with ⟨rfl, heq⟩ | ⟨hold, -⟩
        · exact .inl ⟨rfl, (Option.some.inj heq).symm⟩
        · exact .inr ⟨hold, hne⟩
    · simpa using (h.live (.hand i) t hfrom).mpr (by simp)
  | @recycle i t newer hp hr =>
    have hfrom : σ.holds (.hand i) t := by simp [holds, Held, hp, Place.fresh]
    refine h.transfer (b := .pool) hfrom (fun p u hu => ?_) rfl
      (fun u hu => by dsimp only; rw [update_of_ne hu]) ?_
    · rcases held_place hu with ⟨-, hfresh⟩ | ⟨hu', hne⟩
      · simp [Place.fresh] at hfresh
      · rcases held_insert hu' with hpool | hold
        · exact .inl hpool
        · exact .inr ⟨hold, hne⟩
    · simp [RequestTrace.recycleLocked]
  | increment | absent | retry => exact h.move rfl (.inr rfl) le_rfl (fun _ => rfl)
  | enter hp hc hr => exact h.move rfl (.inr rfl) le_rfl (field_update RequestTrace.recycler rfl)
  | @done i t term hp hc =>
    obtain ⟨n, hn⟩ := (σ.heap t).doneRequestLocked_eq term
    exact h.move rfl (.inr rfl) le_rfl (field_update RequestTrace.recycler (by rw [hn]))
  | @leave i t hp =>
    obtain ⟨hrec, -⟩ := (calls i).count_frame (σ.traceKey i) (σ.heap t)
    exact h.move rfl (.inr rfl) le_rfl (field_update RequestTrace.recycler hrec)
  | tick | swap | again | range | endRange => exact h.moveWriter rfl rfl rfl rfl
  | @visit n roundT todo model t hw hl =>
    have hfrom : σ.holds (.entry n model) t := hl
    refine h.transfer (b := .writer) hfrom (fun p u hu => ?_) rfl (fun _ _ => rfl) ?_
    · rcases held_writer σ.writer hu with ⟨rfl, hsome⟩ | ⟨hu', -⟩
      · exact .inl ⟨rfl, (Option.some.inj hsome).symm⟩
      · rcases held_entry hu' with ⟨-, heq⟩ | ⟨hold, hne⟩
        · simp at heq
        · exact .inr ⟨hold, hne⟩
    · simpa using (h.live (.entry n model) t hfrom).mpr (by simp)
  | @write n roundT pending todo model t hw hr =>
    have hfrom : σ.holds .writer t := by simp [holds, Held, hw, Writer.hand]
    refine h.transfer (b := .pool) hfrom (fun p u hu => ?_) rfl
      (fun u hu => by dsimp only; rw [update_of_ne hu]) ?_
    · rcases held_writer σ.writer hu with ⟨-, hsome⟩ | ⟨hu', hne⟩
      · simp [Writer.hand] at hsome
      · rcases held_insert hu' with hpool | hold
        · exact .inl hpool
        · exact .inr ⟨hold, hne⟩
    · simp [RequestTrace.recycleLocked]

end Custody

/-! ### The locks -/

/-- The lock of a trace knows how many calls are inside, and these are inside a trace that has its
recycler. -/
structure Locked (σ : Tracing ι) : Prop where
  readers : ∀ t, Census (fun i => decide (σ.place i = .inside t) = true) (σ.heap t).readers
  live : ∀ i t, σ.place i = .inside t → (σ.heap t).recycler = true

namespace Locked

variable (h : σ.Locked)
include h

lemma not_inside (hr : (σ.heap t).readers = 0) (i : ι) : σ.place i ≠ .inside t := by
  have hnone := (h.readers t).eq_zero_iff.mp hr i
  simpa using hnone

variable [DecidableEq ι]

lemma move (hplace : σ'.place = update σ.place i q)
    (hreaders : ∀ t, (σ'.heap t).readers = (σ.heap t).readers + (if q = .inside t then 1 else 0) -
      if σ.place i = .inside t then 1 else 0)
    (hlive : ∀ j t, σ'.place j = .inside t → (σ'.heap t).recycler = true) : σ'.Locked where
  readers t := by
    have hmove := (h.readers t).move (C := fun _ p => decide (p = .inside t)) i q
    rw [hplace, hreaders]
    simpa using hmove
  live := hlive

lemma moveOutside (hplace : σ'.place = update σ.place i q) (hfrom : ∀ t, σ.place i ≠ .inside t)
    (hto : ∀ t, q ≠ .inside t) (hreaders : ∀ t, (σ'.heap t).readers = (σ.heap t).readers)
    (hrec : ∀ j t, σ.place j = .inside t → (σ'.heap t).recycler = true) : σ'.Locked := by
  refine h.move hplace (fun t => ?_) ?_
  · rw [hreaders, if_neg (hto t), if_neg (hfrom t)]
    omega
  · rw [hplace]
    exact forall_place_update (P := fun _ p => ∀ t, p = .inside t → (σ'.heap t).recycler = true)
      hrec fun t ht => absurd ht (hto t)

omit [DecidableEq ι] in
lemma recycled (hr : (σ.heap t).readers = 0) (j : ι) (u : ℕ) (hj : σ.place j = .inside u) :
    (update σ.heap t (σ.heap t).recycleLocked u).recycler = true := by
  have hut : u ≠ t := by
    rintro rfl
    exact h.not_inside hr j hj
  rw [update_of_ne hut]
  exact h.live j u hj

lemma enter {key : ι → String} (hp : σ.place i = .has (some t)) (hr : (σ.heap t).recycler = true)
    : Locked
      { σ with heap := update σ.heap t (σ.heap t).rLock
               traceKey := key, place := update σ.place i (.inside t) } := by
  refine h.move rfl (fun u => ?_) fun j u hj => ?_
  · by_cases hu : u = t
    · subst hu
      simp [hp, RequestTrace.rLock]
    · have hne : Place.inside t ≠ .inside u := fun heq => hu (Place.inside.inj heq).symm
      simp [hp, hu, hne]
  · rw [field_update RequestTrace.recycler (show (σ.heap t).rLock.recycler = _ from rfl)]
    refine forall_place_update (P := fun _ p => ∀ u, p = .inside u → (σ.heap u).recycler = true)
      h.live (fun u hu => ?_) j u hj
    rwa [← Place.inside.inj hu]

lemma leave (hp : σ.place i = .inside t) : Locked
    { σ with heap := update σ.heap t ((calls i).count (σ.traceKey i) (σ.heap t)).rUnlock
             place := update σ.place i (.finished (some (σ.heap t).use)) } := by
  obtain ⟨hrec, hreaders, -⟩ := (calls i).count_frame (σ.traceKey i) (σ.heap t)
  have hunlock : ((calls i).count (σ.traceKey i) (σ.heap t)).rUnlock.recycler = (σ.heap t).recycler := hrec
  refine h.move rfl (fun u => ?_) fun j u hj => ?_
  · by_cases hu : u = t
    · subst hu
      simp [hp, hreaders, RequestTrace.rUnlock]
    · have hne : Place.inside t ≠ .inside u := fun heq => hu (Place.inside.inj heq).symm
      simp [hp, hu, hne]
  · rw [field_update RequestTrace.recycler hunlock]
    exact forall_place_update (P := fun _ p => ∀ u, p = .inside u → (σ.heap u).recycler = true)
      h.live (by simp) j u hj

lemma action (ha : Action calls bucketIndex σ e σ') : σ'.Locked := by
  cases ha with
  | @newRequestTrace i pick now t hp ht =>
    refine h.moveOutside rfl (by simp [hp]) (by simp) (field_update RequestTrace.readers rfl)
      fun j u hj => ?_
    by_cases hu : u = t
    · subst hu
      simp [RequestTrace.newRequestTrace]
    · dsimp only
      rw [update_of_ne hu]
      exact h.live j u hj
  | load hp | found hp | stored hp | increment hp | absent hp | retry hp =>
    exact h.moveOutside rfl (by simp [hp]) (by simp) (fun _ => rfl) h.live
  | recycle hp hr =>
    exact h.moveOutside rfl (by simp [hp]) (by simp) (field_update RequestTrace.readers rfl)
      (h.recycled hr)
  | enter hp hc hr => exact h.enter hp hr
  | @done i t term hp hc =>
    obtain ⟨n, hn⟩ := (σ.heap t).doneRequestLocked_eq term
    refine h.moveOutside rfl (by simp [hp]) (by simp)
      (field_update RequestTrace.readers (by rw [hn])) fun j u hj => ?_
    have hdone : ((σ.heap t).doneRequestLocked term).recycler = (σ.heap t).recycler := by rw [hn]
    rw [field_update RequestTrace.recycler hdone]
    exact h.live j u hj
  | leave hp => exact h.leave hp
  | tick | swap | again | range | visit | endRange => exact ⟨h.readers, h.live⟩
  | @write n roundT pending todo model t hw hr =>
    refine ⟨fun u => ?_, h.recycled hr⟩
    have hreaders := field_update RequestTrace.readers (x := (σ.heap t).recycleLocked) rfl u
    exact hreaders ▸ h.readers u

end Locked

/-! ### The uses of traces -/

/-- Each trace that is not recycled and each window has a number of its own. -/
structure Uses (σ : Tracing ι) : Prop where
  live_lt : ∀ t, (σ.heap t).recycler = true → (σ.heap t).use < σ.uses
  live_inj : ∀ t u, (σ.heap t).recycler = true → (σ.heap u).recycler = true →
    (σ.heap t).use = (σ.heap u).use → t = u
  written_lt : ∀ w ∈ σ.written, w.use < σ.uses
  written_live : ∀ w ∈ σ.written, ∀ t, (σ.heap t).recycler = true → (σ.heap t).use ≠ w.use
  written_nodup : (σ.written.map Window.use).Nodup
  home_lt : ∀ i use, σ.place i = .finished (some use) → use < σ.uses

namespace Uses

variable (h : σ.Uses)

lemma live_update {x : RequestTrace} (hrec : x.recycler = (σ.heap t).recycler)
    (huse : x.use = (σ.heap t).use) (u : ℕ) (hu : (update σ.heap t x u).recycler = true) :
    (σ.heap u).recycler = true ∧ (update σ.heap t x u).use = (σ.heap u).use := by
  rw [field_update RequestTrace.recycler hrec] at hu
  exact ⟨hu, field_update RequestTrace.use huse u⟩

lemma live_recycled (u : ℕ) (hu : (update σ.heap t (σ.heap t).recycleLocked u).recycler = true) :
    u ≠ t ∧ (σ.heap u).recycler = true ∧
      (update σ.heap t (σ.heap t).recycleLocked u).use = (σ.heap u).use := by
  have hut : u ≠ t := by
    rintro rfl
    simp [RequestTrace.recycleLocked] at hu
  rw [update_of_ne hut] at hu ⊢
  exact ⟨hut, hu, rfl⟩

include h

lemma frame (hlive : ∀ t, (σ'.heap t).recycler = true →
      (σ.heap t).recycler = true ∧ (σ'.heap t).use = (σ.heap t).use)
    (hwritten : σ'.written = σ.written) (huses : σ'.uses = σ.uses)
    (hhome : ∀ i use, σ'.place i = .finished (some use) → use < σ.uses) : σ'.Uses where
  live_lt t ht := by
    obtain ⟨hold, heq⟩ := hlive t ht
    rw [heq, huses]
    exact h.live_lt t hold
  live_inj t u ht hu heq := by
    obtain ⟨hold, htuse⟩ := hlive t ht
    obtain ⟨hold', huuse⟩ := hlive u hu
    rw [htuse, huuse] at heq
    exact h.live_inj t u hold hold' heq
  written_lt := by
    rw [hwritten, huses]
    exact h.written_lt
  written_live w hw t ht := by
    rw [hwritten] at hw
    obtain ⟨hold, heq⟩ := hlive t ht
    rw [heq]
    exact h.written_live w hw t hold
  written_nodup := by
    rw [hwritten]
    exact h.written_nodup
  home_lt i use hi := by
    rw [huses]
    exact hhome i use hi

variable [DecidableEq ι]

lemma home_update (hq : ∀ use, q = .finished (some use) → use < σ.uses) (j : ι) (use : ℕ)
    (hj : update σ.place i q j = .finished (some use)) : use < σ.uses :=
  forall_place_update (P := fun _ p => ∀ use, p = .finished (some use) → use < σ.uses) h.home_lt hq j
    use hj

lemma newRequestTrace {now : ℤ} {allocated : ℕ} {pool : Finset ℕ} : Uses
    { σ with heap := update σ.heap t ((σ.heap t).newRequestTrace now σ.uses)
             allocated := allocated, pool := pool
             place := update σ.place i (.made t), uses := σ.uses + 1 } := by
  have hnew : ∀ u, (update σ.heap t ((σ.heap t).newRequestTrace now σ.uses) u).recycler = true →
      (u = t ∧ (update σ.heap t ((σ.heap t).newRequestTrace now σ.uses) u).use = σ.uses) ∨
      ((σ.heap u).recycler = true ∧
        (update σ.heap t ((σ.heap t).newRequestTrace now σ.uses) u).use = (σ.heap u).use) := by
    intro u hu
    by_cases hut : u = t
    · subst hut
      exact .inl ⟨rfl, by simp [RequestTrace.newRequestTrace]⟩
    · rw [update_of_ne hut] at hu ⊢
      exact .inr ⟨hu, rfl⟩
  refine ⟨fun u hu => ?_, fun u v hu hv heq => ?_, fun w hw => ?_, fun w hw u hu => ?_, h.written_nodup,
    fun j use hj => ?_⟩
  · rcases hnew u hu with ⟨-, heq⟩ | ⟨hold, heq⟩
    · dsimp only
      omega
    · have hlt := h.live_lt u hold
      dsimp only
      omega
  · dsimp only at hu hv heq
    rcases hnew u hu with ⟨rfl, hu'⟩ | ⟨hold, hu'⟩ <;> rcases hnew v hv with ⟨rfl, hv'⟩ | ⟨hold', hv'⟩
    · rfl
    · have hlt := h.live_lt v hold'
      omega
    · have hlt := h.live_lt u hold
      omega
    · exact h.live_inj u v hold hold' (by omega)
  · have hlt := h.written_lt w hw
    dsimp only
    omega
  · have hlt := h.written_lt w hw
    rcases hnew u hu with ⟨-, heq⟩ | ⟨hold, heq⟩
    · dsimp only
      omega
    · rw [heq]
      exact h.written_live w hw u hold
  · have hlt := h.home_update (by simp) j use hj
    dsimp only
    omega

omit [DecidableEq ι] in
lemma write {w : Window} {writer : Writer} {pool : Finset ℕ} (hw : w.use = (σ.heap t).use)
    (ht : (σ.heap t).recycler = true) : Uses
      { σ with heap := update σ.heap t (σ.heap t).recycleLocked, pool := pool
               writer := writer, written := σ.written ++ [w] } := by
  refine ⟨fun u hu => ?_, fun u v hu hv heq => ?_, fun w' hw' => ?_, fun w' hw' u hu => ?_, ?_, h.home_lt⟩
  · obtain ⟨-, hold, heq⟩ := live_recycled u hu
    dsimp only
    rw [heq]
    exact h.live_lt u hold
  · obtain ⟨-, hold, hu'⟩ := live_recycled u hu
    obtain ⟨-, hold', hv'⟩ := live_recycled v hv
    dsimp only at heq
    rw [hu', hv'] at heq
    exact h.live_inj u v hold hold' heq
  · rcases mem_append.mp hw' with hmem | hmem
    · exact h.written_lt w' hmem
    · rw [List.mem_singleton.mp hmem, hw]
      exact h.live_lt t ht
  · obtain ⟨hut, hold, heq⟩ := live_recycled u hu
    dsimp only
    rw [heq]
    rcases mem_append.mp hw' with hmem | hmem
    · exact h.written_live w' hmem u hold
    · rw [List.mem_singleton.mp hmem, hw]
      exact fun hsame => hut (h.live_inj u t hold ht hsame)
  · have hfresh : w.use ∉ σ.written.map Window.use := by
      intro hmem
      obtain ⟨w', hw', heq⟩ := mem_map.mp hmem
      exact h.written_live w' hw' t ht (by rw [heq, hw])
    simp only [map_append, map_cons, map_nil]
    exact h.written_nodup.append (nodup_singleton _) (by simpa using hfresh)

lemma action (hc : σ.Custody) (hl : σ.Locked) (ha : Action calls bucketIndex σ e σ') : σ'.Uses := by
  cases ha with
  | newRequestTrace hp ht => exact h.newRequestTrace
  | load | found | stored | increment | absent | retry =>
    exact h.frame (fun t ht => ⟨ht, rfl⟩) rfl rfl (h.home_update (by simp))
  | recycle hp hr =>
    exact h.frame (fun t ht => (live_recycled t ht).2) rfl rfl (h.home_update (by simp))
  | enter hp hc hr => exact h.frame (live_update rfl rfl) rfl rfl (h.home_update (by simp))
  | @done i t term hp hc =>
    obtain ⟨n, hn⟩ := (σ.heap t).doneRequestLocked_eq term
    exact h.frame (live_update (by rw [hn]) (by rw [hn])) rfl rfl (h.home_update (by simp))
  | @leave i t hp =>
    obtain ⟨hrec, -, huse, -⟩ := (calls i).count_frame (σ.traceKey i) (σ.heap t)
    refine h.frame (live_update hrec huse) rfl rfl (h.home_update ?_)
    intro use heq
    have huse' : (σ.heap t).use = use := by simpa using heq
    rw [← huse']
    exact h.live_lt t (hl.live i t hp)
  | tick | swap | again | range | visit | endRange =>
    exact h.frame (fun t ht => ⟨ht, rfl⟩) rfl rfl h.home_lt
  | @write n roundT pending todo model t hw hr =>
    have hheld : σ.holds .writer t := by simp [holds, Held, hw, Writer.hand]
    exact h.write rfl ((hc.live .writer t hheld).mpr (by simp))

end Uses

/-! ### Maps and keys -/

/-- A map that is not in use yet is empty, and the map that is written out is an earlier one. -/
structure Bounded (σ : Tracing ι) : Prop where
  beyond : ∀ n, σ.current < n → σ.maps n = ∅
  old_lt : ∀ n, σ.writer.old = some n → n < σ.current
  loaded_le : ∀ i t n, σ.place i = .loaded t n → n ≤ σ.current

/-- The key that a call asks with is that of its bucket, only calls that are counted are inside a
lock, and they return with a home. -/
structure Keys (calls : ι → TraceCall) (bucketIndex : ℤ → ℤ) (σ : Tracing ι) : Prop where
  traceKey : ∀ i, σ.traceKey i = "" ∨ (calls i).key bucketIndex = some (σ.traceKey i)
  inside : ∀ i t, σ.place i = .inside t →
    (calls i).counts = true ∧ ∀ key, (calls i).key bucketIndex = some key → σ.traceKey i = key
  home : ∀ i, σ.place i = .finished none → (calls i).counts = false

section

variable [DecidableEq ι]

namespace Bounded

variable (h : σ.Bounded)
include h

lemma loaded_update (hq : ∀ t n, q = .loaded t n → n ≤ σ.current) :
    ∀ j t n, update σ.place i q j = .loaded t n → n ≤ σ.current :=
  forall_place_update (P := fun _ p => ∀ t n, p = .loaded t n → n ≤ σ.current) h.loaded_le hq

omit [DecidableEq ι] in
lemma beyond_update {n : ℕ} {map : AList fun _ : String => Option ℕ} (hn : n ≤ σ.current) (n' : ℕ)
    (hn' : σ.current < n') : update σ.maps n map n' = ∅ := by
  rw [update_of_ne (by omega)]
  exact h.beyond n' hn'

lemma action (ha : Action calls bucketIndex σ e σ') : σ'.Bounded := by
  cases ha with
  | newRequestTrace | found | recycle | increment | absent | retry | enter | done | leave =>
    exact ⟨h.beyond, h.old_lt, h.loaded_update (by simp)⟩
  | load hp => exact ⟨h.beyond, h.old_lt, h.loaded_update (by rintro t n ⟨⟩; exact le_rfl)⟩
  | @stored i t n hp hl =>
    exact ⟨h.beyond_update (h.loaded_le i t n hp), h.old_lt, h.loaded_update (by simp)⟩
  | tick | endRange => exact ⟨h.beyond, by simp [Writer.old], h.loaded_le⟩
  | swap hw =>
    refine ⟨fun n hn => h.beyond n (by dsimp only at hn; omega), fun n hn => ?_, fun i t n hi => ?_⟩
    · have heq : σ.current = n := Option.some.inj hn
      dsimp only
      omega
    · exact (h.loaded_le i t n hi).trans (Nat.le_succ _)
  | again hw | range hw | write hw =>
    exact ⟨h.beyond, fun n hn => h.old_lt n (by rw [hw]; exact hn), h.loaded_le⟩
  | @visit n roundT todo model t hw hl =>
    have hlt := h.old_lt n (by rw [hw]; rfl)
    exact ⟨h.beyond_update hlt.le, fun n' hn' => h.old_lt n' (by rw [hw]; exact hn'), h.loaded_le⟩

end Bounded

namespace Keys

variable (h : σ.Keys calls bucketIndex)
include h

lemma home_update (hq : q = .finished none → (calls i).counts = false) :
    ∀ j, update σ.place i q j = .finished none → (calls j).counts = false :=
  forall_place_update (P := fun j p => p = .finished none → (calls j).counts = false) h.home hq

lemma inside_update (hq : ∀ t, q ≠ .inside t) :
    ∀ j t, update σ.place i q j = .inside t → (calls j).counts = true ∧
      ∀ key, (calls j).key bucketIndex = some key → σ.traceKey j = key :=
  forall_place_update (P := fun j p => ∀ t, p = .inside t → (calls j).counts = true ∧
    ∀ key, (calls j).key bucketIndex = some key → σ.traceKey j = key) h.inside
      (fun t ht => absurd ht (hq t))

lemma traceKey_update (i j : ι) :
    let key := update σ.traceKey i ((calls i).traceKey bucketIndex (σ.traceKey i)) j
    (key = "" ∨ (calls j).key bucketIndex = some key) ∧
      (j = i → ∀ k, (calls i).key bucketIndex = some k → key = k) ∧ (j ≠ i → key = σ.traceKey j) := by
  by_cases hji : j = i
  · subst hji
    simp only [TraceCall.traceKey]
    cases hk : (calls j).key bucketIndex with
    | none =>
      rcases h.traceKey j with hempty | hsome
      · simp [hempty]
      · rw [hk] at hsome
        simp at hsome
    | some k =>
      rcases h.traceKey j with hempty | hsome
      · simp [hempty]
      · rw [hk] at hsome
        have heq : k = σ.traceKey j := Option.some.inj hsome
        subst heq
        by_cases hempty : σ.traceKey j = "" <;> simp
  · intro key
    have hkey : key = σ.traceKey j := update_of_ne hji ..
    rw [hkey]
    exact ⟨h.traceKey j, fun heq => absurd heq hji, fun _ => rfl⟩

lemma ask (hc : (calls i).counts = true) (hq : q ≠ .finished none)
    (hplace : σ'.place = update σ.place i q)
    (hkey : σ'.traceKey = update σ.traceKey i ((calls i).traceKey bucketIndex (σ.traceKey i))) :
    σ'.Keys calls bucketIndex where
  traceKey j := by
    rw [hkey]
    exact (h.traceKey_update i j).1
  inside j t hj := by
    obtain ⟨-, hself, hother⟩ := h.traceKey_update i j
    rw [hplace] at hj
    rw [hkey]
    by_cases hji : j = i
    · subst hji
      exact ⟨hc, hself rfl⟩
    · rw [update_of_ne hji] at hj
      rw [hother hji]
      exact h.inside j t hj
  home := by
    rw [hplace]
    exact h.home_update fun heq => absurd heq hq

lemma action (ha : Action calls bucketIndex σ e σ') : σ'.Keys calls bucketIndex := by
  cases ha with
  | newRequestTrace | load | found | stored | recycle | increment | absent | leave =>
    exact ⟨h.traceKey, h.inside_update (by simp), h.home_update (by simp)⟩
  | retry _ hc | enter _ hc => exact h.ask hc (by simp) rfl rfl
  | done hp hc => exact ⟨h.traceKey, h.inside_update (by simp), h.home_update fun _ => hc⟩
  | tick | swap | again | range | visit | write | endRange =>
    exact ⟨h.traceKey, h.inside, h.home⟩

end Keys
end

/-! ### The counts -/

/-- The total is the number of starts with the home `use`, and the count of each bucket that of the
completions with this home and its key. -/
structure Tally (calls : ι → TraceCall) (bucketIndex : ℤ → ℤ) (place : ι → Place) (use : ℕ)
    (total : ℤ) (bucket : String → ℤ) : Prop where
  starts : Census (fun i => ((calls i).starts && decide (place i = .finished (some use))) = true) total
  completions : ∀ key, Census (fun i => (decide ((calls i).key bucketIndex = some key) &&
    decide (place i = .finished (some use))) = true) (bucket key)

namespace Tally

variable {place place' : ι → Place} {use : ℕ} {total : ℤ} {bucket : String → ℤ}

lemma congr (h : Tally calls bucketIndex place use total bucket)
    (hhome : ∀ i, place' i = .finished (some use) ↔ place i = .finished (some use)) :
    Tally calls bucketIndex place' use total bucket where
  starts := h.starts.congr fun i => by rw [decide_eq_decide.mpr (hhome i).symm]
  completions key := (h.completions key).congr fun i => by rw [decide_eq_decide.mpr (hhome i).symm]

lemma none (hnone : ∀ i, place i ≠ .finished (some use)) (hbucket : ∀ key, bucket key = 0) :
    Tally calls bucketIndex place use 0 bucket where
  starts := Census.none.congr fun i => by simp [hnone i]
  completions key := by
    rw [hbucket]
    exact Census.none.congr fun i => by simp [hnone i]

lemma count [DecidableEq ι] (h : Tally calls bucketIndex place use total bucket) {i : ι}
    (hi : place i ≠ .finished (some use)) : Tally calls bucketIndex
      (update place i (.finished (some use))) use (total + if (calls i).starts then 1 else 0)
      (fun key => bucket key + if (calls i).key bucketIndex = some key then 1 else 0) where
  starts := by
    have hmove := h.starts.move
      (C := fun j (p : Place) => (calls j).starts && decide (p = .finished (some use))) i
      (.finished (some use))
    simpa [hi] using hmove
  completions key := by
    have hmove := (h.completions key).move
      (C := fun j (p : Place) => decide ((calls j).key bucketIndex = some key) &&
        decide (p = .finished (some use))) i (.finished (some use))
    simpa [hi] using hmove

lemma not_counted (h : Tally calls bucketIndex place use 0 bucket) (hbucket : ∀ key, bucket key = 0)
    {i : ι} (hi : place i = .finished (some use)) : (calls i).counts = false := by
  have hstart := h.starts.eq_zero_iff.mp rfl i
  cases hc : calls i with
  | addRequestCount model => simp [hc, hi, TraceCall.starts] at hstart
  | doneRequestCount model term => rfl
  | doneRequestTrace model inputTokens outputTokens term =>
    have hdone := (h.completions (getTraceKey bucketIndex inputTokens outputTokens)).eq_zero_iff.mp
      (hbucket _) i
    simp [hc, hi, TraceCall.key] at hdone

lemma unused {t : RequestTrace} (h : Tally calls bucketIndex place use t.numRequests t.bucket)
    (hnone : ∀ i, place i = .finished (some use) → (calls i).counts = false) : t.Unused := by
  refine ⟨h.starts.eq_zero_iff.mpr fun i hi => ?_, fun key _ =>
    (h.completions key).eq_zero_iff.mpr fun i hi => ?_⟩
  · simp only [Bool.and_eq_true, decide_eq_true_eq] at hi
    have hcounts := hnone i hi.2
    cases hc : calls i <;> simp [hc, TraceCall.starts, TraceCall.counts] at hi hcounts
  · simp only [Bool.and_eq_true, decide_eq_true_eq] at hi
    have hcounts := hnone i hi.2
    cases hc : calls i <;> simp [hc, TraceCall.key, TraceCall.counts] at hi hcounts

end Tally

/-- What is counted in a trace that is not recycled and in a window is right. -/
structure Tallied (calls : ι → TraceCall) (bucketIndex : ℤ → ℤ) (σ : Tracing ι) : Prop where
  live : ∀ t, (σ.heap t).recycler = true →
    Tally calls bucketIndex σ.place (σ.heap t).use (σ.heap t).numRequests (σ.heap t).bucket
  written : ∀ w ∈ σ.written, Tally calls bucketIndex σ.place w.use w.total w.bucket
  keyed : ∀ t, (σ.heap t).Keyed

structure SameCounts (x y : RequestTrace) : Prop where
  trace : x.trace = y.trace
  numKeys : x.numKeys = y.numKeys
  numRequests : x.numRequests = y.numRequests
  use : x.use = y.use

namespace SameCounts

variable {σ : Tracing ι}

lemma refl (x : RequestTrace) : SameCounts x x := ⟨rfl, rfl, rfl, rfl⟩

lemma update {t : ℕ} {x : RequestTrace} (h : SameCounts x (σ.heap t)) (u : ℕ) :
    SameCounts (update σ.heap t x u) (σ.heap u) := by
  exact forall_update (P := fun u y => SameCounts y (σ.heap u)) (fun _ => refl _) h u

lemma bucket {x y : RequestTrace} (h : SameCounts x y) : x.bucket = y.bucket := by
  funext key
  rw [RequestTrace.bucket, h.trace]
  rfl

lemma keyed {x y : RequestTrace} (h : SameCounts x y) (hy : y.Keyed) : x.Keyed := by
  rw [RequestTrace.Keyed, h.numKeys, h.trace]
  exact hy

end SameCounts

namespace Tallied

variable (h : σ.Tallied calls bucketIndex)

lemma tally_window
    (h : Tally calls bucketIndex σ.place (σ.heap t).use (σ.heap t).numRequests (σ.heap t).bucket)
    (model : String) (roundT pending : ℤ) :
    let w : Window := ⟨model, roundT, (σ.heap t).toMapLocked pending, (σ.heap t).use⟩
    Tally calls bucketIndex σ.place w.use w.total w.bucket := by
  intro w
  have hbucket : w.bucket = (σ.heap t).bucket := by
    funext key
    unfold Window.bucket
    split
    · rename_i hmeta
      -- no call has a meta key, so nothing is counted under it
      symm
      refine (h.completions key).eq_zero_iff.mpr fun i hi => ?_
      simp only [Bool.and_eq_true] at hi
      cases hc : calls i with
      | doneRequestTrace m inputTokens outputTokens term =>
        have hkey : getTraceKey bucketIndex inputTokens outputTokens = key := by
          simpa [hc, TraceCall.key] using hi.1
        rw [← hkey] at hmeta
        exact getTraceKey_notMem_metaKeys bucketIndex inputTokens outputTokens hmeta
      | addRequestCount | doneRequestCount => simp [hc, TraceCall.key] at hi
    · rename_i hkey
      rw [RequestTrace.lookup_toMapLocked_key pending hkey]
      rfl
  rw [hbucket]
  exact h

include h in
lemma frame
    (hplace : ∀ i use, σ'.place i = .finished (some use) ↔ σ.place i = .finished (some use))
    (hheap : ∀ t, SameCounts (σ'.heap t) (σ.heap t))
    (hrec : ∀ t, (σ'.heap t).recycler = true → (σ.heap t).recycler = true)
    (hwritten : σ'.written = σ.written) : σ'.Tallied calls bucketIndex where
  live t ht := by
    rw [(hheap t).use, (hheap t).numRequests, (hheap t).bucket]
    exact (h.live t (hrec t ht)).congr fun i => hplace i _
  written w hw := by
    rw [hwritten] at hw
    exact (h.written w hw).congr fun i => hplace i _
  keyed t := (hheap t).keyed (h.keyed t)

variable [DecidableEq ι]

lemma home_iff (hfrom : ∀ use, σ.place i ≠ .finished (some use))
    (hto : ∀ use, q ≠ .finished (some use)) (j : ι) (use : ℕ) :
    update σ.place i q j = .finished (some use) ↔ σ.place j = .finished (some use) := by
  by_cases hji : j = i
  · subst hji
    rw [update_self]
    exact ⟨fun h => absurd h (hto use), fun h => absurd h (hfrom use)⟩
  · rw [update_of_ne hji]

include h

lemma newRequestTrace (hu : σ.Uses) {now : ℤ} {allocated : ℕ} {pool : Finset ℕ}
    (hp : σ.place i = .outside) : Tallied calls bucketIndex
      { σ with heap := update σ.heap t ((σ.heap t).newRequestTrace now σ.uses)
               allocated := allocated, pool := pool
               place := update σ.place i (.made t), uses := σ.uses + 1 } := by
  have hhome : ∀ j use, update σ.place i (.made t) j = .finished (some use) ↔
      σ.place j = .finished (some use) := home_iff (by simp [hp]) (by simp)
  refine ⟨fun u hlive => ?_, fun w hw => (h.written w hw).congr fun j => hhome j _,
    forall_update h.keyed ((h.keyed t).newRequestTrace now σ.uses)⟩
  · dsimp only at hlive ⊢
    by_cases hut : u = t
    · subst hut
      rw [update_self]
      have hunused := (h.keyed u).unused_newRequestTrace now σ.uses
      refine Tally.none (fun j hj => ?_) hunused.bucket_eq
      exact (hu.home_lt j _ ((hhome j _).mp hj)).false
    · rw [update_of_ne hut] at hlive ⊢
      exact (h.live u hlive).congr fun j => hhome j _

lemma leave (hu : σ.Uses) (hl : σ.Locked) (hk : σ.Keys calls bucketIndex)
    (hp : σ.place i = .inside t) : Tallied calls bucketIndex
      { σ with heap := update σ.heap t ((calls i).count (σ.traceKey i) (σ.heap t)).rUnlock
               place := update σ.place i (.finished (some (σ.heap t).use)) } := by
  have hlive := hl.live i t hp
  obtain ⟨hrec, -, huse, hnum⟩ := (calls i).count_frame (σ.traceKey i) (σ.heap t)
  -- the calls of another use stay the same
  have hother : ∀ use, use ≠ (σ.heap t).use → ∀ j,
      update σ.place i (.finished (some (σ.heap t).use)) j = .finished (some use) ↔
        σ.place j = .finished (some use) := by
    intro use hne j
    by_cases hji : j = i
    · subst hji
      rw [hp]
      simp [Ne.symm hne]
    · rw [update_of_ne hji]
  have hkeyed := TraceCall.keyed_count (h.keyed t) (calls i) (σ.traceKey i)
  refine ⟨fun u hu' => ?_, fun w hw => ?_, forall_update h.keyed hkeyed⟩
  · dsimp only at hu' ⊢
    by_cases hut : u = t
    · subst hut
      rw [update_self]
      have hbucket : ((calls i).count (σ.traceKey i) (σ.heap u)).bucket = fun key =>
          (σ.heap u).bucket key + if (calls i).key bucketIndex = some key then 1 else 0 := by
        funext key
        exact TraceCall.bucket_count (hk.inside i u hp).2 (σ.heap u) key
      have hcount := (h.live u hlive).count (i := i) (by simp [hp])
      rw [← hnum, ← hbucket] at hcount
      simp only [RequestTrace.rUnlock, huse]
      exact hcount
    · rw [update_of_ne hut] at hu' ⊢
      refine (h.live u hu').congr (hother _ fun heq => hut ?_)
      exact hu.live_inj u t hu' hlive heq
  · exact (h.written w hw).congr (hother _ (hu.written_live w hw t hlive).symm)

lemma action (hc : σ.Custody) (hu : σ.Uses) (hl : σ.Locked) (hk : σ.Keys calls bucketIndex)
    (ha : Action calls bucketIndex σ e σ') : σ'.Tallied calls bucketIndex := by
  have hsame : ∀ t, SameCounts (σ.heap t) (σ.heap t) := fun t => .refl _
  have hkeep : ∀ t, (σ.heap t).recycler = true → (σ.heap t).recycler = true := fun t ht => ht
  cases ha with
  | newRequestTrace hp ht => exact h.newRequestTrace hu hp
  | load hp | found hp | stored hp | increment hp | absent hp | retry hp =>
    exact h.frame (home_iff (by simp [hp]) (by simp)) hsame hkeep rfl
  | recycle hp hr =>
    exact h.frame (home_iff (by simp [hp]) (by simp)) (SameCounts.update ⟨rfl, rfl, rfl, rfl⟩)
      (fun u hu => (Uses.live_recycled u hu).2.1) rfl
  | @enter i t hp hc hr =>
    exact h.frame (home_iff (by simp [hp]) (by simp)) (SameCounts.update ⟨rfl, rfl, rfl, rfl⟩)
      (fun u hu => (Uses.live_update (x := (σ.heap t).rLock) rfl rfl u hu).1) rfl
  | @done i t term hp hc =>
    obtain ⟨n, hn⟩ := (σ.heap t).doneRequestLocked_eq term
    exact h.frame (home_iff (by simp [hp]) (by simp))
      (SameCounts.update ⟨by rw [hn], by rw [hn], by rw [hn], by rw [hn]⟩)
      (fun u hu => (Uses.live_update (x := (σ.heap t).doneRequestLocked term) (by rw [hn]) (by rw [hn])
        u hu).1) rfl
  | leave hp => exact h.leave hu hl hk hp
  | tick | swap | again | range | visit | endRange =>
    exact h.frame (fun _ _ => Iff.rfl) hsame hkeep rfl
  | @write n roundT pending todo model t hw hr =>
    have hheld : σ.holds .writer t := by simp [holds, Held, hw, Writer.hand]
    have hlive := (hc.live .writer t hheld).mpr (by simp)
    have hheap : ∀ u, SameCounts (update σ.heap t (σ.heap t).recycleLocked u) (σ.heap u) :=
      SameCounts.update ⟨rfl, rfl, rfl, rfl⟩
    refine ⟨fun u hu => ?_, fun w hw => ?_, fun u => (hheap u).keyed (h.keyed u)⟩
    · rw [(hheap u).use, (hheap u).numRequests, (hheap u).bucket]
      exact h.live u (Uses.live_recycled u hu).2.1
    · rcases mem_append.mp hw with hmem | hmem
      · exact h.written w hmem
      · rw [List.mem_singleton.mp hmem]
        exact tally_window (h.live t hlive) model roundT pending

end Tallied

/-! ### All of it -/

structure Inv (calls : ι → TraceCall) (bucketIndex : ℤ → ℤ) (σ : Tracing ι) : Prop where
  custody : σ.Custody
  locked : σ.Locked
  uses : σ.Uses
  bounded : σ.Bounded
  keys : σ.Keys calls bucketIndex
  tallied : σ.Tallied calls bucketIndex

namespace Inv

attribute [local simp] Tracing.start

lemma start (calls : ι → TraceCall) (bucketIndex : ℤ → ℤ) : (start ι).Inv calls bucketIndex := by
  have hheld : ∀ p t, ¬ (Tracing.start ι).holds p t := by
    intro p t h
    cases p <;> simp [holds, Held, Place.fresh, Writer.hand] at h
  constructor
  · exact ⟨fun p q t hp => absurd hp (hheld p t), fun p t hp => absurd hp (hheld p t),
      fun p t hp => absurd hp (hheld p t)⟩
  · exact ⟨fun t => Census.none.congr fun i => by simp, by simp⟩
  · constructor <;> simp
  · constructor <;> simp [Writer.old]
  · constructor <;> simp
  · constructor <;> simp [RequestTrace.Keyed]

variable [DecidableEq ι]

lemma action (h : σ.Inv calls bucketIndex) {e : TraceEvent ι} (ha : Action calls bucketIndex σ e σ') :
    σ'.Inv calls bucketIndex where
  custody := h.custody.action ha
  locked := h.locked.action ha
  uses := h.uses.action h.custody h.locked ha
  bounded := h.bounded.action ha
  keys := h.keys.action ha
  tallied := h.tallied.action h.custody h.uses h.locked h.keys ha

lemma step (h : σ.Inv calls bucketIndex) (e : TraceEvent ι) :
    (σ.step calls bucketIndex e).Inv calls bucketIndex := by
  rcases step_cases calls bucketIndex σ e with ⟨heq, -⟩ | ha
  · rw [heq]
    exact h
  · exact h.action ha

end Inv
end Tracing
end Lodestar.Cache
