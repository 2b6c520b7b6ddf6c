import Lodestar.Lib.Census
import Lodestar.Lib.Mutex
import Lodestar.Lib.Run

/-!
# The read-write lock

`RWLock` of `agent_codes/rwlock.py`: a mutex `_lock` with two conditions on it, the numbers of
readers, of writers and of waiting writers.  A thread is at one statement of one of the four
methods, or between them, and one step of a thread is one statement.  A statement of a method runs
only while the thread has the mutex; `wait` puts the thread into the queue of the condition and
gives the mutex back, `notify` takes the first thread out of the queue, and a notified thread goes
on when it gets the mutex.
-/

namespace Lodestar.Agent

open Function (update update_self update_of_ne)

/-- The places of a thread: between the methods, and in front of each statement. -/
inductive Pc where
  | idle
  -- `read_acquire`
  | readAcquire
  | readTest
  | readWait
  | readBlocked
  | readWoken
  | readEnter
  | readUnlock
  | reading
  -- `read_release`
  | readRelease
  | readLeave
  | readLast
  | readNotify
  | readReleased
  -- `write_acquire`
  | writeAcquire
  | writeRegister
  | writeTest
  | writeWait
  | writeBlocked
  | writeWoken
  | writeUnregister
  | writeEnter
  | writeUnlock
  | writing
  -- `write_release`
  | writeRelease
  | writeClear
  | writeNotify
  | writeNotifyAll
  | writeReleased
  deriving DecidableEq

namespace Pc

def inSection : Pc → Bool
  | .readTest | .readWait | .readEnter | .readUnlock => true
  | .readLeave | .readLast | .readNotify | .readReleased => true
  | .writeRegister | .writeTest | .writeWait | .writeUnregister | .writeEnter | .writeUnlock => true
  | .writeClear | .writeNotify | .writeNotifyAll | .writeReleased => true
  | _ => false

def reads : Pc → Bool
  | .readUnlock | .reading | .readRelease | .readLeave => true
  | _ => false

def writes : Pc → Bool
  | .writeUnlock | .writing | .writeRelease | .writeClear => true
  | _ => false

/-- The thread acquires the lock for writing and does not have it yet. -/
def waitsToWrite : Pc → Bool
  | .writeTest | .writeWait | .writeBlocked | .writeWoken | .writeUnregister => true
  | _ => false

/-- The thread is in `wait`. -/
def blocked : Pc → Bool
  | .readBlocked | .readWoken | .writeBlocked | .writeWoken => true
  | _ => false

/-- The thread will take the lock for writing or notify a writer, as soon as it gets on. -/
def wakesWriter : Pc → Bool
  | .writeWoken | .writeTest | .writeUnregister | .writeEnter => true
  | .readLast | .readNotify | .writeNotify => true
  | _ => false

/-- The thread will take the lock for writing or notify all readers. -/
def wakesReaders : Pc → Bool
  | .writeEnter | .writeNotify | .writeNotifyAll => true
  | _ => false

/-- The thread has the mutex and is about to notify, or to take the lock for writing. -/
def acts : Pc → Bool
  | .writeTest | .writeUnregister | .writeEnter => true
  | .readLast | .readNotify | .writeNotify | .writeNotifyAll => true
  | _ => false

/-- The thread is in `wait` and has been notified. -/
def notified : Pc → Bool
  | .readWoken | .writeWoken => true
  | _ => false

/-- From the place `q` to the place `p` no number changes, and a thread that will wake others still
will. -/
def Quiet (q p : Pc) : Prop :=
  p.reads = q.reads ∧ p.writes = q.writes ∧ p.waitsToWrite = q.waitsToWrite ∧
    p ≠ .readBlocked ∧ p ≠ .writeBlocked ∧ q ≠ .readBlocked ∧ q ≠ .writeBlocked ∧
    (q.wakesWriter = true → p.wakesWriter = true) ∧ (q.wakesReaders = true → p.wakesReaders = true)
  deriving Decidable

end Pc

structure RWLock (τ : Type*) where
  lock : Option τ := none
  readReady : List τ := []
  writeReady : List τ := []
  readers : ℤ := 0
  writers : ℤ := 0
  waitingWriters : ℤ := 0
  pc : τ → Pc := fun _ => .idle

namespace RWLock

variable {τ : Type*} [DecidableEq τ] (s : RWLock τ) (t : τ)

/-! ### Statements -/

def goto (p : Pc) : RWLock τ := { s with pc := update s.pc t p }

/-- `with self._lock`, or the end of `wait`: the thread gets the mutex when nobody has it. -/
def acquire (p : Pc) : RWLock τ :=
  match s.lock with
  | none => { s with lock := some t, pc := update s.pc t p }
  | some _ => s

/-- The end of the `with` statement. -/
def leave (p : Pc) : RWLock τ := { s with lock := none, pc := update s.pc t p }

/-- `self._write_ready.notify()`. -/
def notifyWriter : RWLock τ :=
  match s.writeReady with
  | [] => s
  | u :: rest => { s with writeReady := rest, pc := update s.pc u .writeWoken }

/-- `self._read_ready.notify_all()`. -/
def notifyReaders : RWLock τ :=
  { s with readReady := [], pc := fun u => if u ∈ s.readReady then .readWoken else s.pc u }

/-- One statement of the thread.  A thread that waits for a notification does nothing. -/
def next : RWLock τ :=
  match s.pc t with
  | .idle => s
  | .readAcquire => s.acquire t .readTest
  | .readTest => s.goto t (if s.writers > 0 ∨ s.waitingWriters > 0 then .readWait else .readEnter)
  | .readWait => { s with
      lock := none
      readReady := s.readReady ++ [t]
      pc := update s.pc t .readBlocked }
  | .readBlocked => s
  | .readWoken => s.acquire t .readTest
  | .readEnter => { s with readers := s.readers + 1 }.goto t .readUnlock
  | .readUnlock => s.leave t .reading
  | .reading => s.goto t .readRelease
  | .readRelease => s.acquire t .readLeave
  | .readLeave => { s with readers := s.readers - 1 }.goto t .readLast
  | .readLast => s.goto t (if s.readers = 0 then .readNotify else .readReleased)
  | .readNotify => s.notifyWriter.goto t .readReleased
  | .readReleased => s.leave t .idle
  | .writeAcquire => s.acquire t .writeRegister
  | .writeRegister => { s with waitingWriters := s.waitingWriters + 1 }.goto t .writeTest
  | .writeTest => s.goto t (if s.readers > 0 ∨ s.writers > 0 then .writeWait else .writeUnregister)
  | .writeWait => { s with
      lock := none
      writeReady := s.writeReady ++ [t]
      pc := update s.pc t .writeBlocked }
  | .writeBlocked => s
  | .writeWoken => s.acquire t .writeTest
  | .writeUnregister => { s with waitingWriters := s.waitingWriters - 1 }.goto t .writeEnter
  | .writeEnter => { s with writers := 1 }.goto t .writeUnlock
  | .writeUnlock => s.leave t .writing
  | .writing => s.goto t .writeRelease
  | .writeRelease => s.acquire t .writeClear
  | .writeClear => { s with writers := 0 }.goto t .writeNotify
  | .writeNotify => s.notifyWriter.goto t .writeNotifyAll
  | .writeNotifyAll => s.notifyReaders.goto t .writeReleased
  | .writeReleased => s.leave t .idle

/-- What can happen: an idle thread calls an acquire method, or a thread takes its next step.  A
thread that has the lock calls the release method that matches. -/
inductive Event (τ : Type*) where
  | read (t : τ)
  | write (t : τ)
  | next (t : τ)

def step : Event τ → RWLock τ
  | .read t => if s.pc t = .idle then s.goto t .readAcquire else s
  | .write t => if s.pc t = .idle then s.goto t .writeAcquire else s
  | .next t => s.next t

def run (es : List (Event τ)) : RWLock τ := es.foldl step {}

/-! ### The invariant -/

def Found (s : RWLock τ) : Pc → Prop
  | .readWait => 0 < s.writers ∨ 0 < s.waitingWriters
  | .readEnter => s.writers ≤ 0 ∧ s.waitingWriters ≤ 0
  | .writeWait => 0 < s.readers ∨ 0 < s.writers
  | .writeUnregister => s.readers ≤ 0 ∧ s.writers ≤ 0
  | .writeEnter => s.readers ≤ 0 ∧ s.writers ≤ 0
  | _ => True

structure Inv (s : RWLock τ) : Prop where
  mutex : Lib.Mutex Pc.inSection s.pc s.lock
  readers : Lib.Census (fun u => (s.pc u).reads = true) s.readers
  writers : Lib.Census (fun u => (s.pc u).writes = true) s.writers
  waiting : Lib.Census (fun u => (s.pc u).waitsToWrite = true) s.waitingWriters
  readReady : s.readReady.Nodup ∧ ∀ u, u ∈ s.readReady ↔ s.pc u = .readBlocked
  writeReady : s.writeReady.Nodup ∧ ∀ u, u ∈ s.writeReady ↔ s.pc u = .writeBlocked
  found : ∀ u, s.Found (s.pc u)
  apart : s.writers ≤ 1 ∧ (0 < s.writers → s.readers ≤ 0)
  wakesWriter : s.readers ≤ 0 → s.writers ≤ 0 → s.writeReady ≠ [] → ∃ u, (s.pc u).wakesWriter = true
  wakesReaders : s.writers ≤ 0 → s.waitingWriters ≤ 0 → s.readReady ≠ [] →
    ∃ u, (s.pc u).wakesReaders = true

omit [DecidableEq τ] in
lemma inv_new : Inv ({} : RWLock τ) where
  mutex u := by simp [Pc.inSection]
  readers := Lib.Census.none.congr (by simp [Pc.reads])
  writers := Lib.Census.none.congr (by simp [Pc.writes])
  waiting := Lib.Census.none.congr (by simp [Pc.waitsToWrite])
  readReady := by simp
  writeReady := by simp
  found u := trivial
  apart := by simp
  wakesWriter := by simp
  wakesReaders := by simp

/-- One thread moves to the place `p`, with the effect on the mutex, the queues and the numbers that
belongs to the move. -/
structure Moves (s s' : RWLock τ) (t : τ) (p : Pc) : Prop where
  pc : s'.pc = update s.pc t p
  lock : s'.lock = if p.inSection then some t else if (s.pc t).inSection then none else s.lock
  free : p.inSection = true → (s.pc t).inSection = true ∨ s.lock = none
  readers : s'.readers = s.readers + (if p.reads then 1 else 0) - if (s.pc t).reads then 1 else 0
  writers : s'.writers = s.writers + (if p.writes then 1 else 0) - if (s.pc t).writes then 1 else 0
  waiting : s'.waitingWriters = s.waitingWriters + (if p.waitsToWrite then 1 else 0) -
    if (s.pc t).waitsToWrite then 1 else 0
  outside : p.inSection = false → (s.pc t).inSection = false → s'.readers = s.readers ∧
    s'.writers = s.writers ∧ s'.waitingWriters = s.waitingWriters
  awake : s.pc t ≠ .readBlocked ∧ s.pc t ≠ .writeBlocked
  readReady : s'.readReady = s.readReady ++ if p = .readBlocked then [t] else []
  writeReady : s'.writeReady = s.writeReady ++ if p = .writeBlocked then [t] else []
  found : s'.Found p
  apart : s'.writers ≤ 1 ∧ (0 < s'.writers → s'.readers ≤ 0)
  wakesWriter : s'.readers ≤ 0 → s'.writers ≤ 0 → s'.writeReady ≠ [] → p.wakesWriter = true ∨
    (∃ u ≠ t, (s.pc u).wakesWriter = true) ∨
    s.readers ≤ 0 ∧ s.writers ≤ 0 ∧ s.writeReady ≠ [] ∧ (s.pc t).wakesWriter = false
  wakesReaders : s'.writers ≤ 0 → s'.waitingWriters ≤ 0 → s'.readReady ≠ [] → p.wakesReaders = true ∨
    s.writers ≤ 0 ∧ s.waitingWriters ≤ 0 ∧ s.readReady ≠ [] ∧ (s.pc t).wakesReaders = false

variable {s s' : RWLock τ} {t : τ} {p : Pc}
omit [DecidableEq τ] in
lemma found_of_outside (hp : p.inSection = false) : s.Found p := by
  cases p <;> trivial

omit [DecidableEq τ] in
lemma Found.congr (h : s.Found p) (hr : s'.readers = s.readers) (hw : s'.writers = s.writers)
    (hww : s'.waitingWriters = s.waitingWriters) : s'.Found p := by
  unfold Found at h ⊢
  rw [hr, hw, hww]
  exact h

lemma queue_move {queue : List τ} {q : Pc} {pc : τ → Pc}
    (h : queue.Nodup ∧ ∀ u, u ∈ queue ↔ pc u = q) (ht : pc t ≠ q) :
    (queue ++ if p = q then [t] else []).Nodup ∧
      ∀ u, u ∈ (queue ++ if p = q then [t] else []) ↔ update pc t p u = q := by
  have hnot : t ∉ queue := fun hmem => ht ((h.2 t).mp hmem)
  constructor
  · split
    · exact h.1.append (List.nodup_singleton t) (by simpa using hnot)
    · simpa using h.1
  · intro u
    by_cases hu : u = t
    · subst hu
      by_cases hp : p = q <;> simp [hnot]
    · by_cases hp : p = q <;> simp [h.2 u, hu]

section

variable (h : Inv s)
include h

lemma Inv.move (hm : Moves s s' t p) : Inv s' where
  mutex := by
    rw [hm.pc, hm.lock]
    exact h.mutex.move hm.free
  readers := by
    rw [hm.pc, hm.readers]
    exact h.readers.update t p
  writers := by
    rw [hm.pc, hm.writers]
    exact h.writers.update t p
  waiting := by
    rw [hm.pc, hm.waiting]
    exact h.waiting.update t p
  readReady := by
    rw [hm.pc, hm.readReady]
    exact queue_move h.readReady hm.awake.1
  writeReady := by
    rw [hm.pc, hm.writeReady]
    exact queue_move h.writeReady hm.awake.2
  found u := by
    rw [hm.pc]
    by_cases hu : u = t
    · subst hu
      rw [update_self]
      exact hm.found
    · rw [update_of_ne hu]
      -- the numbers change only where the moving thread has the mutex
      by_cases hin : p.inSection = true ∨ (s.pc t).inSection = true
      · apply found_of_outside
        exact h.mutex.alone (hin.elim hm.free .inl) hu
      · push Not at hin
        obtain ⟨hr, hw, hww⟩ := hm.outside (by simpa using hin.1) (by simpa using hin.2)
        exact (h.found u).congr hr hw hww
  apart := hm.apart
  wakesWriter hr hw hne := by
    rw [hm.pc]
    rcases hm.wakesWriter hr hw hne with hp | ⟨u, hut, hu⟩ | ⟨hr', hw', hne', ht⟩
    · exact ⟨t, by rw [update_self]; exact hp⟩
    · exact ⟨u, by rw [update_of_ne hut]; exact hu⟩
    · obtain ⟨u, hu⟩ := h.wakesWriter hr' hw' hne'
      have hut : u ≠ t := by
        rintro rfl
        simp [ht] at hu
      exact ⟨u, by rw [update_of_ne hut]; exact hu⟩
  wakesReaders hw hww hne := by
    rw [hm.pc]
    rcases hm.wakesReaders hw hww hne with hp | ⟨hw', hww', hne', ht⟩
    · exact ⟨t, by rw [update_self]; exact hp⟩
    · obtain ⟨u, hu⟩ := h.wakesReaders hw' hww' hne'
      have hut : u ≠ t := by
        rintro rfl
        simp [ht] at hu
      exact ⟨u, by rw [update_of_ne hut]; exact hu⟩

lemma Inv.quiet {q : Pc} (hp : s.pc t = q) (hq : q.Quiet p) (hf : s.Found p)
    {lock : Option τ} (hfree : p.inSection = true → q.inSection = true ∨ s.lock = none)
    (hlock : lock = if p.inSection then some t else if q.inSection then none else s.lock) :
    Inv { s with lock := lock, pc := update s.pc t p } := by
  obtain ⟨hr, hw, hww, hp₁, hp₂, hq₁, hq₂, hk₁, hk₂⟩ := hq
  subst hp
  refine h.move (t := t) (p := p) ?_
  constructor
  · rfl
  · exact hlock
  · exact hfree
  · simp [hr]
  · simp [hw]
  · simp [hww]
  · exact fun _ _ => ⟨rfl, rfl, rfl⟩
  · exact ⟨hq₁, hq₂⟩
  · simp [hp₁]
  · simp [hp₂]
  · exact hf.congr rfl rfl rfl
  · exact h.apart
  · intro hr0 hw0 hne
    cases hk : (s.pc t).wakesWriter with
    | true => exact .inl (hk₁ hk)
    | false => exact .inr (.inr ⟨hr0, hw0, hne, rfl⟩)
  · intro hw0 hww0 hne
    cases hk : (s.pc t).wakesReaders with
    | true => exact .inl (hk₂ hk)
    | false => exact .inr ⟨hw0, hww0, hne, rfl⟩

lemma Inv.goto {q : Pc} (hp : s.pc t = q) (hq : q.Quiet p) (hf : s.Found p)
    (hin : p.inSection = q.inSection) : Inv (s.goto t p) := by
  apply h.quiet hp hq hf
  · intro hp'
    exact .inl (hin ▸ hp')
  · rw [hin]
    cases hs : q.inSection with
    | true => exact (h.mutex t).mp (hp ▸ hs)
    | false => simp

lemma Inv.acquire {q : Pc} (hp : s.pc t = q) (hq : q.Quiet p) (hf : s.Found p)
    (hin : p.inSection = true) : Inv (s.acquire t p) := by
  unfold RWLock.acquire
  cases hl : s.lock with
  | some u => exact h
  | none =>
    apply h.quiet hp hq hf
    · exact fun _ => .inr hl
    · simp [hin]

lemma Inv.leave {q : Pc} (hp : s.pc t = q) (hq : q.Quiet p) (hf : s.Found p)
    (hin : q.inSection = true ∧ p.inSection = false) : Inv (s.leave t p) := by
  apply h.quiet hp hq hf
  · exact fun _ => .inl hin.1
  · simp [hin]

/-! ### Notifications -/

lemma Inv.at_notifyWriter {α : Type*} (f : Pc → α) (hf : f .writeWoken = f .writeBlocked)
    (u : τ) : f (s.notifyWriter.pc u) = f (s.pc u) := by
  unfold notifyWriter
  cases hq : s.writeReady with
  | nil => rfl
  | cons v rest =>
    by_cases hu : u = v
    · subst hu
      have hb : s.pc u = .writeBlocked := (h.writeReady.2 u).mp (by simp [hq])
      simp [hb, hf]
    · simp [update_of_ne hu]

lemma Inv.at_notifyReaders {α : Type*} (f : Pc → α) (hf : f .readWoken = f .readBlocked)
    (u : τ) : f (s.notifyReaders.pc u) = f (s.pc u) := by
  show f (if u ∈ s.readReady then .readWoken else s.pc u) = _
  by_cases hu : u ∈ s.readReady
  · rw [if_pos hu, (h.readReady.2 u).mp hu, hf]
  · rw [if_neg hu]

end

lemma notifyWriter_same : s.notifyWriter.lock = s.lock ∧ s.notifyWriter.readReady = s.readReady ∧
    s.notifyWriter.readers = s.readers ∧ s.notifyWriter.writers = s.writers ∧
    s.notifyWriter.waitingWriters = s.waitingWriters := by
  unfold notifyWriter
  cases s.writeReady <;> simp

lemma exists_notified (h : s.notifyWriter.writeReady ≠ []) :
    ∃ u, s.notifyWriter.pc u = .writeWoken := by
  unfold notifyWriter at h ⊢
  cases hq : s.writeReady with
  | nil => simp [hq] at h
  | cons v rest => exact ⟨v, by simp⟩

lemma Inv.writeReady_notifyWriter (h : Inv s) : s.notifyWriter.writeReady.Nodup ∧
    ∀ u, u ∈ s.notifyWriter.writeReady ↔ s.notifyWriter.pc u = .writeBlocked := by
  have hready := h.writeReady
  unfold RWLock.notifyWriter
  cases hq : s.writeReady with
  | nil =>
    exact hready
  | cons v rest =>
    rw [hq] at hready
    obtain ⟨hv, hrest⟩ := List.nodup_cons.mp hready.1
    refine ⟨hrest, fun u => ?_⟩
    by_cases hu : u = v
    · subst hu
      simp [hv]
    · simp [← hready.2 u, hu]

lemma Inv.notifyWriter (h : Inv s) : Inv s.notifyWriter := by
  obtain ⟨hlock, hqueue, hr, hw, hww⟩ := notifyWriter_same (s := s)
  constructor
  · intro u
    rw [h.at_notifyWriter Pc.inSection rfl, hlock]
    exact h.mutex u
  · rw [hr]
    exact h.readers.congr fun u => by rw [h.at_notifyWriter Pc.reads rfl]
  · rw [hw]
    exact h.writers.congr fun u => by rw [h.at_notifyWriter Pc.writes rfl]
  · rw [hww]
    exact h.waiting.congr fun u => by rw [h.at_notifyWriter Pc.waitsToWrite rfl]
  · rw [hqueue]
    refine ⟨h.readReady.1, fun u => ?_⟩
    rw [h.readReady.2 u]
    exact (iff_of_eq (h.at_notifyWriter (· = .readBlocked) (by simp) u)).symm
  · exact h.writeReady_notifyWriter
  · intro u
    have hsame := h.at_notifyWriter s.Found rfl u
    exact (hsame ▸ h.found u : s.Found (s.notifyWriter.pc u)).congr hr hw hww
  · rw [hr, hw]
    exact h.apart
  · intro _ _ hne
    obtain ⟨u, hu⟩ := exists_notified hne
    exact ⟨u, by rw [hu]; rfl⟩
  · rw [hw, hww, hqueue]
    intro hw0 hww0 hne
    obtain ⟨u, hu⟩ := h.wakesReaders hw0 hww0 hne
    exact ⟨u, by rw [h.at_notifyWriter Pc.wakesReaders rfl]; exact hu⟩

lemma Inv.notifyReaders (h : Inv s) : Inv s.notifyReaders := by
  constructor
  · intro u
    rw [h.at_notifyReaders Pc.inSection rfl]
    exact h.mutex u
  · exact h.readers.congr fun u => by rw [h.at_notifyReaders Pc.reads rfl]
  · exact h.writers.congr fun u => by rw [h.at_notifyReaders Pc.writes rfl]
  · exact h.waiting.congr fun u => by rw [h.at_notifyReaders Pc.waitsToWrite rfl]
  · refine ⟨List.nodup_nil, fun u => ?_⟩
    show u ∈ [] ↔ (if u ∈ s.readReady then Pc.readWoken else s.pc u) = .readBlocked
    by_cases hu : u ∈ s.readReady
    · simp [hu]
    · simpa [hu] using mt (h.readReady.2 u).mpr hu
  · refine ⟨h.writeReady.1, fun u => ?_⟩
    rw [show s.notifyReaders.writeReady = s.writeReady from rfl, h.writeReady.2 u]
    exact (iff_of_eq (h.at_notifyReaders (· = .writeBlocked) (by simp) u)).symm
  · intro u
    have hsame := h.at_notifyReaders s.Found rfl u
    exact (hsame ▸ h.found u : s.Found (s.notifyReaders.pc u)).congr rfl rfl rfl
  · exact h.apart
  · intro hr hw hne
    obtain ⟨u, hu⟩ := h.wakesWriter hr hw hne
    exact ⟨u, by rw [h.at_notifyReaders Pc.wakesWriter rfl]; exact hu⟩
  · intro _ _ hne
    exact absurd rfl hne

/-! ### One step -/

section

attribute [local simp] Pc.inSection Pc.reads Pc.writes Pc.waitsToWrite Pc.wakesWriter
  Pc.wakesReaders Found RWLock.goto

/-- **One statement** of a thread keeps the invariant. -/
lemma Inv.next (h : Inv s) (t : τ) : Inv (s.next t) := by
  have hlock := (h.mutex t).mp
  have hap := h.apart
  have hr := h.readers.nonneg
  have hw := h.writers.nonneg
  have hww := h.waiting.nonneg
  have htest := h.found t
  unfold RWLock.next
  cases hp : s.pc t with
  | idle | readBlocked | writeBlocked => exact h
  | reading | writing => exact h.goto hp (by decide) trivial rfl
  | readAcquire | readWoken | readRelease | writeAcquire | writeWoken | writeRelease =>
    exact h.acquire hp (by decide) trivial rfl
  | readUnlock | readReleased | writeUnlock | writeReleased =>
    exact h.leave hp (by decide) trivial ⟨rfl, rfl⟩
  -- a number or a queue changes; the tests before tell what there is to wake up
  | readWait | writeWait | readEnter | readLeave | writeRegister | writeUnregister | writeEnter =>
    simp only [hp, Found] at htest
    refine h.move (t := t) ⟨rfl, ?_, ?_, ?_, ?_, ?_, ?_, ?_, ?_, ?_, ?_, ?_, ?_, ?_⟩ <;>
      simp [hp, hlock] <;> grind
  | writeClear =>
    have hpos := h.writers.pos_of (t := t) (by simp [hp])
    refine h.move (t := t) ⟨rfl, ?_, ?_, ?_, ?_, ?_, ?_, ?_, ?_, ?_, ?_, ?_, ?_, ?_⟩ <;>
      simp [hp, hlock]
    grind
  | readTest =>
    dsimp only
    split
    · exact h.goto hp (by decide) ‹_› rfl
    · exact h.goto hp (by decide) (by simp only [Found]; omega) rfl
  | readLast =>
    by_cases hr : s.readers = 0
    · rw [if_pos hr]
      exact h.goto hp (by decide) trivial rfl
    · -- readers are left, so no writer can be let in
      rw [if_neg hr]
      apply h.move (t := t) (p := .readReleased)
      constructor <;> simp [hp, hlock] <;> grind
  | writeTest =>
    by_cases hbusy : s.readers > 0 ∨ s.writers > 0
    · rw [if_pos hbusy]
      apply h.move (t := t) (p := .writeWait)
      constructor <;> simp [hp, hlock] <;> grind
    · rw [if_neg hbusy]
      exact h.goto hp (by decide) (by simpa using hbusy) rfl
  | readNotify | writeNotify =>
    have hap' := h.notifyWriter.apart
    have hp' := h.at_notifyWriter (· = s.pc t) (by simp [hp]) t
    have hlock' := (h.notifyWriter.mutex t).mp
    have hwoken := exists_notified (s := s)
    refine h.notifyWriter.move (t := t) ⟨rfl, ?_, ?_, ?_, ?_, ?_, ?_, ?_, ?_, ?_, ?_, ?_, ?_, ?_⟩ <;>
      simp_all
    grind
  | writeNotifyAll =>
    have hap' := h.notifyReaders.apart
    have hp' : s.notifyReaders.pc t = .writeNotifyAll :=
      (h.at_notifyReaders (· = .writeNotifyAll) (by simp) t).mpr hp
    have hlock' := (h.notifyReaders.mutex t).mp
    have hempty : s.notifyReaders.readReady = [] := rfl
    apply h.notifyReaders.move (t := t) (p := .writeReleased)
    constructor <;> simp [hp', hlock'] <;> grind

end

lemma Inv.step (h : Inv s) (e : Event τ) : Inv (s.step e) := by
  cases e with
  | next t => exact h.next t
  | read | write =>
    unfold RWLock.step
    dsimp only
    split
    · exact h.goto (q := .idle) ‹_› (by decide) trivial rfl
    · exact h

lemma inv_run (es : List (Event τ)) : Inv (run es) :=
  Lib.foldl_invariant inv_new (fun _ e h => h.step e) es

/-! ### What every run keeps -/

attribute [local simp] RWLock.goto

lemma next_pc_of_ne (s : RWLock τ) {u : τ} (hu : u ≠ t) :
    (s.next t).pc u = s.pc u ∨ ((s.next t).pc u).notified = true := by
  have hacquire : ∀ p, (s.acquire t p).pc u = s.pc u := by
    intro p
    unfold RWLock.acquire
    cases s.lock <;> simp [hu]
  have hwriter : s.notifyWriter.pc u = s.pc u ∨ (s.notifyWriter.pc u).notified = true := by
    unfold RWLock.notifyWriter
    cases s.writeReady with
    | nil => exact .inl rfl
    | cons v rest => by_cases huv : u = v <;> simp [huv, Pc.notified]
  have hreaders : s.notifyReaders.pc u = s.pc u ∨ (s.notifyReaders.pc u).notified = true := by
    unfold RWLock.notifyReaders
    by_cases hmem : u ∈ s.readReady <;> simp [hmem, Pc.notified]
  unfold RWLock.next
  cases s.pc t <;> simp [RWLock.leave, hu, hacquire, hwriter, hreaders]

lemma readEnter_of_next (h : (s.pc t).reads = false) (h' : ((s.next t).pc t).reads = true) :
    s.pc t = .readEnter := by
  have hacquire : ∀ p : Pc, p.reads = false → ((s.acquire t p).pc t).reads = false := by
    intro p hp
    unfold RWLock.acquire
    cases s.lock with
    | none => simpa using hp
    | some _ => exact h
  unfold RWLock.next at h'
  cases hp : s.pc t with
  | readEnter => rfl
  | readTest | readLast | writeTest =>
    simp only [hp, RWLock.goto, update_self] at h'
    split at h' <;> cases h'
  | _ => simp_all [RWLock.leave, Pc.reads]

lemma readEnter_of_step {e : Event τ} (h : (s.pc t).reads = false)
    (h' : ((s.step e).pc t).reads = true) : s.pc t = .readEnter := by
  have hsame : ∀ u (p : Pc), p.reads = false → ((s.goto u p).pc t).reads = false := by
    intro u p hp
    by_cases ht : t = u
    · subst ht
      simpa using hp
    · simpa [ht] using h
  cases e with
  | read u | write u =>
    unfold RWLock.step at h'
    dsimp only at h'
    split at h'
    · exact Bool.false_ne_true ((hsame _ _ rfl).symm.trans h') |>.elim
    · simp [h] at h'
  | next u =>
    by_cases hu : t = u
    · subst hu
      exact readEnter_of_next h h'
    · rcases next_pc_of_ne s hu with hpc | hpc
      · change ((s.next u).pc t).reads = true at h'
        rw [hpc, h] at h'
        simp at h'
      · change ((s.next u).pc t).reads = true at h'
        revert hpc h'
        cases (s.next u).pc t <;> simp [Pc.notified, Pc.reads]

def Free (s : RWLock τ) : Prop := ∀ t, (s.pc t).reads = false ∧ (s.pc t).writes = false

omit [DecidableEq τ] in
lemma Inv.zero_of_free (h : Inv s) (hfree : s.Free) : s.readers = 0 ∧ s.writers = 0 := by
  constructor
  · exact h.readers.eq_zero_iff.mpr fun t => by simp [(hfree t).1]
  · exact h.writers.eq_zero_iff.mpr fun t => by simp [(hfree t).2]

omit [DecidableEq τ] in
lemma Inv.acting (h : Inv s) {u : τ}
    (hu : (s.pc u).wakesWriter = true ∨ (s.pc u).wakesReaders = true) :
    (s.pc u).notified = true ∨ s.lock = some u ∧ (s.pc u).acts = true := by
  rw [← h.mutex u]
  revert hu
  cases s.pc u <;> decide

omit [DecidableEq τ] in
/-- **No lost wake-up**: where the lock is free and a thread is in `wait`, there is one that has been
notified, or one that has the mutex and is about to notify or to take the lock. -/
lemma Inv.wakeUp (h : Inv s) (hfree : s.Free) (hblocked : ∃ t, (s.pc t).blocked = true) :
    ∃ u, (s.pc u).notified = true ∨ s.lock = some u ∧ (s.pc u).acts = true := by
  obtain ⟨hr, hw⟩ := h.zero_of_free hfree
  have hwriter : ∀ t, s.pc t = .writeBlocked →
      ∃ u, (s.pc u).notified = true ∨ s.lock = some u ∧ (s.pc u).acts = true := by
    intro t ht
    have hne := List.ne_nil_of_mem ((h.writeReady.2 t).mpr ht)
    obtain ⟨u, hu⟩ := h.wakesWriter hr.le hw.le hne
    exact ⟨u, h.acting (.inl hu)⟩
  obtain ⟨t, ht⟩ := hblocked
  cases hp : s.pc t with
  | readWoken | writeWoken => exact ⟨t, .inl (by rw [hp]; rfl)⟩
  | writeBlocked => exact hwriter t hp
  | readBlocked =>
    have hne := List.ne_nil_of_mem ((h.readReady.2 t).mpr hp)
    by_cases hww : s.waitingWriters ≤ 0
    · obtain ⟨u, hu⟩ := h.wakesReaders hw.le hww hne
      exact ⟨u, h.acting (.inr hu)⟩
    · -- a writer keeps the readers out; it is the one that gets on
      obtain ⟨v, hv⟩ := h.waiting.exists_of_pos (by omega)
      cases hq : s.pc v with
      | writeTest | writeUnregister | writeWoken =>
        exact ⟨v, h.acting (by simp [hq, Pc.wakesWriter])⟩
      | writeBlocked => exact hwriter v hq
      | writeWait =>
        have hfound : 0 < s.readers ∨ 0 < s.writers := by simpa [hq, Found] using h.found v
        omega
      | _ => simp [hq, Pc.waitsToWrite] at hv
  | _ => simp [hp, Pc.blocked] at ht

/-- **The read-write lock**, for any threads in every interleaving: a
writer has the lock alone; the waiting writers are counted exactly; no thread starts to read while
one waits to write; and where the lock is free while threads are blocked, one
of them has been notified, or the one with the mutex is about to notify or to take the lock. -/
theorem safe_run (es : List (Event τ)) : (∀ t u, ((run es).pc t).writes = true →
      ((run es).pc u).reads = false ∧ (((run es).pc u).writes = true → u = t)) ∧
    ({t | ((run es).pc t).waitsToWrite = true}.Finite ∧
      ({t | ((run es).pc t).waitsToWrite = true}.ncard : ℤ) = (run es).waitingWriters) ∧
    (∀ e t, ((run es).pc t).reads = false → (((run es).step e).pc t).reads = true →
      ∀ u, ((run es).pc u).waitsToWrite = false) ∧
    ((run es).Free → (∃ t, ((run es).pc t).blocked = true) → match (run es).lock with
      | none => ∃ u, ((run es).pc u).notified = true
      | some v => (∃ u, ((run es).pc u).notified = true) ∨ ((run es).pc v).acts = true) := by
  have h := inv_run es
  refine ⟨fun t u ht => ⟨?_, fun hu => ?_⟩, h.waiting.ncard, ?_, ?_⟩
  · have hnone := h.apart.2 (h.writers.pos_of ht)
    by_contra hu
    have hpos := h.readers.pos_of (by simpa using hu)
    omega
  · exact h.writers.unique h.apart.1 hu ht
  · intro e t hbefore hafter u
    have hfound := h.found t
    rw [readEnter_of_step hbefore hafter] at hfound
    by_contra hu
    have hpos := h.waiting.pos_of (by simpa using hu)
    exact absurd hfound.2 (by omega)
  · intro hfree hblocked
    obtain ⟨u, hu⟩ := h.wakeUp hfree hblocked
    cases hlock : (run es).lock with
    | none =>
      rw [hlock] at hu
      exact ⟨u, hu.resolve_right (by simp)⟩
    | some v =>
      rcases hu with hu | ⟨hv, hu⟩
      · exact Or.inl ⟨u, hu⟩
      · rw [hlock] at hv
        obtain rfl := Option.some.inj hv
        exact Or.inr hu

/-- A thread that has the mutex, or can get it, moves on, unless it waits for a notification. -/
lemma next_moves (hlock : (s.pc t).inSection = true ∨ s.lock = none)
    (hawake : s.pc t ≠ .idle ∧ s.pc t ≠ .readBlocked ∧ s.pc t ≠ .writeBlocked) :
    (s.next t).pc t ≠ s.pc t := by
  unfold next
  cases hp : s.pc t with
  | idle | readBlocked | writeBlocked => simp [hp] at hawake
  | readTest | readLast | writeTest =>
    simp only [goto, update_self]
    split <;> simp
  | readAcquire | readWoken | readRelease | writeAcquire | writeWoken | writeRelease =>
    simp [acquire, hlock.resolve_left (by simp [hp, Pc.inSection])]
  | _ => simp [goto, leave]

/-- **No deadlock**: in every state that is reached, all threads are between the methods, or one of
them can take a step that moves it. -/
theorem not_stuck_run (es : List (Event τ)) :
    (∀ t, (run es).pc t = .idle) ∨ ∃ t, ((run es).next t).pc t ≠ (run es).pc t := by
  have h := inv_run es
  by_contra hstuck
  push Not at hstuck
  obtain ⟨⟨t, ht⟩, hstuck⟩ := hstuck
  have hlock : (run es).lock = none := by
    refine Option.eq_none_iff_forall_ne_some.mpr fun v hv => ?_
    have hin := (h.mutex v).mpr hv
    refine next_moves (.inl hin) ?_ (hstuck v)
    and_intros <;> intro hp <;> simp [hp, Pc.inSection] at hin
  -- the mutex is free, so that a thread inside a method is in the queue of a condition
  have hwaits : ∀ u, (run es).pc u = .idle ∨ (run es).pc u = .readBlocked ∨
      (run es).pc u = .writeBlocked := by
    intro u
    by_contra hu
    push Not at hu
    exact next_moves (.inr hlock) hu (hstuck u)
  have hfree : (run es).Free := by
    intro u
    rcases hwaits u with hu | hu | hu <;> simp [hu, Pc.reads, Pc.writes]
  have hblocked : ((run es).pc t).blocked = true := by
    rcases (hwaits t).resolve_left ht with hu | hu <;> rw [hu] <;> rfl
  obtain ⟨u, hu | ⟨hu, -⟩⟩ := h.wakeUp hfree ⟨t, hblocked⟩
  · rcases hwaits u with hp | hp | hp <;> simp [hp, Pc.notified] at hu
  · simp [hlock] at hu

end RWLock
end Lodestar.Agent
